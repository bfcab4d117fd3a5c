/-!
# Blanks

The `White_Space` property, and the trimming and splitting that go by it.
-/

namespace Crowfoot.Text

/-- Spaces, tabs and line ends: the characters with the `White_Space` property. -/
def isBlank (c : Char) : Bool :=
  let n := c.toNat
  (9 ≤ n && n ≤ 13) || n == 0x20 || n == 0x85 || n == 0xA0 || n == 0x1680 ||
    (0x2000 ≤ n && n ≤ 0x200A) || n == 0x2028 || n == 0x2029 || n == 0x202F || n == 0x205F ||
    n == 0x3000

/-- Drops the blanks in front. -/
def trimStart (text : List Char) : List Char :=
  text.dropWhile isBlank

/-- Drops the blanks at the end. -/
def trimEnd (text : List Char) : List Char :=
  (text.reverse.dropWhile isBlank).reverse

/-- Drops the blanks on both sides. -/
def trim (text : List Char) : List Char :=
  trimEnd (trimStart text)

/-- The maximal runs of characters between blanks. -/
def words (text : List Char) : List (List Char) :=
  (text.splitOnP isBlank).filter fun word => !word.isEmpty

/-- What stands before the first occurrence of a character and what follows it. -/
def splitAtFirst (separator : Char) : List Char → Option (List Char × List Char)
  | [] => none
  | c :: rest =>
    if c = separator then
      some ([], rest)
    else
      (splitAtFirst separator rest).map fun (before, after) => (c :: before, after)

/-- The text has the pattern as a contiguous part. -/
def contains (pattern : List Char) : List Char → Bool
  | [] => pattern.isEmpty
  | c :: rest => pattern.isPrefixOf (c :: rest) || contains pattern rest

/-- The trimmed text of a string. -/
def trimmed (text : String) : String :=
  String.ofList (trim text.toList)

end Crowfoot.Text
