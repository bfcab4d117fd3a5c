import Crowfoot.Schema.Cardinality
import Crowfoot.Text.Caseless
import Crowfoot.Text.Lines
import Crowfoot.Text.Numeral
import Crowfoot.Text.Offset

/-!
# Lines of a diagram

An entity-relationship diagram is read line by line: a header, relationship lines, and blocks of
attributes in braces. Blank lines and comments do not count.
-/

namespace Crowfoot.Mermaid

/-- A line without the blanks around it, and the byte offset at which it starts. -/
structure Line where
  start : Nat
  text : List Char
  deriving DecidableEq, Repr

/-- The byte offset at which a line ends. -/
def Line.stop (line : Line) : Nat :=
  line.start + Text.byteLength line.text

/-- Blank lines and comments. -/
def isIgnored (text : List Char) : Bool :=
  text.isEmpty || "%%".toList.isPrefixOf text

/-- The lines that count among raw lines which start at a byte offset. -/
def Line.ofRawLines (offset : Nat) : List (List Char) → List Line
  | [] => []
  | raw :: rest =>
    let text := Text.trim raw
    let tail := ofRawLines (offset + Text.byteLength raw) rest
    if isIgnored text then
      tail
    else
      ⟨offset + Text.byteLength (raw.takeWhile Text.isBlank), text⟩ :: tail

/-- The lines of a text that count. -/
def Line.ofText (text : List Char) : List Line :=
  ofRawLines 0 (Text.linesOf text)

/-- The word that a diagram starts with. -/
def header : List Char := "erDiagram".toList

/-- The line is the header of a diagram. -/
def isHeader (text : List Char) : Bool :=
  Text.sameText text header

/-- Characters of entity names. -/
def isEntityChar (c : Char) : Bool :=
  Text.isAlphanumeric c || c == '_' || c == '-'

/-- Word characters and dashes, but no dash in front. -/
def isEntityName (name : List Char) : Bool :=
  !name.isEmpty && name.all isEntityChar && name.head? != some '-'

/-- A type or the name of an attribute: it starts with a word character and holds no brace or
quote. -/
def isAttributeWord (word : List Char) : Bool :=
  (word.head?.any fun c => Text.isAlphanumeric c || c == '_') &&
    word.all fun c => c != '\x7b' && c != '\x7d' && c != '\x22'

/-- The multiplicity that one half of a connection means: a crow's foot for many, a ring for
none. -/
def multiplicityOfHalf (half : List Char) : Multiplicity :=
  if half.contains '\x7d' then .oneOrMany
  else if half.contains '\x7b' then (if half.contains '|' then .oneOrMany else .zeroOrMany)
  else if half.contains 'o' then .zeroOrOne
  else if half.contains '|' then .one
  else .zeroOrMany

/-- A relationship line `left <half>--<half> right : label`. -/
structure Relationship where
  left : String
  right : String
  cardinality : Cardinality
  label : Option String
  deriving DecidableEq, Repr

/-- What stands before the first pair of a character and what follows it. -/
def splitAtPair (c : Char) : List Char → Option (List Char × List Char)
  | first :: second :: rest =>
    if first = c ∧ second = c then
      some ([], rest)
    else
      (splitAtPair c (second :: rest)).map fun (before, after) => (first :: before, after)
  | _ => none

/-- Characters of a connection. -/
def isConnectionChar (c : Char) : Bool :=
  c == '|' || c == 'o' || c == '\x7b' || c == '\x7d' || c == '-' || c == '.'

/-- Reads a connection: two halves with a solid or a dotted line between them. -/
def readConnection? (token : List Char) : Option Cardinality :=
  if token.all isConnectionChar then
    match (splitAtPair '-' token).or (splitAtPair '.' token) with
    | none => none
    | some (left, right) =>
      if left.isEmpty || right.isEmpty then
        none
      else
        some ⟨multiplicityOfHalf left, multiplicityOfHalf right⟩
  else
    none

/-- Drops the quotes on both sides. -/
def trimQuotes (text : List Char) : List Char :=
  ((text.dropWhile (· == '\x22')).reverse.dropWhile (· == '\x22')).reverse

/-- Reads a label: nothing if it is empty without its quotes. -/
def readLabel? (text : List Char) : Option String :=
  let label := trimQuotes (Text.trim text)
  if label.isEmpty then none else some (String.ofList label)

/-- Reads a relationship line. -/
def readRelationship? (text : List Char) : Option Relationship :=
  let parts := (Text.splitAtFirst ':' text).getD (text, [])
  match Text.words parts.1 with
  | [left, token, right] =>
    if isEntityName left && isEntityName right then
      (readConnection? token).map fun cardinality =>
        ⟨String.ofList left, String.ofList right, cardinality, readLabel? parts.2⟩
    else
      none
  | _ => none

/-- Reads the start of a block, `name {`: the name and what follows the brace. -/
def readBlockStart? (text : List Char) : Option (String × List Char) :=
  match Text.splitAtFirst '\x7b' text with
  | none => none
  | some (name, rest) =>
    if isEntityName (Text.trim name) then some (String.ofList (Text.trim name), rest) else none

/-- Cuts a closing brace off the end of a line: the rest, and whether there was one. -/
def cutClosingBrace (text : List Char) : List Char × Bool :=
  let trimmed := Text.trim text
  if trimmed.getLast? = some '\x7d' then
    (Text.trim trimmed.dropLast, true)
  else
    (trimmed, false)

/-- An attribute line `type name [PK, FK, UK] ["comment"]`. -/
structure Attribute where
  type : String
  name : String
  isPrimaryKey : Bool
  isUnique : Bool
  isForeignKey : Bool
  deriving DecidableEq, Repr

/-- The key marks of an attribute, in upper case. -/
def readMarks (words : List (List Char)) : List (List Char) :=
  (words.flatMap fun word => (word.splitOnP (· == ',')).filter fun mark => !mark.isEmpty).map
    Text.upper

/-- Reads an attribute; a comment in quotes is left out. -/
def readAttribute? (text : List Char) : Option Attribute :=
  match Text.words (text.takeWhile (· != '\x22')) with
  | type :: name :: rest =>
    if isAttributeWord type && isAttributeWord name then
      let marks := readMarks rest
      some
        { type := String.ofList type
          name := String.ofList name
          isPrimaryKey := marks.contains "PK".toList
          isUnique := marks.contains "UK".toList
          isForeignKey := marks.contains "FK".toList }
    else
      none
  | _ => none

end Crowfoot.Mermaid
