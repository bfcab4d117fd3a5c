import Crowfoot.Text.CaseContext
import Crowfoot.Text.CaseTable

/-!
# Upper and lower case

Full case conversion: one character may become several, and a capital sigma turns into its final
form at the end of a word.
-/

namespace Crowfoot.Text

/-- The image of a character under a table of runs and expansions. -/
def convertCase (runs : List CaseRun) (expansions : List (Nat × List Nat)) (c : Char) :
    List Char :=
  match expansions.lookup c.toNat with
  | some codePoints => codePoints.map Char.ofNat
  | none =>
    match runs.find? (·.has c.toNat) with
    | some run => [run.counterpart c.toNat]
    | none => [c]

/-- The upper case of one character. -/
def upperChar (c : Char) : List Char :=
  if c.toNat < 128 then [c.toUpper] else convertCase upperRuns upperExpansions c

/-- The lower case of one character outside any word. -/
def lowerChar (c : Char) : List Char :=
  if c.toNat < 128 then [c.toLower] else convertCase lowerRuns lowerExpansions c

/-- The upper case of a text. -/
def upper (text : List Char) : List Char :=
  text.flatMap upperChar

/-- The first character that casing does not look through is cased. -/
def meetsCased (text : List Char) : Bool :=
  (text.dropWhile isCaseIgnorable).head?.any isCased

/-- A sigma between the two texts ends a word; the first text is read backwards. -/
def endsWord (before after : List Char) : Bool :=
  meetsCased before && !meetsCased after

/-- The lower case of a text, the characters before it given backwards. -/
def lowerAfter (before : List Char) : List Char → List Char
  | [] => []
  | c :: rest =>
    (if c = 'Σ' then [if endsWord before rest then 'ς' else 'σ'] else lowerChar c) ++
      lowerAfter (c :: before) rest

/-- The lower case of a text. -/
def lower (text : List Char) : List Char :=
  lowerAfter [] text

/-- The upper case of a string. -/
def upperCase (text : String) : String :=
  String.ofList (upper text.toList)

/-- The lower case of a string. -/
def lowerCase (text : String) : String :=
  String.ofList (lower text.toList)

@[simp] theorem upper_nil : upper [] = [] := rfl

@[simp] theorem upper_cons (c : Char) (rest : List Char) :
    upper (c :: rest) = upperChar c ++ upper rest := rfl

theorem upper_append (left right : List Char) :
    upper (left ++ right) = upper left ++ upper right := by
  simp [upper]

theorem upperChar_ascii {c : Char} (hascii : c.toNat < 128) : upperChar c = [c.toUpper] := by
  simp [upperChar, hascii]

end Crowfoot.Text
