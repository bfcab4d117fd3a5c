import Crowfoot.Json.Text
import Crowfoot.Json.Value

/-!
# Writing JSON

The compact form has no blanks; the indented form puts every item and member on a line of its own.
-/

namespace Crowfoot.Json

/-- The text of a numeral. -/
def Numeral.text (numeral : Numeral) : List Char :=
  (if numeral.isNegative then ['-'] else []) ++ numeral.whole ++
    (numeral.fraction.map ('.' :: ·)).getD [] ++
    match numeral.exponent with
    | none => []
    | some (isNegative, digits) => 'e' :: (if isNegative then '-' :: digits else digits)

/-- A string in quotes. -/
def contentText (content : Content) : List Char :=
  quotedText ((content.map String.toList).getD [])

/-- The text of a value that has no parts. -/
def Value.scalarText : Value → List Char
  | .null => "null".toList
  | .bool true => "true".toList
  | .bool false => "false".toList
  | .number numeral => numeral.text
  | .string content => contentText content
  | .array _ => "[]".toList
  | .object _ => "\x7b\x7d".toList

mutual

/-- The compact text of a value. -/
def compactText : Value → List Char
  | .array items => '[' :: compactItems items ++ [']']
  | .object members => '\x7b' :: compactMembers members ++ ['\x7d']
  | scalar => scalar.scalarText

/-- The compact texts of items with commas between them. -/
def compactItems : List Value → List Char
  | [] => []
  | [item] => compactText item
  | item :: rest => compactText item ++ ',' :: compactItems rest

/-- The compact texts of members with commas between them. -/
def compactMembers : List (Content × Value) → List Char
  | [] => []
  | [(key, value)] => contentText key ++ ':' :: compactText value
  | (key, value) :: rest =>
    contentText key ++ ':' :: compactText value ++ ',' :: compactMembers rest

end

/-- A line end with the indentation of a depth. -/
def lineBreak (depth : Nat) : List Char :=
  '\n' :: List.replicate (2 * depth) ' '

mutual

/-- The indented text of a value at a depth. -/
def indentedText (depth : Nat) : Value → List Char
  | .array [] => Value.scalarText (.array [])
  | .array items => '[' :: indentedItems (depth + 1) items ++ lineBreak depth ++ [']']
  | .object [] => Value.scalarText (.object [])
  | .object members => '\x7b' :: indentedMembers (depth + 1) members ++ lineBreak depth ++ ['\x7d']
  | scalar => scalar.scalarText

/-- The indented texts of items, each on a line of its own. -/
def indentedItems (depth : Nat) : List Value → List Char
  | [] => []
  | [item] => lineBreak depth ++ indentedText depth item
  | item :: rest => lineBreak depth ++ indentedText depth item ++ ',' :: indentedItems depth rest

/-- The indented texts of members, each on a line of its own. -/
def indentedMembers (depth : Nat) : List (Content × Value) → List Char
  | [] => []
  | [(key, value)] =>
    lineBreak depth ++ contentText key ++ ':' :: ' ' :: indentedText depth value
  | (key, value) :: rest =>
    lineBreak depth ++ contentText key ++ ':' :: ' ' :: indentedText depth value ++
      ',' :: indentedMembers depth rest

end

/-- The compact text of a value. -/
def Value.compact (value : Value) : String :=
  String.ofList (compactText value)

/-- The text of a value with two spaces of indentation for every depth. -/
def Value.indented (value : Value) : String :=
  String.ofList (indentedText 0 value)

end Crowfoot.Json
