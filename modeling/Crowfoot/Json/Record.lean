import Crowfoot.Json.Numeral

/-!
# Records

A record is an object with known keys; it may also be an array of its fields in order. Keys that are
not known do not count, but a known key may come only once.
-/

namespace Crowfoot.Json

/-- The fields of a record that are present, in the order of its keys. -/
abbrev Fields := List (Option Value)

/-- The values under a key. -/
def valuesOf (members : List (Content × Value)) (key : String) : List Value :=
  (members.filter fun member => member.1 == some key).map Prod.snd

/-- The fields of a record with the given keys. -/
def Value.fields? (keys : List String) (value : Value) : Option Fields :=
  match value with
  | .object members =>
    if (members.all fun member => member.1.isSome) &&
        keys.all fun key => (valuesOf members key).length ≤ 1 then
      some (keys.map fun key => (valuesOf members key).head?)
    else
      none
  | .array items =>
    if items.length ≤ keys.length then
      some (items.map some ++ List.replicate (keys.length - items.length) none)
    else
      none
  | _ => none

/-- A field that has to be there. -/
def required? {α : Type} (decode? : Value → Option α) (field : Option Value) : Option α :=
  field.bind decode?

/-- A field with a value that it has when it is left out. -/
def defaulted? {α : Type} (default : α) (decode? : Value → Option α) (field : Option Value) :
    Option α :=
  match field with
  | none => some default
  | some value => decode? value

/-- A field that may be left out or null. -/
def optional? {α : Type} (decode? : Value → Option α) (field : Option Value) : Option (Option α) :=
  match field with
  | none => some none
  | some .null => some none
  | some value => (decode? value).map some

/-- A string whose escapes all name characters. -/
def Value.string? : Value → Option String
  | .string content => content
  | _ => none

/-- A truth value. -/
def Value.bool? : Value → Option Bool
  | .bool value => some value
  | _ => none

/-- A number that is not too great. -/
def Value.float? : Value → Option Float
  | .number numeral => numeral.toFloat?
  | _ => none

/-- An array whose items can all be decoded. -/
def Value.list? {α : Type} (decode? : Value → Option α) : Value → Option (List α)
  | .array items => items.mapM decode?
  | _ => none

/-- The name of a case, as a string or as the only key of an object that says nothing more. -/
def Value.case? : Value → Option String
  | .string content => content
  | .object [(name, .null)] => name
  | _ => none

end Crowfoot.Json
