/-!
# JSON values

Numbers are kept as they are written, and a string may hold escapes that name no character; whether
that matters is up to whoever uses the value.
-/

namespace Crowfoot.Json

/-- A number as it is written. -/
structure Numeral where
  isNegative : Bool := false
  /-- The digits before the point. -/
  whole : List Char
  /-- The digits after the point, if there is one. -/
  fraction : Option (List Char) := none
  /-- The sign and the digits of the exponent, if there is one. -/
  exponent : Option (Bool × List Char) := none
  deriving DecidableEq, Repr

/-- What a string says; nothing if an escape in it is half of a surrogate pair. -/
abbrev Content := Option String

/-- A JSON value. -/
inductive Value where
  | null
  | bool (value : Bool)
  | number (numeral : Numeral)
  | string (content : Content)
  | array (items : List Value)
  | object (members : List (Content × Value))
  deriving Repr

/-- A string value. -/
def Value.text (content : String) : Value :=
  .string (some content)

/-- An object with the given keys. -/
def Value.record (members : List (String × Value)) : Value :=
  .object (members.map fun (key, value) => (some key, value))

/-- A whole number as a value. -/
def Value.ofNat (number : Nat) : Value :=
  .number { whole := Nat.toDigits 10 number }

end Crowfoot.Json
