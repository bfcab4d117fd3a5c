import Crowfoot.Decimal.Binary

/-!
# Fixed places

A floating-point number with a fixed number of decimal places, rounded from its exact value.
-/

namespace Crowfoot.Decimal

/-- The number of units of the last place nearest to a binary fraction, a half to the even one. -/
def unitsOf (places : Nat) (binary : Binary) : Nat :=
  let scaled := Fraction.ofPower (binary.significand * Nat.pow 10 places) 2 binary.exponent
  roundHalfEven scaled.numerator scaled.denominator

/-- A number of units of the last place, with a point in front of the places. -/
def unitsText (places units : Nat) : List Char :=
  let unit := Nat.pow 10 places
  digitsOf (units / unit) ++ '.' :: padZeros places (digitsOf (units % unit))

/-- The text of a number with a fixed number of places. A number that rounds to zero has no sign. -/
def fixedText (places : Nat) (value : Float) : String :=
  match Magnitude.ofFloat value with
  | .notANumber => "NaN"
  | .infinite isNegative => if isNegative then "-inf" else "inf"
  | .finite binary =>
    let units := unitsOf places binary
    let sign := if binary.isNegative && units != 0 then ['-'] else []
    String.ofList (sign ++ unitsText places units)

end Crowfoot.Decimal
