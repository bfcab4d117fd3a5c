import Crowfoot.Decimal.Shortest
import Crowfoot.Json.Value

/-!
# Numerals and floating-point numbers

A numeral is read by its leading digits, as many as fit into 64 bits, scaled by one multiplication
or division with a power of ten. A number is written with the fewest digits that tell it apart.
-/

namespace Crowfoot.Json

/-- The first whole number that does not fit into 64 bits. -/
def wordLimit : Nat := Nat.pow 2 64

/-- Digits taken as a number with a power of ten. -/
structure Scaled where
  significand : Nat
  exponent : Int
  deriving DecidableEq, Repr

/-- Takes digits before the point. Once a digit does not fit, it and all later ones only raise the
exponent. -/
def Scaled.takeWhole (scaled : Scaled) : List Char → Scaled
  | [] => scaled
  | digit :: rest =>
    let grown := 10 * scaled.significand + (digit.toNat - '0'.toNat)
    if grown < wordLimit then
      Scaled.takeWhole { scaled with significand := grown } rest
    else
      { scaled with exponent := scaled.exponent + (rest.length + 1 : Nat) }

/-- Takes digits after the point, up to the first that does not fit. -/
def Scaled.takeFraction (scaled : Scaled) : List Char → Scaled
  | [] => scaled
  | digit :: rest =>
    let grown := 10 * scaled.significand + (digit.toNat - '0'.toNat)
    if grown < wordLimit then
      Scaled.takeFraction ⟨grown, scaled.exponent - 1⟩ rest
    else
      scaled

/-- The significant digits and the power of ten of a numeral. -/
def Numeral.scaled (numeral : Numeral) : Scaled :=
  let digits := (Scaled.takeWhole ⟨0, 0⟩ numeral.whole).takeFraction (numeral.fraction.getD [])
  match numeral.exponent with
  | none => digits
  | some (isNegative, exponent) =>
    let power : Int := Decimal.numberOf exponent
    { digits with exponent := digits.exponent + if isNegative then -power else power }

/-- The greatest power of ten that a floating-point number can be. -/
def maxPower : Nat := 308

/-- A power of ten. -/
def powerOfTen (power : Nat) : Float :=
  Float.ofScientific 1 false power

/-- Divides by a power of ten; a greater power than a number can be goes in several steps, of which
few are enough to reach zero. -/
def divideByPower (value : Float) (power : Nat) : Nat → Float
  | 0 => 0.0
  | steps + 1 =>
    if power ≤ maxPower then
      value / powerOfTen power
    else
      divideByPower (value / powerOfTen maxPower) (power - maxPower) steps

/-- The value of a significand with a power of ten, unless it is too great. -/
def Scaled.toFloat? (scaled : Scaled) : Option Float :=
  if scaled.significand = 0 then
    some 0.0
  else
    let value := Float.ofNat scaled.significand
    match scaled.exponent with
    | .negSucc power => some (divideByPower value (power + 1) 4)
    | .ofNat power =>
      if power ≤ maxPower then
        let product := value * powerOfTen power
        if product.isInf then none else some product
      else
        none

/-- The value of a numeral, unless it is too great. -/
def Numeral.toFloat? (numeral : Numeral) : Option Float :=
  numeral.scaled.toFloat?.map fun value => if numeral.isNegative then -value else value

/-- The numeral of a decimal with the given sign. A decimal below `10 ^ 16` and not below `10 ^ -5`
is written without an exponent, and always with a point then. -/
def Numeral.ofShortest (isNegative : Bool) (shortest : Decimal.Shortest) : Numeral :=
  let digits := shortest.digits
  let point : Int := digits.length + shortest.exponent
  if 0 < point ∧ point ≤ 16 then
    let whole := point.toNat
    let fraction := digits.drop whole
    { isNegative
      whole := digits.take whole ++ List.replicate (whole - digits.length) '0'
      fraction := some (if fraction.isEmpty then ['0'] else fraction) }
  else if -5 < point ∧ point ≤ 0 then
    { isNegative
      whole := ['0']
      fraction := some (List.replicate (-point).toNat '0' ++ digits) }
  else
    { isNegative
      whole := digits.take 1
      fraction := if digits.length = 1 then none else some (digits.drop 1)
      exponent := some (decide (point - 1 < 0), Decimal.digitsOf (point - 1).natAbs) }

/-- The numeral of a floating-point number, if it is finite. -/
def Numeral.ofFloat? (value : Float) : Option Numeral :=
  match Decimal.Magnitude.ofFloat value with
  | .finite binary =>
    if binary.significand = 0 then
      some { isNegative := binary.isNegative, whole := ['0'], fraction := some ['0'] }
    else
      some (.ofShortest binary.isNegative (.ofBinary binary))
  | _ => none

/-- A floating-point number as a value; JSON has no word for one that is not finite. -/
def Value.ofFloat (value : Float) : Value :=
  match Numeral.ofFloat? value with
  | some numeral => .number numeral
  | none => .null

end Crowfoot.Json
