/-!
# Binary fractions

Floating-point numbers as exact fractions, and rounding of quotients.
-/

namespace Crowfoot.Decimal

/-- A number `± significand · 2 ^ exponent`. -/
structure Binary where
  isNegative : Bool
  significand : Nat
  exponent : Int
  deriving DecidableEq, Repr

/-- What a floating-point number stands for. -/
inductive Magnitude where
  | notANumber
  | infinite (isNegative : Bool)
  | finite (binary : Binary)
  deriving DecidableEq, Repr

/-- Takes a floating-point number apart by its bits. -/
def Magnitude.ofFloat (value : Float) : Magnitude :=
  let bits := value.toBits.toNat
  let isNegative := bits / Nat.pow 2 63 == 1
  let exponent := bits / Nat.pow 2 52 % Nat.pow 2 11
  let fraction := bits % Nat.pow 2 52
  if exponent = 2047 then
    if fraction = 0 then .infinite isNegative else .notANumber
  else if exponent = 0 then
    .finite ⟨isNegative, fraction, -1074⟩
  else
    .finite ⟨isNegative, Nat.pow 2 52 + fraction, (exponent : Int) - 1075⟩

/-- A positive fraction. -/
structure Fraction where
  numerator : Nat
  denominator : Nat
  deriving DecidableEq, Repr

/-- `factor · base ^ exponent` as a fraction. -/
def Fraction.ofPower (factor base : Nat) (exponent : Int) : Fraction :=
  match exponent with
  | .ofNat power => ⟨factor * Nat.pow base power, 1⟩
  | .negSucc power => ⟨factor, Nat.pow base (power + 1)⟩

/-- The quotient rounded to a whole number, a half to the even neighbour. -/
def roundHalfEven (numerator denominator : Nat) : Nat :=
  let quotient := numerator / denominator
  let twice := 2 * (numerator % denominator)
  if twice < denominator then quotient
  else if denominator < twice then quotient + 1
  else if quotient % 2 = 0 then quotient
  else quotient + 1

/-- The decimal digits of a number. -/
def digitsOf (number : Nat) : List Char :=
  Nat.toDigits 10 number

/-- The number that decimal digits write. -/
def numberOf (digits : List Char) : Nat :=
  digits.foldl (fun number digit => 10 * number + (digit.toNat - '0'.toNat)) 0

/-- Puts zeros in front up to a length. -/
def padZeros (length : Nat) (digits : List Char) : List Char :=
  List.replicate (length - digits.length) '0' ++ digits

end Crowfoot.Decimal
