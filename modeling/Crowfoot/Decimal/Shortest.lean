import Crowfoot.Decimal.Binary

/-!
# Shortest decimals

The decimal with the fewest digits that reads back as a given floating-point number, and of those
the nearest to it.
-/

namespace Crowfoot.Decimal

/-- A decimal `digits · 10 ^ exponent`. -/
structure Shortest where
  digits : List Char
  exponent : Int
  deriving DecidableEq, Repr

/-- The numbers that round to a binary fraction: its value and the two ends around it, all over one
denominator. -/
structure Interval where
  low : Nat
  value : Nat
  high : Nat
  denominator : Nat
  /-- The ends belong to the interval. -/
  isClosed : Bool
  deriving DecidableEq, Repr

/-- The interval of a positive binary fraction. Below a power of two the numbers lie closer. -/
def Interval.ofBinary (binary : Binary) : Interval :=
  let isPower := binary.significand = Nat.pow 2 52 ∧ binary.exponent ≠ -1074
  let scale (factor : Nat) : Fraction := Fraction.ofPower factor 2 (binary.exponent - 2)
  { low := (scale (4 * binary.significand - if isPower then 1 else 2)).numerator
    value := (scale (4 * binary.significand)).numerator
    high := (scale (4 * binary.significand + 2)).numerator
    denominator := (scale 1).denominator
    isClosed := binary.significand % 2 = 0 }

/-- A fraction given by numerator and denominator lies in the interval. -/
def Interval.has (interval : Interval) (fraction : Fraction) : Bool :=
  let point := fraction.numerator * interval.denominator
  let low := interval.low * fraction.denominator
  let high := interval.high * fraction.denominator
  if interval.isClosed then low ≤ point && point ≤ high else low < point && point < high

/-- The power of ten of the first digit of a positive fraction. -/
def leadingPower (numerator denominator : Nat) : Int :=
  let guess : Int := (digitsOf numerator).length - (digitsOf denominator).length
  let power := Fraction.ofPower 1 10 guess
  if numerator * power.denominator < power.numerator * denominator then guess - 1 else guess

/-- The decimal of the interval on the grid of a power of ten that is nearest to the value, if there
is one. Of two that are as near, the even one counts. -/
def Interval.nearest? (interval : Interval) (power : Int) : Option Nat :=
  let unit := Fraction.ofPower 1 10 power
  let scaled := interval.value * unit.denominator
  let step := interval.denominator * unit.numerator
  let below := scaled / step
  let inside (count : Nat) : Bool :=
    interval.has ⟨count * unit.numerator, unit.denominator⟩
  let nearest := roundHalfEven scaled step
  if inside nearest then some nearest
  else if inside below then some below
  else if inside (below + 1) then some (below + 1)
  else none

/-- The first decimal found on grids of one more digit each. -/
def Interval.shortestFrom (interval : Interval) (power : Int) : Nat → Shortest
  | 0 => ⟨digitsOf ((interval.nearest? power).getD 0), power⟩
  | more + 1 =>
    match interval.nearest? power with
    | some count => ⟨digitsOf count, power⟩
    | none => interval.shortestFrom (power - 1) more

/-- Moves zeros at the end of the digits into the exponent. -/
def Shortest.normalize (shortest : Shortest) : Shortest :=
  let kept := (shortest.digits.reverse.dropWhile (· == '0')).reverse
  ⟨kept, shortest.exponent + (shortest.digits.length - kept.length : Nat)⟩

/-- The shortest decimal of a positive binary fraction; seventeen digits always suffice. -/
def Shortest.ofBinary (binary : Binary) : Shortest :=
  let interval := Interval.ofBinary binary
  (interval.shortestFrom (leadingPower interval.value interval.denominator) 17).normalize

end Crowfoot.Decimal
