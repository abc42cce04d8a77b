/-!
# Decimal numbers in double precision

A number that is written with a fraction or an exponent is held in double precision: with 53
significant bits, and none below `2 ^ -1074`.  `Decimal.toBinary` rounds to that precision, a half
to the even neighbour.  Whether such a number is an integer is a question about the rounded value.
-/

namespace RomImage

structure Decimal where
  mantissa : Int
  exponent : Int
  deriving DecidableEq, Repr

structure Binary where
  significand : Int
  exponent : Int
  deriving DecidableEq, Repr

/-- The integer next to a quotient; of two that are equally near, the even one. -/
def roundDiv (numerator denominator : Nat) : Nat :=
  let floor := numerator / denominator
  let rest := numerator % denominator
  if 2 * rest < denominator then floor
  else if denominator < 2 * rest then floor + 1
  else floor + floor % 2

namespace Binary

def precision : Nat := 53

def finest : Int := -1074

def bound : Nat := Nat.pow 2 1024

def toInt? (number : Binary) : Option Int :=
  if 0 ≤ number.exponent then some (number.significand * Nat.pow 2 number.exponent.toNat)
  else
    let unit : Int := Nat.pow 2 number.exponent.natAbs
    if number.significand % unit = 0 then some (number.significand / unit) else none

def isFinite (number : Binary) : Bool :=
  number.exponent < 0 || number.significand.natAbs * Nat.pow 2 number.exponent.toNat < bound

end Binary

namespace Decimal

def magnitude (decimal : Decimal) : Nat × Nat :=
  if 0 ≤ decimal.exponent then (decimal.mantissa.natAbs * Nat.pow 10 decimal.exponent.toNat, 1)
  else (decimal.mantissa.natAbs, Nat.pow 10 decimal.exponent.natAbs)

def leadingBit (numerator denominator : Nat) : Int :=
  let gap : Int := (numerator.log2 : Int) - denominator.log2
  let reaches : Bool :=
    if 0 ≤ gap then denominator * Nat.pow 2 gap.toNat ≤ numerator
    else denominator ≤ numerator * Nat.pow 2 gap.natAbs
  if reaches then gap else gap - 1

def roundMagnitude (numerator denominator : Nat) : Binary :=
  let exponent := max Binary.finest (leadingBit numerator denominator - (Binary.precision - 1))
  let significand :=
    if 0 ≤ exponent then roundDiv numerator (denominator * Nat.pow 2 exponent.toNat)
    else roundDiv (numerator * Nat.pow 2 exponent.natAbs) denominator
  ⟨significand, exponent⟩

/-- Powers of ten with a greater exponent are out of range, and below its negative they are zero. -/
def reach : Nat := 400

/--
The number in double precision.  An exponent that takes the number out of range, or down to zero, is
not carried out.
-/
def toBinary (decimal : Decimal) : Binary :=
  let rounded : Binary :=
    if decimal.mantissa = 0 ∨ decimal.exponent + decimal.mantissa.natAbs.log2 < -reach then
      ⟨0, Binary.finest⟩
    else if (reach : Int) < decimal.exponent then ⟨1, 1024⟩
    else roundMagnitude decimal.magnitude.1 decimal.magnitude.2
  ⟨decimal.mantissa.sign * rounded.significand, rounded.exponent⟩

end Decimal

end RomImage
