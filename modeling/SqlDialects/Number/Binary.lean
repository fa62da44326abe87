/-!
Binary floating point by its bits. A finite number is `significand * 2 ^ exponent`; all arithmetic
on it is exact arithmetic on naturals and integers.
-/

namespace SqlDialects

/-- Layout of a binary number: a sign, `exponentBits`, and `precision - 1` bits of fraction. -/
structure BinaryFormat where
  precision : Nat
  exponentBits : Nat

namespace BinaryFormat

/-- Single precision. -/
def single : BinaryFormat := ⟨24, 8⟩

/-- Double precision. -/
def double : BinaryFormat := ⟨53, 11⟩

/-- Exponent of the smallest numbers. -/
def leastExponent (f : BinaryFormat) : Int :=
  2 - (Nat.pow 2 (f.exponentBits - 1) : Int) - (f.precision - 1 : Nat)

/-- Bits of the positive infinity. -/
def infinityBits (f : BinaryFormat) : Nat :=
  (Nat.pow 2 f.exponentBits - 1) * Nat.pow 2 (f.precision - 1)

/-- Weight of the sign bit. -/
def signBit (f : BinaryFormat) : Nat :=
  Nat.pow 2 (f.exponentBits + f.precision - 1)

end BinaryFormat

/-- What the bits of a binary number say. -/
inductive BinaryNumber where
  | nan
  | infinite (negative : Bool)
  | finite (negative : Bool) (significand : Nat) (exponent : Int)
deriving DecidableEq, Repr

namespace BinaryFormat

/-- Reads bits. -/
def decode (f : BinaryFormat) (bits : Nat) : BinaryNumber :=
  let negative := bits / f.signBit % 2 == 1
  let biased := bits / Nat.pow 2 (f.precision - 1) % Nat.pow 2 f.exponentBits
  let fraction := bits % Nat.pow 2 (f.precision - 1)
  if biased = Nat.pow 2 f.exponentBits - 1 then
    if fraction = 0 then .infinite negative else .nan
  else if biased = 0 then .finite negative fraction f.leastExponent
  else .finite negative (fraction + Nat.pow 2 (f.precision - 1)) (f.leastExponent + biased - 1)

/-- The quotient rounded to the nearest natural, a half to the even one. -/
def divNearest (num den : Nat) : Nat :=
  let quotient := num / den
  let rest := num % den
  if den < 2 * rest || (2 * rest == den && quotient % 2 == 1) then quotient + 1 else quotient

/-- `num / den / 2 ^ exponent` as a fraction of naturals. -/
def scaled (num den : Nat) (exponent : Int) : Nat × Nat :=
  if 0 ≤ exponent then (num, den * Nat.pow 2 exponent.toNat)
  else (num * Nat.pow 2 (-exponent).toNat, den)

/-- Exponent at which the fraction has a significand of full precision, or the least exponent. -/
def exponentFor (f : BinaryFormat) (num den : Nat) : Int :=
  let guess : Int := (num.log2 : Int) - den.log2 - (f.precision - 1 : Nat)
  let (n, d) := scaled num den guess
  let exact := if n / d < Nat.pow 2 (f.precision - 1) then guess - 1 else guess
  max exact f.leastExponent

/-- Bits of the positive number nearest to a fraction, a half going to the even significand. A
significand that rounds up to the next power of two carries into the exponent by itself. -/
def ofFraction (f : BinaryFormat) (num den : Nat) : Nat :=
  if num = 0 then 0
  else
    let exponent := f.exponentFor num den
    let (n, d) := scaled num den exponent
    let bits := (exponent - f.leastExponent).toNat * Nat.pow 2 (f.precision - 1) + divNearest n d
    min bits f.infinityBits

/-- Bits of a number with a sign. -/
def withSign (f : BinaryFormat) (negative : Bool) (bits : Nat) : Nat :=
  if negative then bits + f.signBit else bits

/-- Bits of the number nearest to an integer. -/
def ofInt (f : BinaryFormat) (n : Int) : Nat :=
  f.withSign (n < 0) (f.ofFraction n.natAbs 1)

/-- Bits of the number of this format nearest to one of any format. -/
def ofNumber (f : BinaryFormat) : BinaryNumber → Nat
  | .nan => f.infinityBits + Nat.pow 2 (f.precision - 2)
  | .infinite negative => f.withSign negative f.infinityBits
  | .finite negative significand exponent =>
    f.withSign negative <|
      if 0 ≤ exponent then f.ofFraction (significand * Nat.pow 2 exponent.toNat) 1
      else f.ofFraction significand (Nat.pow 2 (-exponent).toNat)

end BinaryFormat

end SqlDialects
