import SqlDialects.Number.Binary

/-!
The decimal text of a binary number: the fewest digits that read back as the same number, of those
the nearest to it, written out in full without an exponent.
-/

namespace SqlDialects

/-- A decimal number `digits * 10 ^ exponent`. -/
structure DecimalNumber where
  digits : Nat
  exponent : Int
deriving DecidableEq, Repr

namespace Shortest

/-- Count of decimal digits. -/
def digitCount (n : Nat) : Nat := (Nat.toDigits 10 n).length

/-- The exponent of the first decimal digit of the fraction `num / den`. -/
def leadingExponent (num den : Nat) : Int :=
  if den ≤ num then (digitCount (num / den) : Int) - 1
  else
    let shift := digitCount den - digitCount num
    if den ≤ num * Nat.pow 10 shift then -(shift : Int) else -(shift : Int) - 1

/-- A positive number with the reals that round to it: all three over one denominator. The ends
belong to the interval iff the significand is even. -/
structure Interval where
  value : Nat
  low : Nat
  high : Nat
  den : Nat
  closed : Bool

/-- The reals that round to `significand * 2 ^ exponent`. Below a power of two the neighbour is half
as far away as above it. -/
def interval (f : BinaryFormat) (significand : Nat) (exponent : Int) : Interval :=
  let narrow := significand == Nat.pow 2 (f.precision - 1) && f.leastExponent < exponent
  let up := if 0 ≤ exponent then Nat.pow 2 exponent.toNat else 1
  let den := if 0 ≤ exponent then 4 else 4 * Nat.pow 2 (-exponent).toNat
  { value := 4 * significand * up
    low := (4 * significand - if narrow then 1 else 2) * up
    high := (4 * significand + 2) * up
    den := den
    closed := significand % 2 == 0 }

/-- Whether the decimal lies in the interval, told apart by its scaled value over `den`. -/
def Interval.holds (i : Interval) (num den : Nat) : Bool :=
  if i.closed then i.low * den ≤ num * i.den && num * i.den ≤ i.high * den
  else i.low * den < num * i.den && num * i.den < i.high * den

/-- The decimal as a fraction. -/
def fraction (digits : Nat) (exponent : Int) : Nat × Nat :=
  if 0 ≤ exponent then (digits * Nat.pow 10 exponent.toNat, 1)
  else (digits, Nat.pow 10 (-exponent).toNat)

/-- The neighbours of the value on the grid of `10 ^ exponent`, if one of them is in the interval:
the nearer of two, and the upper one when both are as near. -/
def onGrid (i : Interval) (exponent : Int) : Option DecimalNumber :=
  let (unit, unitDen) := fraction 1 exponent
  let below := i.value * unitDen / (i.den * unit)
  let rest := i.value * unitDen % (i.den * unit)
  let holds := fun digits =>
    let (num, den) := fraction digits exponent
    i.holds num den
  match holds below, holds (below + 1) with
  | true, true => some ⟨if 2 * rest < i.den * unit then below else below + 1, exponent⟩
  | true, false => some ⟨below, exponent⟩
  | false, true => some ⟨below + 1, exponent⟩
  | false, false => none

/-- The shortest decimal of a positive number; `digits` more are tried after `count`. -/
def search (i : Interval) (lead : Int) (count : Nat) : Nat → DecimalNumber
  | 0 => ⟨i.value / i.den, 0⟩
  | digits + 1 =>
    match onGrid i (lead - count) with
    | some d => d
    | none => search i lead (count + 1) digits

/-- The shortest decimal that reads back as `significand * 2 ^ exponent`. Seventeen digits always
do in double precision. -/
def decimal (f : BinaryFormat) (significand : Nat) (exponent : Int) : DecimalNumber :=
  if significand = 0 then ⟨0, 0⟩
  else
    let i := interval f significand exponent
    search i (leadingExponent i.value i.den) 0 17

end Shortest

/-- Zeros before digits, up to a width. -/
def padDigits (width n : Nat) : List Char :=
  let digits := Nat.toDigits 10 n
  List.replicate (width - digits.length) '0' ++ digits

/-- A decimal written out, without zeros after its last decimal place. -/
def DecimalNumber.text (d : DecimalNumber) : List Char :=
  if 0 ≤ d.exponent then Nat.toDigits 10 (d.digits * Nat.pow 10 d.exponent.toNat)
  else
    let places := (-d.exponent).toNat
    let whole := Nat.toDigits 10 (d.digits / Nat.pow 10 places)
    let fraction := padDigits places (d.digits % Nat.pow 10 places)
    match (fraction.reverse.dropWhile (· == '0')).reverse with
    | [] => whole
    | kept => whole ++ '.' :: kept

/-- Text of a binary number. -/
def BinaryNumber.text (f : BinaryFormat) : BinaryNumber → String
  | .nan => "NaN"
  | .infinite negative => if negative then "-inf" else "inf"
  | .finite negative significand exponent =>
    let digits := (Shortest.decimal f significand exponent).text
    String.ofList (if negative then '-' :: digits else digits)

end SqlDialects
