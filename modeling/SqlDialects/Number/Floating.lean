import SqlDialects.Number.Integer
import SqlDialects.Number.Shortest
import SqlDialects.Text.Ascii

/-!
Single and double precision numbers: conversions, text, and reading a double.
-/

namespace SqlDialects

/-- A number of single precision, by its bits. -/
structure Single where
  bits : UInt32
deriving DecidableEq, Repr

/-- A number of double precision, by its bits. -/
structure Double where
  bits : UInt64
deriving DecidableEq, Repr

namespace Single

/-- What the bits say. -/
def number (x : Single) : BinaryNumber := BinaryFormat.single.decode x.bits.toNat

/-- The nearest single to an integer. -/
def ofInt (n : Int) : Single := ⟨UInt32.ofNat (BinaryFormat.single.ofInt n)⟩

/-- Shortest text that reads back. -/
def text (x : Single) : String := x.number.text .single

end Single

namespace Double

/-- What the bits say. -/
def number (x : Double) : BinaryNumber := BinaryFormat.double.decode x.bits.toNat

/-- The double of some bits given as a natural. -/
def ofBits (bits : Nat) : Double := ⟨UInt64.ofNat bits⟩

/-- The nearest double to an integer. -/
def ofInt (n : Int) : Double := ofBits (BinaryFormat.double.ofInt n)

/-- Every single is a double. -/
def ofSingle (x : Single) : Double := ofBits (BinaryFormat.double.ofNumber x.number)

/-- Shortest text that reads back. -/
def text (x : Double) : String := x.number.text .double

/-- Neither infinite nor no number. -/
def isFinite (x : Double) : Bool :=
  match x.number with
  | .finite .. => true
  | _ => false

end Double

/-- Why a text is no number. -/
inductive FloatingFault where
  | empty
  | invalid
deriving DecidableEq, Repr

/-- What a fault says. -/
def FloatingFault.message : FloatingFault → String
  | .empty => "cannot parse float from empty string"
  | .invalid => "invalid float literal"

namespace Double

/-- Bits of the double nearest to `digits * 10 ^ exponent`. Beyond four hundred places the answer is
infinity or zero, and no power is formed. -/
def ofDecimal (digits : Nat) (exponent : Int) : Nat :=
  if digits = 0 then 0
  else
    let magnitude := (Shortest.digitCount digits : Int) + exponent
    if 400 < magnitude then BinaryFormat.double.infinityBits
    else if magnitude < -400 then 0
    else
      let (num, den) := Shortest.fraction digits exponent
      BinaryFormat.double.ofFraction num den

/-- An exponent part: nothing, or `e`, a sign and digits. -/
def readExponent : List Char → Option Int
  | [] => some 0
  | c :: rest =>
    if c.toLower ≠ 'e' then none
    else
      let (negative, digits) := match rest with
        | '-' :: ds => (true, ds)
        | '+' :: ds => (false, ds)
        | ds => (false, ds)
      if digits.isEmpty || !digits.all Text.isAsciiDigit then none
      else
        let n := digitsValue 0 digits
        some (if negative then -(n : Int) else n)

/-- Digits with an optional point and an optional exponent, as bits. -/
def readDecimal (cs : List Char) : Option Nat :=
  let whole := cs.takeWhile Text.isAsciiDigit
  let rest := cs.dropWhile Text.isAsciiDigit
  let (places, tail) := match rest with
    | '.' :: more => (more.takeWhile Text.isAsciiDigit, more.dropWhile Text.isAsciiDigit)
    | more => ([], more)
  if whole.isEmpty && places.isEmpty then none
  else
    (readExponent tail).map fun e =>
      ofDecimal (digitsValue 0 (whole ++ places)) (e - places.length)

/-- A number without its sign, as bits. -/
def readUnsigned (cs : List Char) : Option Nat :=
  let word := cs.map Char.toLower
  if word = "inf".toList ∨ word = "infinity".toList then some BinaryFormat.double.infinityBits
  else if word = "nan".toList then some (BinaryFormat.double.ofNumber .nan)
  else readDecimal cs

/-- A text read as a double. -/
def read (s : String) : Except FloatingFault Double :=
  let parts := match s.toList with
    | '-' :: rest => (true, rest)
    | '+' :: rest => (false, rest)
    | cs => (false, cs)
  if s.isEmpty then .error .empty
  else match readUnsigned parts.2 with
    | some bits => .ok (ofBits (BinaryFormat.double.withSign parts.1 bits))
    | none => .error .invalid

end Double

end SqlDialects
