import SqlDialects.Text.Digit

/-!
Reading an integer in a given range. The text is a sign and digits, and is judged from the left:
the first character that is no digit, or the first digit that leaves the range, settles it.
-/

namespace SqlDialects

/-- Why a text is no integer of the range. -/
inductive IntegerFault where
  | empty
  | invalidDigit
  | tooLarge
  | tooSmall
deriving DecidableEq, Repr

/-- What a fault says. -/
def IntegerFault.message : IntegerFault → String
  | .empty => "cannot parse integer from empty string"
  | .invalidDigit => "invalid digit found in string"
  | .tooLarge => "number too large to fit in target type"
  | .tooSmall => "number too small to fit in target type"

/-- Smallest and largest integer of a kind. -/
structure IntegerRange where
  least : Int
  greatest : Int

namespace IntegerRange

/-- Integers of 16 bits. -/
def short : IntegerRange := ⟨-32768, 32767⟩

/-- Integers of 32 bits. -/
def integer : IntegerRange := ⟨-2147483648, 2147483647⟩

/-- Integers of 64 bits. -/
def long : IntegerRange := ⟨-9223372036854775808, 9223372036854775807⟩

end IntegerRange

/-- The number that a digit `0` to `9` stands for. -/
def digitValue (c : Char) : Nat := c.toNat - '0'.toNat

/-- The number that digits stand for, continuing `acc`. -/
def digitsValue (acc : Nat) : List Char → Nat
  | [] => acc
  | c :: rest => digitsValue (acc * 10 + digitValue c) rest

/-- Digits that continue the magnitude `acc`, which may not pass `bound`. -/
def readMagnitude (bound : Nat) (overflow : IntegerFault) (acc : Nat) :
    List Char → Except IntegerFault Nat
  | [] => .ok acc
  | c :: rest =>
    if !Text.isAsciiDigit c then .error .invalidDigit
    else if bound < acc * 10 + digitValue c then .error overflow
    else readMagnitude bound overflow (acc * 10 + digitValue c) rest

/-- A text read as an integer of the range. -/
def readInteger (range : IntegerRange) : List Char → Except IntegerFault Int
  | [] => .error .empty
  | ['+'] | ['-'] => .error .invalidDigit
  | '-' :: rest => (readMagnitude range.least.natAbs .tooSmall 0 rest).map fun n => -(n : Int)
  | '+' :: rest => (readMagnitude range.greatest.natAbs .tooLarge 0 rest).map Int.ofNat
  | cs => (readMagnitude range.greatest.natAbs .tooLarge 0 cs).map Int.ofNat

end SqlDialects
