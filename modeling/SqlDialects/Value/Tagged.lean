import SqlDialects.Json.Decoding
import SqlDialects.Text.Ascii
import SqlDialects.Value.Basic

/-!
Values in JSON: an object with the kind of the value as `t` and its content as `v`. Nothing is lost:
floats go by their bits, long integers and exact numbers as texts, and bytes in hexadecimal.
-/

namespace SqlDialects.Value

/-- Bytes in hexadecimal, in small letters. -/
def hexText (bytes : List UInt8) : String := Text.asciiLower (String.ofList (Text.hex bytes))

/-- The lowest bytes of a number, the most significant first. -/
def bigEndian (count n : Nat) : List UInt8 :=
  (List.range count).map fun i => UInt8.ofNat (n / Nat.pow 256 (count - 1 - i))

/-- A float by its bits; there is one NaN. -/
def floatJson (count bits : Nat) : BinaryNumber → Json
  | .nan => .text "nan"
  | _ => .text (hexText (bigEndian count bits))

/-- Year, month and day. -/
def dateNumbers (d : Date) : List Json := [.int d.year, .nat d.month, .nat d.day]

/-- Hour, minute, second and nanoseconds. -/
def timeNumbers (t : TimeOfDay) : List Json :=
  [.nat (t.second / 3600), .nat (t.second / 60 % 60), .nat (t.second % 60), .nat t.nanos]

/-- The content of a value that is no NULL. -/
def content : Value → Json
  | .null => .null
  | .bool b => .bool b
  | .char c => .text (String.ofList [c])
  | .short n => .int n.toInt
  | .int n => .int n.toInt
  | .long n => .text (toString n.toInt)
  | .float x => floatJson 4 x.bits.toNat x.number
  | .double x => floatJson 8 x.bits.toNat x.number
  | .decimal s | .text s => .text s
  | .date d => .array (dateNumbers d)
  | .timestamp t => .array (dateNumbers t.date ++ timeNumbers t.time)
  | .bytes b => .text (hexText b)

instance : ToJson Value where
  toJson
    | .null => .record [("t", .text "NULL")]
    | v => .record [("t", .text v.kind.name), ("v", v.content)]

/-- One character. -/
def charOfJson? (j : Json) : Option Char := do
  match (← j.text?).toList with
  | [c] => some c
  | _ => none

/-- Bytes in hexadecimal. -/
def bytesOfJson? (j : Json) : Option (List UInt8) := do Text.bytesOfHex? (← j.text?).toList

/-- Bits in hexadecimal, or those of the one NaN. -/
def bitsOfJson? (nan : Nat) (j : Json) : Option Nat := do
  let s ← j.text?
  if s = "nan" then some nan else Text.hexNumber? s.toList

/-- An integer of a range. -/
def integerOfJson? (range : IntegerRange) (j : Json) : Option Int :=
  j.intIn? range.least range.greatest

/-- An integer of 64 bits in a text. -/
def longOfJson? (j : Json) : Option Int := do (readInteger .long (← j.text?).toList).toOption

/-- A day. -/
def dateOfJson? : List Json → Option Date
  | [year, month, day] => do
    Date.ofNumbers? (← year.int?) (← month.nat?) (← day.nat?)
  | _ => none

/-- A time of day. Only the last second of a minute may be a leap second. -/
def timeOfJson? : List Json → Option TimeOfDay
  | [hour, minute, second, nanos] => do
    let second ← second.nat?
    let nanos ← nanos.nat?
    if second ≠ 59 ∧ nanosPerSecond ≤ nanos then none
    else TimeOfDay.ofNumbers? (← hour.nat?) (← minute.nat?) second nanos
  | _ => none

/-- The value of a kind with a content. -/
def ofContent? (kind : String) (v : Json) : Option Value :=
  match kind with
  | "NULL" => some .null
  | "BOOL" => .bool <$> v.bool?
  | "CHAR" => .char <$> charOfJson? v
  | "SHORT" => (.short <| Int16.ofInt ·) <$> integerOfJson? .short v
  | "INT" => (.int <| Int32.ofInt ·) <$> integerOfJson? .integer v
  | "LONG" => (.long <| Int64.ofInt ·) <$> longOfJson? v
  | "FLOAT" => (.float ⟨UInt32.ofNat ·⟩) <$> bitsOfJson? 0x7fc00000 v
  | "DOUBLE" => (.double ⟨UInt64.ofNat ·⟩) <$> bitsOfJson? 0x7ff8000000000000 v
  | "DECIMAL" => .decimal <$> v.text?
  | "TEXT" => .text <$> v.text?
  | "BYTES" => .bytes <$> bytesOfJson? v
  | "DATE" => do return .date (← dateOfJson? (← v.list? some))
  | "TIMESTAMP" => do
    let numbers ← v.list? some
    return .timestamp ⟨← dateOfJson? (numbers.take 3), ← timeOfJson? (numbers.drop 3)⟩
  | _ => none

/-- A value from JSON. -/
def ofJson? (j : Json) : Option Value := do
  let f ← j.fields? ["t", "v"]
  ofContent? (← f.required "t" Json.text?) (← f.orElse "v" .null some)

end SqlDialects.Value
