import SqlDialects.Error
import SqlDialects.Text.Bytes
import SqlDialects.Text.Quoted

/-!
Typed SQL values, with their plain text and their text inside a statement.
-/

namespace SqlDialects

/-- A value that is bound to a parameter or read from a result. -/
inductive Value where
  | null
  | bool (b : Bool)
  | char (c : Char)
  | short (n : Int16)
  | int (n : Int32)
  | long (n : Int64)
  | float (x : Single)
  | double (x : Double)
  /-- An exact number by its text. -/
  | decimal (text : String)
  | date (d : Date)
  | timestamp (t : Timestamp)
  | text (s : String)
  | bytes (b : List UInt8)
deriving DecidableEq

namespace Value

/-- Kind of a value. -/
def kind : Value → ValueKind
  | .null => .null
  | .bool _ => .bool
  | .char _ => .char
  | .short _ => .short
  | .int _ => .int
  | .long _ => .long
  | .float _ => .float
  | .double _ => .double
  | .decimal _ => .decimal
  | .date _ => .date
  | .timestamp _ => .timestamp
  | .text _ => .text
  | .bytes _ => .bytes

/-- SQL NULL. -/
def isNull : Value → Bool
  | .null => true
  | _ => false

/-- Column type that holds the value as it is. -/
def holdingType? (v : Value) : Option ColumnType := v.kind.holdingType?

/-- Text without quotes. -/
def plain : Value → String
  | .null => ""
  | .bool b => if b then "true" else "false"
  | .char c => String.ofList [c]
  | .short n => toString n.toInt
  | .int n => toString n.toInt
  | .long n => toString n.toInt
  | .float x => x.text
  | .double x => x.text
  | .decimal s | .text s => s
  | .date d => d.text
  | .timestamp t => t.text
  | .bytes b => String.ofList (Text.hex b)

/-- Text of the value as part of a statement. -/
def inline : Value → String
  | .null => "NULL"
  | .bool b => if b then "TRUE" else "FALSE"
  | .bytes b => "X'" ++ String.ofList (Text.hex b) ++ "'"
  | v@(.char _) | v@(.date _) | v@(.timestamp _) | v@(.text _) => Text.literal v.plain
  | v@(.short _) | v@(.int _) | v@(.long _) | v@(.float _) | v@(.double _) | v@(.decimal _) =>
    v.plain

/-- Text that stands for a parameter. -/
def placeholder : String := "?"

end Value

end SqlDialects
