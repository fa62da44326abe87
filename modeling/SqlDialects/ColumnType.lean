/-!
Logical column types, which mean the same in every database, and which of them hold the values of
which others.
-/

namespace SqlDialects

/-- Logical type of a column. -/
inductive ColumnType where
  | character
  | boolean
  | short
  | integer
  | long
  | float
  | double
  | decimal
  | date
  | timestamp
  /-- A timestamp stored in UTC and read in local time. -/
  | timestampUtc
  | clob
  | blob
  | string
  /-- The code of an enumeration constant. -/
  | enumConstant
deriving DecidableEq, Repr

/-- Where a value of a type is set in its cell. -/
inductive Alignment where
  | left
  | center
  | right
deriving DecidableEq, Repr

/-- Name in a description. -/
def Alignment.code : Alignment → String
  | .left => "left"
  | .center => "center"
  | .right => "right"

namespace ColumnType

/-- Every type, in order. -/
def all : List ColumnType :=
  [.character, .boolean, .short, .integer, .long, .float, .double, .decimal, .date, .timestamp,
    .timestampUtc, .clob, .blob, .string, .enumConstant]

/-- Name in a description. -/
def code : ColumnType → String
  | .character => "CHARACTER"
  | .boolean => "BOOLEAN"
  | .short => "SHORT"
  | .integer => "INTEGER"
  | .long => "LONG"
  | .float => "FLOAT"
  | .double => "DOUBLE"
  | .decimal => "DECIMAL"
  | .date => "DATE"
  | .timestamp => "TIMESTAMP"
  | .timestampUtc => "TIMESTAMP_UTC"
  | .clob => "CLOB"
  | .blob => "BLOB"
  | .string => "STRING"
  | .enumConstant => "ENUM_CONSTANT"

/-- Name in a message. -/
def name : ColumnType → String
  | .enumConstant => "ENUMCONST"
  | t => t.code

/-- The type of a name in a description. -/
def ofCode? (code : String) : Option ColumnType := all.find? (·.code == code)

/-- Where values are set. -/
def alignment : ColumnType → Alignment
  | .character | .boolean | .date | .timestamp | .timestampUtc => .center
  | .short | .integer | .long | .float | .double | .decimal => .right
  | .clob | .blob | .string | .enumConstant => .left

/-- Other types whose values this one takes. -/
def widensFrom : ColumnType → List ColumnType
  | .integer => [.short]
  | .long => [.integer, .short]
  | .float => [.long, .integer, .short]
  | .double => [.float, .long, .integer, .short]
  | .decimal => [.double, .float, .long, .integer, .short]
  | .timestamp => [.date]
  | .timestampUtc => [.timestamp, .date]
  | .boolean | .enumConstant => [.character]
  | .string =>
    [.character, .boolean, .short, .integer, .long, .float, .double, .decimal, .date, .timestamp,
      .timestampUtc, .enumConstant]
  | .clob =>
    [.string, .character, .boolean, .short, .integer, .long, .float, .double, .decimal, .date,
      .timestamp, .timestampUtc, .enumConstant]
  | .character | .short | .date | .blob => []

/-- Whether a column of type `source` may become one of type `target`. -/
def takes (target source : ColumnType) : Bool :=
  target == source || target.widensFrom.contains source

/-- Large objects. -/
def isLargeObject : ColumnType → Bool
  | .clob | .blob => true
  | _ => false

/-- Numbers. -/
def isNumber : ColumnType → Bool
  | .short | .integer | .long | .float | .double | .decimal => true
  | _ => false

/-- Integers. -/
def isIntegral : ColumnType → Bool
  | .short | .integer | .long => true
  | _ => false

/-- Dates and timestamps. -/
def isTemporal : ColumnType → Bool
  | .date | .timestamp | .timestampUtc => true
  | _ => false

end ColumnType

end SqlDialects
