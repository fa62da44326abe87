import SqlDialects.ColumnType

/-!
Type codes that databases report for existing columns, and the logical types they stand for.
-/

namespace SqlDialects

/-- Type code of an existing column. -/
inductive TypeCode where
  | char
  | varchar
  | longVarchar
  | clob
  | boolean
  | bit
  | tinyInt
  | smallInt
  | integer
  | bigInt
  | real
  | float
  | double
  | decimal
  | numeric
  | date
  | timestamp
  | binary
  | varbinary
  | longVarbinary
  | blob
  | other
deriving DecidableEq, Repr

namespace TypeCode

/-- Every code, in order. -/
def all : List TypeCode :=
  [.char, .varchar, .longVarchar, .clob, .boolean, .bit, .tinyInt, .smallInt, .integer, .bigInt,
    .real, .float, .double, .decimal, .numeric, .date, .timestamp, .binary, .varbinary,
    .longVarbinary, .blob, .other]

/-- Name in a description. -/
def name : TypeCode → String
  | .char => "CHAR"
  | .varchar => "VARCHAR"
  | .longVarchar => "LONG_VARCHAR"
  | .clob => "CLOB"
  | .boolean => "BOOLEAN"
  | .bit => "BIT"
  | .tinyInt => "TINY_INT"
  | .smallInt => "SMALL_INT"
  | .integer => "INTEGER"
  | .bigInt => "BIG_INT"
  | .real => "REAL"
  | .float => "FLOAT"
  | .double => "DOUBLE"
  | .decimal => "DECIMAL"
  | .numeric => "NUMERIC"
  | .date => "DATE"
  | .timestamp => "TIMESTAMP"
  | .binary => "BINARY"
  | .varbinary => "VARBINARY"
  | .longVarbinary => "LONG_VARBINARY"
  | .blob => "BLOB"
  | .other => "OTHER"

/-- The code of a name in a description. -/
def ofName? (name : String) : Option TypeCode := all.find? (·.name == name)

/-- One code for all codes that drivers report in each other's place. -/
def representative : TypeCode → TypeCode
  | .longVarchar | .clob => .clob
  | .binary | .varbinary | .longVarbinary | .blob => .blob
  | .bit | .boolean => .boolean
  | .numeric | .decimal => .decimal
  | .float | .double => .double
  | t => t

/-- Whether two codes denote the same storage. -/
def sharesStorageWith (a b : TypeCode) : Bool := a.representative == b.representative

/-- Logical type of an exact number: an integral one where its digits fit. -/
def exactNumber (size scale : Nat) : ColumnType :=
  if 0 < scale || size == 0 || 19 < size then .decimal
  else if size ≤ 5 then .short
  else if size ≤ 10 then .integer
  else .long

/-- Logical type of an existing column with its reported size and decimal digits. -/
def columnType? (size scale : Nat) : TypeCode → Option ColumnType
  | .char => some (if size ≤ 1 then .character else .string)
  | .varchar => some .string
  | .longVarchar | .clob => some .clob
  | .boolean | .bit => some .boolean
  | .tinyInt | .smallInt => some .short
  | .integer => some .integer
  | .bigInt => some .long
  | .real => some .float
  | .float | .double => some .double
  | .decimal | .numeric => some (exactNumber size scale)
  | .date => some .date
  | .timestamp => some .timestamp
  | .binary | .varbinary | .longVarbinary | .blob => some .blob
  | .other => none

end TypeCode

end SqlDialects
