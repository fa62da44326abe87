import SqlDialects.ColumnType

/-!
Kinds of values, and the column type that holds values of a kind as they are.
-/

namespace SqlDialects

/-- Kind of a value. -/
inductive ValueKind where
  | null
  | bool
  | char
  | short
  | int
  | long
  | float
  | double
  | decimal
  | date
  | timestamp
  | text
  | bytes
deriving DecidableEq, Repr

namespace ValueKind

/-- Name in messages. -/
def name : ValueKind → String
  | .null => "NULL"
  | .bool => "BOOL"
  | .char => "CHAR"
  | .short => "SHORT"
  | .int => "INT"
  | .long => "LONG"
  | .float => "FLOAT"
  | .double => "DOUBLE"
  | .decimal => "DECIMAL"
  | .date => "DATE"
  | .timestamp => "TIMESTAMP"
  | .text => "TEXT"
  | .bytes => "BYTES"

/-- Type that holds values of the kind. -/
def holdingType? : ValueKind → Option ColumnType
  | .null => none
  | .bool => some .boolean
  | .char => some .character
  | .short => some .short
  | .int => some .integer
  | .long => some .long
  | .float => some .float
  | .double => some .double
  | .decimal => some .decimal
  | .date => some .date
  | .timestamp => some .timestamp
  | .text => some .string
  | .bytes => some .blob

end ValueKind

end SqlDialects
