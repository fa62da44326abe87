import SqlDialects.TypeCode
import SqlDialects.Value.Coercion

/-!
How a dialect declares columns of a type, and what its catalog then reports of them.
-/

namespace SqlDialects

/-- How booleans are stored. -/
inductive BooleanStorage where
  /-- `BOOLEAN` with `TRUE` and `FALSE`. -/
  | native
  /-- `CHAR(1)` with `'Y'` and `'N'`. -/
  | yesNo
  /-- `BIT` with `1` and `0`. -/
  | bit
deriving DecidableEq, Repr

/-- How a date or timestamp is written. -/
inductive CalendarLiteral where
  /-- `'2020-01-31'` -/
  | quoted
  /-- `TO_DATE('2020-01-31', 'YYYY-MM-DD')` -/
  | function
deriving DecidableEq, Repr

/-- How large objects travel. -/
inductive LargeObjectBinding where
  /-- As any other value. -/
  | plain
  /-- As a stream. -/
  | stream
  /-- As a stream, and NULL in place of nothing. -/
  | streamEmptyAsNull
deriving DecidableEq, Repr

/-- Whether a stream is used. -/
def LargeObjectBinding.isStream : LargeObjectBinding → Bool
  | .plain => false
  | .stream | .streamEmptyAsNull => true

/-- Rules for columns of one type. -/
inductive ColumnRule where
  | character
  | boolean (style : BooleanStorage)
  /-- `digits` is the precision that the catalog reports for an exact number. -/
  | integer (type : ColumnType) (declaration : String) (code : TypeCode)
      (digits : Option Nat)
  | floating (type : ColumnType) (declaration : String) (code : TypeCode)
  | decimal (keyword : String) (code : TypeCode)
  | date (literal : CalendarLiteral)
  | timestamp (type : ColumnType) (declaration : String) (literal : CalendarLiteral)
  | clob (declaration : String) (code : TypeCode) (binding : LargeObjectBinding)
      (emptyLiteral : String)
  | blob (declaration : String) (code : TypeCode) (binding : LargeObjectBinding)
      (emptyLiteral : String)
  | string (type : ColumnType) (keyword : String) (fallbackDefault : String)
deriving DecidableEq, Repr

namespace ColumnRule

/-- Length of strings declared without one. -/
def defaultStringLength : Nat := 64

/-- Length of enumeration codes declared without one. -/
def defaultEnumLength : Nat := 32

/-- Precision of decimals declared without one. -/
def defaultPrecision : Nat := 18

/-- Scale of decimals declared without a precision. -/
def defaultScale : Nat := 2

/-- The type that the rules are for. -/
def columnType : ColumnRule → ColumnType
  | .character => .character
  | .boolean _ => .boolean
  | .integer type .. => type
  | .floating type .. => type
  | .decimal .. => .decimal
  | .date _ => .date
  | .timestamp type .. => type
  | .clob .. => .clob
  | .blob .. => .blob
  | .string type .. => type

/-- Code that the catalog reports. -/
def typeCode : ColumnRule → TypeCode
  | .character => .char
  | .boolean .native => .boolean
  | .boolean .yesNo => .char
  | .boolean .bit => .bit
  | .integer _ _ code _ => code
  | .floating _ _ code => code
  | .decimal _ code => code
  | .date _ => .date
  | .timestamp .. => .timestamp
  | .clob _ code .. => code
  | .blob _ code .. => code
  | .string .. => .varchar

/-- Precision and scale of a decimal. -/
def decimalSize (precision scale : Nat) : Nat × Nat :=
  if precision = 0 then (defaultPrecision, defaultScale) else (precision, scale)

/-- Length of a string. -/
def stringLength (type : ColumnType) (length : Nat) : Nat :=
  if 0 < length then length
  else if type = .enumConstant then defaultEnumLength
  else defaultStringLength

/-- Declaration of the type. A size of zero is the usual one. -/
def declaration (p : ColumnRule) (length precision scale : Nat) : String :=
  match p with
  | .character => "CHAR(1)"
  | .boolean .native => "BOOLEAN"
  | .boolean .yesNo => "CHAR(1)"
  | .boolean .bit => "BIT"
  | .integer _ declaration .. => declaration
  | .floating _ declaration _ => declaration
  | .decimal keyword _ =>
    let size := decimalSize precision scale
    keyword ++ s!"({size.1},{size.2})"
  | .date _ => "DATE"
  | .timestamp _ declaration _ => declaration
  | .clob declaration .. => declaration
  | .blob declaration .. => declaration
  | .string type keyword _ => keyword ++ s!"({stringLength type length})"

/-- Size and decimal digits that the catalog reports; none where sizes are not compared. -/
def reportedSize? (p : ColumnRule) (length precision scale : Nat) : Option (Nat × Nat) :=
  match p with
  | .integer _ _ _ digits => digits.map (·, 0)
  | .decimal .. => some (decimalSize precision scale)
  | .string type .. => some (stringLength type length, 0)
  | _ => none

/-- Whether sizes are never compared. -/
def isUnsized (p : ColumnRule) : Bool := (p.reportedSize? 0 0 0).isNone

end ColumnRule

/-- Rules of one dialect, those added last first. -/
structure ColumnRules where
  rules : List ColumnRule

namespace ColumnRules

/-- No rules. -/
def empty : ColumnRules := ⟨[]⟩

/-- Rules added, in place of any others for their type. -/
def insert (t : ColumnRules) (p : ColumnRule) : ColumnRules := ⟨p :: t.rules⟩

/-- The rules for a type. -/
def get? (t : ColumnRules) (type : ColumnType) : Option ColumnRule :=
  t.rules.find? (·.columnType == type)

/-- Types without rules, in order. -/
def missing (t : ColumnRules) : List ColumnType :=
  ColumnType.all.filter fun type => (t.get? type).isNone

/-- The usual rules for all types. -/
def standard : ColumnRules :=
  [.character, .boolean .native,
    .integer .short "SMALLINT" .smallInt none,
    .integer .integer "INTEGER" .integer none,
    .integer .long "BIGINT" .bigInt none,
    .floating .float "FLOAT" .float, .floating .double "DOUBLE" .double,
    .decimal "DECIMAL" .decimal, .date .quoted,
    .timestamp .timestamp "TIMESTAMP" .quoted, .timestamp .timestampUtc "TIMESTAMP" .quoted,
    .clob "CLOB" .clob .plain "CAST('' AS CLOB)", .blob "BLOB" .blob .plain "CAST(X'' AS BLOB)",
    .string .string "VARCHAR" "", .string .enumConstant "VARCHAR" ""].foldl insert empty

theorem columnType_of_get? {t : ColumnRules} {type : ColumnType} {p : ColumnRule}
    (h : t.get? type = some p) : p.columnType = type := by
  simpa using List.find?_some h

end ColumnRules

end SqlDialects
