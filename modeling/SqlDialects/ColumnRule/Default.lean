import SqlDialects.ColumnRule.Basic

/-!
Configured defaults as literals: what each type accepts and how it is written.
-/

namespace SqlDialects

/-- A text without one sign in front of it. -/
def dropSign : List Char → List Char
  | '+' :: rest => rest
  | '-' :: rest => rest
  | cs => cs

/-- Digits of any script with a point at most, and a digit somewhere. -/
def isPlainDecimal (cs : List Char) : Bool :=
  let unsigned := dropSign cs
  let whole := unsigned.takeWhile Text.isDecimalDigit
  match unsigned.dropWhile Text.isDecimalDigit with
  | [] => !whole.isEmpty
  | '.' :: places => places.all Text.isDecimalDigit && (!whole.isEmpty || !places.isEmpty)
  | _ => false

namespace ColumnRule

/-- One character, quoted. -/
def characterDefault (raw : String) : Except Error String :=
  if raw.toList.length = 1 then .ok (Text.literal raw)
  else .error (.invalidDefault .character raw .notOneCharacter)

/-- Spellings of true and false, in any case and between blanks. -/
def readBoolean? (raw : String) : Option Bool :=
  let word := Text.asciiLower (Text.trim raw)
  if ["true", "t", "y", "yes", "1"].contains word then some true
  else if ["false", "f", "n", "no", "0"].contains word then some false
  else none

/-- Literal of a truth value. -/
def booleanLiteral : BooleanStorage → Bool → String
  | .native, true => "TRUE"
  | .native, false => "FALSE"
  | .yesNo, true => "'Y'"
  | .yesNo, false => "'N'"
  | .bit, true => "1"
  | .bit, false => "0"

/-- Range of an integral type. -/
def integerRange : ColumnType → IntegerRange
  | .short => .short
  | .integer => .integer
  | _ => .long

/-- An integer, written without sign `+` and leading zeros. -/
def integerDefault (type : ColumnType) (raw : String) : Except Error String :=
  let trimmed := Text.trim raw
  match readInteger (integerRange type) trimmed.toList with
  | .ok n => .ok (toString n)
  | .error fault => .error (.invalidDefault type trimmed (.integer fault))

/-- A finite number, in its shortest digits. -/
def floatingDefault (type : ColumnType) (raw : String) : Except Error String :=
  let trimmed := Text.trim raw
  match Double.read trimmed with
  | .ok x =>
    if x.isFinite then .ok x.text else .error (.invalidDefault type trimmed .notFinite)
  | .error fault => .error (.invalidDefault type trimmed (.floating fault))

/-- A decimal number, as it stands. -/
def decimalDefault (raw : String) : Except Error String :=
  let trimmed := Text.trim raw
  if isPlainDecimal trimmed.toList then .ok trimmed
  else .error (.invalidDefault .decimal trimmed .notDecimal)

/-- The current day, or a date. -/
def dateDefault (literal : CalendarLiteral) (raw : String) : Except Error String :=
  let trimmed := Text.trim raw
  if Text.sameName trimmed "CURRENT_DATE" || Text.sameName trimmed "today" then .ok "CURRENT_DATE"
  else match Date.read trimmed with
    | .error fault => .error (.invalidDefault .date trimmed (.calendar fault))
    | .ok d => .ok (match literal with
      | .quoted => "'" ++ d.text ++ "'"
      | .function => "TO_DATE('" ++ d.text ++ "', 'YYYY-MM-DD')")

/-- The current time, or a timestamp. -/
def timestampDefault (type : ColumnType) (literal : CalendarLiteral) (raw : String) :
    Except Error String :=
  let trimmed := Text.trim raw
  if Text.sameName trimmed "CURRENT_TIMESTAMP" || Text.sameName trimmed "now" then
    .ok "CURRENT_TIMESTAMP"
  else match Timestamp.read trimmed with
    | .error fault => .error (.invalidDefault type trimmed (.calendar fault))
    | .ok t => .ok (match literal with
      | .quoted => "'" ++ t.text ++ "'"
      | .function => "TO_TIMESTAMP('" ++ t.text ++ "', 'YYYY-MM-DD HH24:MI:SS')")

/-- The literal of a configured default. -/
def defaultLiteral (p : ColumnRule) (raw : String) : Except Error String :=
  match p with
  | .character => characterDefault raw
  | .boolean style =>
    match readBoolean? raw with
    | some b => .ok (booleanLiteral style b)
    | none => .error (.invalidDefault .boolean raw .notBoolean)
  | .integer type .. => integerDefault type raw
  | .floating type .. => floatingDefault type raw
  | .decimal .. => decimalDefault raw
  | .date literal => dateDefault literal raw
  | .timestamp type _ literal => timestampDefault type literal raw
  | .clob _ _ _ emptyLiteral => .ok (if raw.isEmpty then emptyLiteral else Text.literal raw)
  | .blob _ _ _ emptyLiteral =>
    if raw.isEmpty then .ok emptyLiteral else .error (.invalidDefault .blob raw .notEmpty)
  | .string .. => .ok (Text.literal raw)

/-- Default that existing rows get in a column that may no longer be NULL. -/
def fallbackDefault : ColumnRule → String
  | .character => " "
  | .boolean _ => "false"
  | .integer .. | .floating .. | .decimal .. => "0"
  | .date _ => "CURRENT_DATE"
  | .timestamp .. => "CURRENT_TIMESTAMP"
  | .clob .. | .blob .. => ""
  | .string _ _ fallbackDefault => fallbackDefault

/-- Literal for NULLs of a column that may no longer be NULL: its default, or another one where it
has none. -/
def fillLiteral (p : ColumnRule) (raw : Option String) : Except Error String :=
  match raw with
  | some raw =>
    if Text.isAllBlank raw then p.defaultLiteral p.fallbackDefault else p.defaultLiteral raw
  | none => p.defaultLiteral p.fallbackDefault

end ColumnRule

end SqlDialects
