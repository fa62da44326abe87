import SqlDialects.Dialect.Basic
import SqlDialects.Text.Bytes

/-!
Typed places of a statement, and how a type's rules move one value: to a parameter by one call, and
from a result by one read.
-/

namespace SqlDialects

/-- A result column, by position from one or by label. -/
inductive ResultPlace where
  | index (n : Nat)
  | label (name : String)
deriving DecidableEq, Repr

/-- A parameter of a statement. -/
structure Parameter where
  /-- Position, from one. -/
  index : Nat
  type : ColumnType
  /-- Declared length, which decides whether a string is a large object. -/
  length : Nat
  /-- The field it stands for. -/
  field : Option String
deriving DecidableEq, Repr

/-- A column of a statement's result. -/
structure ResultColumn where
  column : ResultPlace
  type : ColumnType
  length : Nat
  field : String
deriving DecidableEq, Repr

/-- A call that hands one parameter over. Streams are announced with their length. -/
inductive SinkCall where
  | null (index : Nat) (code : TypeCode)
  | value (index : Nat) (v : Value)
  | bytes (index : Nat) (content : List UInt8) (length : Nat)
  | characters (index : Nat) (content : String) (length : Nat)
deriving DecidableEq

/-- The parameter that a call is for. -/
def SinkCall.index : SinkCall → Nat
  | .null index _ | .value index _ | .bytes index _ _ | .characters index _ _ => index

/-- What is asked of a result column. -/
inductive ReadRequest where
  | value (code : TypeCode)
  | bytes
  | characters
deriving DecidableEq, Repr

/-- A row of a result. Streams are bytes, none for NULL. -/
structure Row where
  value : ResultPlace → TypeCode → Except Error Value
  bytes : ResultPlace → Except Error (Option (List UInt8))
  characters : ResultPlace → Except Error (Option (List UInt8))

namespace ColumnRule

/-- A truth value as it is stored. -/
def storedBoolean (style : BooleanStorage) (b : Bool) : Value :=
  match style with
  | .yesNo => .char (if b then 'Y' else 'N')
  | .native | .bit => .bool b

/-- The call for a value that is no NULL and has the type already. -/
def storeCall (p : ColumnRule) (index : Nat) (zone : UtcOffset) (v : Value) :
    Except Error SinkCall :=
  match p, v with
  | .boolean style, .bool b => .ok (.value index (storedBoolean style b))
  | .boolean _, v => .error (.valueMismatch .boolean v.kind)
  | .timestamp type _ _, .timestamp t =>
    if type = .timestampUtc then
      match t.toUtc? zone with
      | some t => .ok (.value index (.timestamp t))
      | none => .error .timestampOverflow
    else .ok (.value index (.timestamp t))
  | .timestamp type _ _, v => .error (.valueMismatch type v.kind)
  | .clob _ code .streamEmptyAsNull _, .text "" => .ok (.null index code)
  | .clob _ _ binding _, .text s =>
    if binding.isStream then .ok (.characters index s s.length) else .ok (.value index (.text s))
  | .blob _ code .streamEmptyAsNull _, .bytes [] => .ok (.null index code)
  | .blob _ _ binding _, .bytes b =>
    if binding.isStream then .ok (.bytes index b b.length) else .ok (.value index (.bytes b))
  | _, v => .ok (.value index v)

/-- The call that binds a value. -/
def bindCall (p : ColumnRule) (index : Nat) (zone : UtcOffset) (v : Value) :
    Except Error SinkCall :=
  if v.isNull then .ok (.null index p.typeCode)
  else do p.storeCall index zone (← v.coerce p.columnType)

/-- What is asked of a result column of the type. -/
def readRequest : ColumnRule → ReadRequest
  | .clob _ code binding _ => if binding.isStream then .characters else .value code
  | .blob _ code binding _ => if binding.isStream then .bytes else .value code
  | p => .value p.typeCode

/-- A stored truth value. -/
def loadBoolean : Value → Except Error Value
  | .null => .ok .null
  | .bool b => .ok (.bool b)
  | .char c => .ok (.bool (c.toUpper == 'Y'))
  | .text s => .ok (.bool (Text.sameName s "Y"))
  | .short n => .ok (.bool (n != 0))
  | .int n => .ok (.bool (n != 0))
  | .long n => .ok (.bool (n != 0))
  | v => .error (.valueMismatch .boolean v.kind)

/-- The value of a stored one. -/
def load (p : ColumnRule) (zone : UtcOffset) (v : Value) : Except Error Value :=
  match p, v with
  | .boolean _, v => loadBoolean v
  | .timestamp .timestampUtc _ _, .timestamp t =>
    match t.ofUtc? zone with
    | some t => .ok (.timestamp t)
    | none => .error .timestampOverflow
  | _, v => .ok v

/-- Characters of a stream. -/
def loadCharacters : Option (List UInt8) → Except Error Value
  | none => .ok .null
  | some bytes =>
    match Text.ofUtf8? bytes with
    | some s => .ok (.text s)
    | none => .error .invalidUtf8

/-- Reads a result column of the type. -/
def extract (p : ColumnRule) (row : Row) (column : ResultPlace) (zone : UtcOffset) :
    Except Error Value :=
  match p.readRequest with
  | .value code => do p.load zone (← row.value column code)
  | .bytes => do
    match ← row.bytes column with
    | some bytes => return .bytes bytes
    | none => return .null
  | .characters => do loadCharacters (← row.characters column)

end ColumnRule

end SqlDialects
