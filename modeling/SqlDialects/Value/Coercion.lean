import SqlDialects.Value.Basic

/-!
Values brought to the type of the column they are meant for.
-/

namespace SqlDialects.Value

/-- Types whose values are texts, and which take any text. -/
def isTextTarget : ColumnType → Bool
  | .string | .clob | .enumConstant => true
  | _ => false

/-- A character that stands for true. -/
def isAffirmative (c : Char) : Bool := "YyTt1".toList.contains c

/-- Whether values of type `natural` are taken by `target`: as the types convert, and texts wherever
texts are stored. -/
def isTaken (target natural : ColumnType) (v : Value) : Bool :=
  target.takes natural || (isTextTarget target && v.kind == .text)

/-- A value that is taken, in the form that the type stores. -/
def widened? : ColumnType → Value → Option Value
  | .string, v | .clob, v | .enumConstant, v => some (.text v.plain)
  | .boolean, .char c => some (.bool (isAffirmative c))
  | .integer, .short n => some (.int n.toInt32)
  | .long, .short n => some (.long n.toInt64)
  | .long, .int n => some (.long n.toInt64)
  | .float, .short n => some (.float (.ofInt n.toInt))
  | .float, .int n => some (.float (.ofInt n.toInt))
  | .float, .long n => some (.float (.ofInt n.toInt))
  | .double, .short n => some (.double (.ofInt n.toInt))
  | .double, .int n => some (.double (.ofInt n.toInt))
  | .double, .long n => some (.double (.ofInt n.toInt))
  | .double, .float x => some (.double (.ofSingle x))
  | .decimal, v => some (.decimal v.plain)
  | .timestamp, .date d | .timestampUtc, .date d => some (.timestamp ⟨d, .midnight⟩)
  | .timestampUtc, .timestamp t => some (.timestamp t)
  | _, _ => none

/-- The value as one of the target type. NULL and values of the type itself stay as they are. -/
def coerce (target : ColumnType) (v : Value) : Except Error Value :=
  match v.holdingType? with
  | none => .ok v
  | some natural =>
    if natural = target then .ok v
    else if !isTaken target natural v then .error (.valueMismatch target v.kind)
    else match widened? target v with
      | some w => .ok w
      | none => .error (.valueMismatch target v.kind)

end SqlDialects.Value
