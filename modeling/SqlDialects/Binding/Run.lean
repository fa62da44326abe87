import SqlDialects.Binding.Basic

/-!
All parameters of a statement bound, and all columns of a row read, in order and up to the first
failure.
-/

namespace SqlDialects

/-- Values for the parameters of a statement. -/
structure Binding where
  pairs : List (Parameter × Value)

namespace Binding

/-- Values paired with parameters by position. -/
def ofValues (slots : List Parameter) (values : List Value) : Except Error Binding :=
  if slots.length = values.length then .ok ⟨slots.zip values⟩
  else .error (.parameterCount slots.length values.length)

/-- Number of parameters. -/
def size (p : Binding) : Nat := p.pairs.length

/-- Whatever takes the parameters: it accepts or refuses a call, knowing the calls before it. -/
abbrev Sink := List SinkCall → SinkCall → Except Error Unit

/-- Calls made, the last one perhaps refused, and how the run ended. -/
structure Run where
  calls : List SinkCall
  outcome : Except Error Unit

/-- Binds the rest of the parameters after the calls `made`. -/
def runFrom (d : Dialect) (zone : UtcOffset) (sink : Sink) (made : List SinkCall) :
    List (Parameter × Value) → Run
  | [] => ⟨made, .ok ()⟩
  | (slot, v) :: rest =>
    match (d.columnRuleFor slot.type slot.length).bindCall slot.index zone v with
    | .error e => ⟨made, .error e⟩
    | .ok call =>
      match sink made call with
      | .error e => ⟨made ++ [call], .error e⟩
      | .ok () => runFrom d zone sink (made ++ [call]) rest

/-- Binds every parameter, up to the first failure. -/
def run (p : Binding) (d : Dialect) (zone : UtcOffset) (sink : Sink) : Run :=
  runFrom d zone sink [] p.pairs

end Binding

/-- The offset of local time, for settings that name one. -/
def UtcOffset.ofSeconds (seconds : Int) : Except Error UtcOffset :=
  match UtcOffset.ofSeconds? seconds with
  | some offset => .ok offset
  | none => .error (.config (.offsetOutOfRange seconds))

namespace Extraction

/-- Columns asked for, the last one perhaps in vain, and the values read. -/
structure Run where
  reads : List (ResultPlace × ReadRequest)
  outcome : Except Error (List Value)

/-- Reads the columns of a row, up to the first failure. -/
def run (d : Dialect) (zone : UtcOffset) (row : Row) : List ResultColumn → Run
  | [] => ⟨[], .ok []⟩
  | slot :: rest =>
    let rule := d.columnRuleFor slot.type slot.length
    let read := (slot.column, rule.readRequest)
    match rule.extract row slot.column zone with
    | .error e => ⟨[read], .error e⟩
    | .ok v =>
      let tail := run d zone row rest
      ⟨read :: tail.reads, tail.outcome.map (v :: ·)⟩

end Extraction

end SqlDialects
