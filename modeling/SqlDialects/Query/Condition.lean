import SqlDialects.Binding.Basic
import SqlDialects.Entity.Basic

/-!
Conditions over the fields of an entity, with the parameters that their operands stand for.
-/

namespace SqlDialects

/-- A condition. -/
inductive Condition where
  /-- A restriction on a column, once for each run of operands. -/
  | test (rule : ConditionRule) (column : String) (runs : List Nat)
  /-- Conditions joined by the rule of a compound. -/
  | compound (rule : ConditionRule) (parts : List Condition)

namespace Condition

/-- Between the runs of a restriction: a value is in one of several lists, or in none of them. -/
def glue (rule : ConditionRule) : String :=
  if rule.restriction = .notAmongst then " AND " else " OR "

/-- A restriction over `n` operands. -/
def writeRun (rule : ConditionRule) (column : String) (n : Nat) : String :=
  rule.write column (List.replicate n Value.placeholder)

mutual

/-- The text of a condition. -/
def text : Condition → String
  | .test rule column [n] => writeRun rule column n
  | .test rule column runs =>
    "(" ++ String.intercalate (glue rule) (runs.map (writeRun rule column)) ++ ")"
  | .compound rule parts => rule.write "" (texts parts)

/-- The texts of several conditions. -/
def texts : List Condition → List String
  | [] => []
  | c :: rest => text c :: texts rest

end

end Condition

/-- A parameter for a field. -/
def Field.parameter (f : Field) (index : Nat) : Parameter :=
  ⟨index, f.declaredType, f.length, some f.name⟩

/-- A result column for a field. -/
def Field.result (f : Field) (index : Nat) : ResultColumn :=
  ⟨.index index, f.declaredType, f.length, f.name⟩

/-- Parameters numbered in order from one. -/
def numbered (parameters : List Parameter) : List Parameter :=
  parameters.mapIdx fun i p => { p with index := i + 1 }

/-- A condition with its parameters, numbered by themselves. -/
structure BoundCondition where
  condition : Condition
  parameters : List Parameter
  /-- Whether it names fields that only the view has. -/
  viewOnly : Bool

namespace BoundCondition

/-- A restriction on a field, with a number of operands. A list that is too long for the dialect is
taken in runs. -/
def ofField (d : Dialect) (f : Field) (r : Restriction) (operands : Nat) :
    Except Error BoundCondition :=
  if r.isCompound then .error (.operandCount r .subClauses operands)
  else
    let rule := d.conditionRule r
    let runs :=
      if r = .amongst ∨ r = .notAmongst then
        (valueRuns d.maxListLength (List.replicate operands ())).map List.length
      else [operands]
    do
      runs.forM rule.checkOperands
      return {
        condition := .test rule f.column.written runs
        parameters := (List.range operands).map fun i => f.parameter (i + 1)
        viewOnly := f.isViewOnly }

/-- A restriction on a field of the table. -/
def restrict (d : Dialect) (e : Entity) (field : String) (r : Restriction) (operands : Nat) :
    Except Error BoundCondition := do
  ofField d (← e.tableField field) r operands

/-- A restriction on any field, for a query of the view. -/
def restrictView (d : Dialect) (e : Entity) (field : String) (r : Restriction) (operands : Nat) :
    Except Error BoundCondition := do
  ofField d (← e.field field) r operands

/-- Clauses joined by `AND` or `OR`. -/
def compound (d : Dialect) (r : Restriction) (clauses : List BoundCondition) :
    Except Error BoundCondition :=
  if !r.isCompound then .error (.operandCount r .noSubClauses clauses.length)
  else
    let rule := d.conditionRule r
    do
      rule.checkOperands clauses.length
      return {
        condition := .compound rule (clauses.map (·.condition))
        parameters := numbered (clauses.flatMap (·.parameters))
        viewOnly := clauses.any (·.viewOnly) }

end BoundCondition

end SqlDialects
