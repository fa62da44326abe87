import SqlDialects.Entity.Registry

/-!
The view of an entity: the columns of its table, and list-only fields from the tables that its
foreign keys refer to, each of which is joined once.
-/

namespace SqlDialects.Entity

/-- The joins so far with the key field of each, and the columns so far. -/
structure ViewParts where
  joins : List (String × ViewJoin) := []
  columns : List ViewColumn := []

/-- The key of a list-only field with the entity that it refers to. -/
def sourceEntity (e : Entity) (r : Registry) (source : ViewSource) :
    Except Error (Field × FieldReference × Entity) := do
  let key ← e.tableField source.keyField
  match key.foreignKey with
  | none => e.noField source.keyField
  | some reference => return (key, reference, ← r.get reference.entity)

/-- The join over a key: the one there is, or the next one. -/
def joinOver (parts : ViewParts) (source : ViewSource) (key : Field) (reference : FieldReference)
    (foreign : Entity) : Except Error (ViewParts × Nat) :=
  match parts.joins.lookup source.keyField with
  | some join => .ok (parts, join.number)
  | none => do
    let number := parts.joins.length + 2
    let join : ViewJoin :=
      { table := foreign.table, number, key := key.column
        column := (← foreign.field reference.field).column }
    return ({ parts with joins := parts.joins ++ [(source.keyField, join)] }, number)

/-- A list-only field added to the view. -/
def addViewField (e : Entity) (r : Registry) (parts : ViewParts) (f : Field) :
    Except Error ViewParts :=
  match f.viewSource with
  | none => .ok parts
  | some source => do
    let (key, reference, foreign) ← e.sourceEntity r source
    let (parts, number) ← joinOver parts source key reference foreign
    let projected ← foreign.field source.sourceField
    return { parts with columns := parts.columns ++ [⟨number, projected.column, some f.column⟩] }

/-- Creates the view, for an entity that has one. -/
def createView (e : Entity) (r : Registry) : Except Error (Option Statement) :=
  match e.view with
  | none => .ok none
  | some view => do
    let own := e.tableFields.map fun f => ViewColumn.mk 1 f.column none
    let parts ← e.viewFields.foldlM (e.addViewField r) { columns := own }
    return some (.createView view e.table parts.columns (parts.joins.map Prod.snd))

/-- Drops the view, for an entity that has one. -/
def dropView (e : Entity) : Option Statement := e.view.map .dropView

end SqlDialects.Entity
