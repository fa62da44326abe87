import SqlDialects.Entity.Constraints

/-!
The constraints of an existing table brought to those of its entity. What matches stays, everything
else is dropped first, and what is missing is added. Checks are only ever added.
-/

namespace SqlDialects

/-- Kinds of constraints that are compared with the catalog. -/
inductive ConstraintKind where
  | foreignKey
  | unique
  | index
deriving DecidableEq, Repr

/-- A constraint that the catalog has. -/
structure ExistingConstraint where
  name : String
  kind : ConstraintKind
deriving DecidableEq, Repr

/-- Constraints of a catalog object, foreign keys first and indexes last. -/
def CatalogObject.constraints (o : CatalogObject) : List ExistingConstraint :=
  o.foreignKeys.map (⟨·.name, .foreignKey⟩) ++ o.uniqueConstraints.map (⟨·.name, .unique⟩)
    ++ o.indexes.map (⟨·.name, .index⟩)

/-- Whether as many columns are observed as desired, and each desired one is among them. -/
def sameColumnSet (observed desired : List String) : Bool :=
  observed.length == desired.length
    && desired.all fun column => observed.any fun o => Text.sameName o column

/-- Constraints that nothing has claimed yet, and statements that add others. -/
structure Reconciliation where
  leftovers : List ExistingConstraint
  additions : List Statement

namespace Reconciliation

/-- Whether a leftover has the name and kind. -/
def isCalled (name : String) (kind : ConstraintKind) (c : ExistingConstraint) : Bool :=
  c.kind == kind && Text.sameName c.name name

/-- The leftover of the name and kind claimed, if it matches and is there; a statement that adds the
constraint otherwise. -/
def claimOrAdd (s : Reconciliation) (isMatch : Bool) (name : String) (kind : ConstraintKind)
    (addition : Except Error Statement) : Except Error Reconciliation :=
  if isMatch && s.leftovers.any (isCalled name kind) then
    .ok { s with leftovers := s.leftovers.eraseP (isCalled name kind) }
  else do return { s with additions := s.additions ++ [← addition] }

/-- The statement that drops a leftover. -/
def dropLeftover (e : Entity) (d : Dialect) (c : ExistingConstraint) : Statement :=
  match c.kind with
  | .foreignKey => e.dropForeignKey d c.name
  | .unique => e.dropUnique d c.name
  | .index => e.dropIndex d c.name

end Reconciliation

namespace Entity

/-- Raw names of the columns of fields. -/
def rawColumns (e : Entity) (names : List String) : Except Error (List String) :=
  return (← e.columns names).map Name.raw

/-- The foreign key of a field. -/
def reconcileForeignKey (e : Entity) (r : Registry) (existing : CatalogObject)
    (s : Reconciliation) (f : Field) : Except Error Reconciliation :=
  match f.foreignKey with
  | none => .ok s
  | some reference => do
    let target ← r.get reference.entity
    let targetColumn := (← target.field reference.field).column.raw
    let name := e.foreignKeyName f
    let isMatch := existing.foreignKeys.any fun key =>
      Text.sameName key.name name && Text.sameName key.refTable target.table.raw
        && key.refColumns.any fun c => Text.sameName c targetColumn
    s.claimOrAdd isMatch name .foreignKey (e.addForeignKey r f.name)

/-- A unique constraint. -/
def reconcileUnique (e : Entity) (d : Dialect) (existing : CatalogObject) (s : Reconciliation)
    (u : UniqueSpec) : Except Error Reconciliation := do
  let columns ← e.rawColumns u.fieldNames
  let isMatch := existing.uniqueConstraints.any fun c =>
    Text.sameName c.name u.name && sameColumnSet c.columns columns
  s.claimOrAdd isMatch u.name .unique (e.addUnique d u)

/-- An index. -/
def reconcileIndex (e : Entity) (d : Dialect) (existing : CatalogObject) (s : Reconciliation)
    (i : IndexSpec) : Except Error Reconciliation := do
  let columns ← e.rawColumns i.fieldNames
  let isMatch := existing.indexes.any fun c =>
    Text.sameName c.name i.name && c.unique == i.unique && sameColumnSet c.columns columns
  s.claimOrAdd isMatch i.name .index (e.createIndex d i)

/-- A check, which is there if its name is. -/
def reconcileCheck (e : Entity) (d : Dialect) (existing : CatalogObject) (s : Reconciliation)
    (c : CheckSpec) : Except Error Reconciliation :=
  if existing.checkConstraints.any fun name => Text.sameName name c.name then .ok s
  else do return { s with additions := s.additions ++ [← e.addCheck d c] }

/-- Brings the constraints of an existing table to those of the entity. Without `keys`, no foreign
key is left. -/
def convergeConstraints (e : Entity) (r : Registry) (keys : Bool) (existing : CatalogObject) :
    Except Error (List Statement) := do
  let d := r.dialect
  let start : Reconciliation := ⟨existing.constraints, []⟩
  let withKeys ←
    if keys then e.tableFields.foldlM (e.reconcileForeignKey r existing) start else pure start
  let withUniques ← e.source.uniqueConstraints.foldlM (e.reconcileUnique d existing) withKeys
  let withIndexes ← e.source.indexes.foldlM (e.reconcileIndex d existing) withUniques
  let final ← e.source.checkConstraints.foldlM (e.reconcileCheck d existing) withIndexes
  return final.leftovers.map (Reconciliation.dropLeftover e d) ++ final.additions

end Entity

end SqlDialects
