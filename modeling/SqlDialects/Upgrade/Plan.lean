import SqlDialects.Entity.View
import SqlDialects.Upgrade.Column
import SqlDialects.Upgrade.Constraints
import SqlDialects.Upgrade.Error
import SqlDialects.Upgrade.Order

/-!
The upgrade of a database: what the catalog reports of it compared with the registered entities.
-/

namespace SqlDialects

/-- Statements for one entity, its table before its view. -/
structure Script where
  entity : String
  statements : List Statement
deriving DecidableEq, Repr

/-- An upgrade in the order of its statements. -/
structure Upgrade where
  /-- Views that have to go before any table changes. -/
  viewDrops : List Statement
  scripts : List Script
deriving DecidableEq, Repr

namespace Upgrade

/-- All statements in order. -/
def statements (p : Upgrade) : List Statement :=
  p.viewDrops ++ p.scripts.flatMap (·.statements)

/-- Number of statements. -/
def size (p : Upgrade) : Nat :=
  p.scripts.foldl (fun n s => n + s.statements.length) p.viewDrops.length

/-- The script of an entity, if it holds any statement. -/
def script? (p : Upgrade) (entity : String) : Option Script :=
  p.scripts.find? fun s => s.entity == entity && !s.statements.isEmpty

end Upgrade

namespace Entity

/-- Creates the table and every constraint that it is not created with. -/
def createAll (e : Entity) (r : Registry) (keys : Bool) : Except Error (List Statement) := do
  let d := r.dialect
  let table ← e.createTable d
  let foreignKeys ←
    if keys then
      (e.tableFields.filter (·.foreignKey.isSome)).mapM fun f => e.addForeignKey r f.name
    else pure []
  let uniques ←
    if d.inlineConstraints then pure [] else e.source.uniqueConstraints.mapM (e.addUnique d)
  let indexes ←
    if d.inlineConstraints then pure [] else e.source.indexes.mapM (e.createIndex d)
  let checks ← e.source.checkConstraints.mapM (e.addCheck d)
  return table ++ foreignKeys ++ uniques ++ indexes ++ checks

/-- The rest of some columns when the first of a name is taken out, with that one. -/
def takeColumn (name : String) (columns : List CatalogColumn) :
    Option CatalogColumn × List CatalogColumn :=
  let isCalled := fun (c : CatalogColumn) => Text.sameName c.name name
  (columns.find? isCalled, columns.eraseP isCalled)

/-- Brings the columns of the fields up to date, each one taken out of the columns there are, and
answers with the columns that are left. -/
def convergeFields (e : Entity) (d : Dialect) (columns : List CatalogColumn) :
    List Field → Except Error (List Statement × List CatalogColumn)
  | [] => .ok ([], columns)
  | f :: rest => do
    let (found, left) := takeColumn f.column.raw columns
    let here ← match found with
      | some observed => e.alterColumn d f.name observed
      | none => e.addColumn d f.name
    let (more, left) ← e.convergeFields d left rest
    return (here ++ more, left)

/-- Brings the columns of an existing table up to date; a column that no field stands for may be
NULL from now on. -/
def convergeColumns (e : Entity) (d : Dialect) (existing : CatalogObject) :
    Except Error (List Statement) := do
  let (statements, left) ← e.convergeFields d existing.columns e.tableFields
  return statements ++ (left.filter fun c => !c.nullable).map (e.relaxColumn d)

/-- Creates the table, or brings it up to date. -/
def upgradeTable (e : Entity) (r : Registry) (keys : Bool) (catalog : Catalog) :
    Except UpgradeError (List Statement) :=
  match catalog.find? e.table.raw with
  | none => planning (e.createAll r keys)
  | some existing =>
    if existing.kind = .table then do
      let columns ← planning (e.convergeColumns r.dialect existing)
      let constraints ← planning (e.convergeConstraints r keys existing)
      return columns ++ constraints
    else .error (.kindConflict e.table.raw existing.kind)

/-- The object that has the name of a view, which has to be a view. -/
def existingView (catalog : Catalog) (view : Name) : Except UpgradeError (Option CatalogObject) :=
  match catalog.find? view.raw with
  | none => .ok none
  | some existing =>
    if existing.kind = .view then .ok (some existing)
    else .error (.kindConflict view.raw existing.kind)

/-- Drops the view, if the catalog has it. -/
def dropExistingView (e : Entity) (catalog : Catalog) : Except UpgradeError (List Statement) :=
  match e.view with
  | none => .ok []
  | some view => do
    match ← existingView catalog view with
    | some _ => return [.dropView view]
    | none => return []

/-- Whether a view lacks a list-only field. -/
def lacksViewField (e : Entity) (existing : CatalogObject) : Bool :=
  e.viewFields.any fun f => (existing.column? f.column.raw).isNone

/-- Statements for the view: it is created where it is missing or was dropped, and replaced where
its table changed or it lacks a list-only field. -/
def upgradeView (e : Entity) (r : Registry) (catalog : Catalog)
    (tableChanged viewsDropped : Bool) : Except UpgradeError (List Statement) :=
  match e.view with
  | none => .ok []
  | some view => do
    let create := do
      return (← planning (e.createView r)).toList
    match ← existingView catalog view with
    | none => create
    | some existing =>
      if viewsDropped then create
      else if tableChanged || e.lacksViewField existing then return .dropView view :: (← create)
      else return []

end Entity

namespace Registry

/-- Drops the views of some entities that the catalog has. -/
def dropViews (entities : List Entity) (catalog : Catalog) :
    Except UpgradeError (List Statement) := do
  return (← entities.mapM fun e => e.dropExistingView catalog).flatten

/-- Plans the upgrade of the entities of some names and all that they refer to. Without `keys`,
foreign keys are neither created nor kept. -/
def upgrade (r : Registry) (keys : Bool) (names : List String) (catalog : Catalog) :
    Except UpgradeError Upgrade := do
  let entities ← planning (r.referenceOrder names)
  let tables ← entities.mapM fun e => return (e, ← e.upgradeTable r keys catalog)
  let reconstruct := r.dialect.rebuildsViews && tables.any fun t => !t.2.isEmpty
  let viewDrops ← if reconstruct then dropViews entities catalog else pure []
  let scripts ← tables.mapM fun (e, statements) => do
    let view ← e.upgradeView r catalog (!statements.isEmpty) reconstruct
    return Script.mk e.name (statements ++ view)
  return { viewDrops, scripts }

end Registry

end SqlDialects
