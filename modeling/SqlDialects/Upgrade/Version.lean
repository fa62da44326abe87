import SqlDialects.Upgrade.Plan

/-!
The upgrade of one entity from an earlier version of its description, without a look at the catalog.
Fields of the two versions are paired by marker.
-/

namespace SqlDialects

/-- Fields that an upgrade may rename, change, add and drop: those of the table but for the key. -/
def Field.isUpgradable (f : Field) : Bool := !f.primaryKey && !f.isViewOnly

/-- The column that a field declares, as the catalog would report it. -/
def Field.asReported (f : Field) (d : Dialect) : CatalogColumn :=
  let rule := d.columnRule f.columnType
  let size := (rule.reportedSize? f.length f.precision f.scale).getD (0, 0)
  { name := f.column.raw
    typeCode := rule.typeCode
    typeName := f.typeDecl
    size := size.1
    decimalDigits := size.2
    nullable := f.nullable
    defaultValue := f.defaultLiteral }

namespace Entity

/-- The field of a marker, if an upgrade may change it. -/
def upgradableField? (e : Entity) (marker : String) : Option Field :=
  (e.fieldOfMarker? marker).filter (·.isUpgradable)

/-- Fields that an upgrade may change. -/
def upgradableFields (e : Entity) : List Field := e.tableFields.filter (·.isUpgradable)

/-- Statements for the columns of one field, by the part of the script that they belong to. -/
structure FieldSteps where
  renames : List Statement := []
  alterations : List Statement := []
  additions : List Statement := []

/-- Statements that bring a field of an earlier version to this one, or add it. -/
def fieldSteps (e previous : Entity) (d : Dialect) (f : Field) : Except Error FieldSteps :=
  match previous.upgradableField? f.marker with
  | none => return { additions := ← e.addColumn d f.name }
  | some before => do
    let renames ←
      if Text.sameName before.column.raw f.column.raw then pure []
      else pure [← e.renameColumn d f.name before.column.raw]
    return { renames, alterations := ← e.alterColumn d f.name (before.asReported d) }

/-- Fields of an earlier version that this one does not have. -/
def abandonedFields (e previous : Entity) : List Field :=
  previous.upgradableFields.filter fun f => (e.upgradableField? f.marker).isNone

/-- Statements on the table: its new name, new names of columns, changes, additions and drops. -/
def versionStatements (e previous : Entity) (d : Dialect) : Except Error (List Statement) := do
  let rename :=
    if Text.sameName previous.table.raw e.table.raw then []
    else [previous.renameTable d e.table.raw]
  let steps ← e.upgradableFields.mapM (e.fieldSteps previous d)
  return rename ++ steps.flatMap (·.renames) ++ steps.flatMap (·.alterations)
    ++ steps.flatMap (·.additions)
    ++ (e.abandonedFields previous).map fun f => e.dropColumn d f.column.raw

end Entity

/-- Plans the upgrade of a registered entity from an earlier description. The view goes first and
comes back last whenever anything changes. -/
def Registry.versionUpgrade (r : Registry) (old : EntitySpec) (name : String) :
    Except Error Script := do
  let e ← r.get name
  let previous ← Entity.ofSpec r.dialect old
  let statements ← e.versionStatements previous r.dialect
  if statements.isEmpty then return ⟨e.name, []⟩
  else
    let create ← e.createView r
    return ⟨e.name, previous.dropView.toList ++ statements ++ create.toList⟩

end SqlDialects
