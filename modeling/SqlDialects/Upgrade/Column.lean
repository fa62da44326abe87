import SqlDialects.Entity.Tables

/-!
An existing column brought to what a field describes. NULLs are filled before a column is tightened,
the type changes before the default, and nullability comes last.
-/

namespace SqlDialects

/-- What differs between a column and its field. -/
structure ColumnDifference where
  typeChange : Bool
  defaultChange : Bool
  nullableChange : Bool
deriving DecidableEq, Repr

/-- Whether anything differs. -/
def ColumnDifference.isAny (c : ColumnDifference) : Bool :=
  c.typeChange || c.defaultChange || c.nullableChange

/-- What differs. Types that drivers report in each other's place are the same, sizes count where
the type declares one, and a generated key has no default. -/
def Field.difference (f : Field) (d : Dialect) (observed : CatalogColumn) : ColumnDifference :=
  let rule := d.columnRule f.columnType
  let resized := match rule.reportedSize? f.length f.precision f.scale with
    | some size => size != (observed.size, observed.decimalDigits)
    | none => false
  { typeChange := !observed.typeCode.sharesStorageWith rule.typeCode || resized
    defaultChange :=
      !f.isIdentity && !d.defaults.isMatch observed.defaultValue f.defaultValue rule
    nullableChange := observed.nullable != f.nullable }

namespace Entity

/-- A type may change to one that takes the values of the type there is. -/
def checkTypeChange (e : Entity) (f : Field) (observed : CatalogColumn) : Except Error Unit :=
  let refuse := fun fault =>
    Except.error (Error.unsupportedAlteration e.table.raw f.column.raw fault)
  match observed.typeCode.columnType? observed.size observed.decimalDigits with
  | none => refuse (.unknownType observed.typeName)
  | some source =>
    if f.columnType.takes source then .ok ()
    else refuse (.notConvertible source f.columnType)

/-- Fills the NULLs of a column that may have none any more. -/
def fillStep (e : Entity) (d : Dialect) (f : Field) (diff : ColumnDifference) :
    Except Error (List Statement) := do
  if diff.nullableChange && !f.nullable then
    let literal ← (d.columnRule f.columnType).fillLiteral f.defaultValue
    return [.fillNulls e.table f.column literal]
  else return []

/-- Changes the default. -/
def defaultStep (d : Dialect) (f : Field) (t : ColumnChange) (diff : ColumnDifference) :
    List Statement :=
  if diff.defaultChange then
    match f.defaultLiteral with
    | some literal => d.ddl.replaceDefault t literal
    | none => [.dropDefault t]
  else []

/-- Brings an existing column to its field. -/
def convergeColumn (e : Entity) (d : Dialect) (f : Field) (observed : CatalogColumn) :
    Except Error (List Statement) := do
  let diff := f.difference d observed
  if !diff.isAny then return []
  if diff.typeChange then e.checkTypeChange f observed
  let hadDefault := match observed.defaultValue with
    | some raw => !Text.isAllBlank raw
    | none => false
  let t := { e.target f with hadDefault }
  let fill ← e.fillStep d f diff
  let type := if diff.typeChange then [Statement.alterType t] else []
  let nullability :=
    if diff.nullableChange && !(diff.typeChange && d.ddl.alterTypeStatesNull) then
      [Statement.setNullable t]
    else []
  return fill ++ type ++ defaultStep d f t diff ++ nullability

/-- Brings an existing column to the field of a name, if the table has it. -/
def alterColumn (e : Entity) (d : Dialect) (fieldName : String) (observed : CatalogColumn) :
    Except Error (List Statement) := do
  e.convergeColumn d (← e.tableField fieldName) observed

end Entity

end SqlDialects
