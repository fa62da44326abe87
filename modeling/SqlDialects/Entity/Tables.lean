import SqlDialects.Catalog.Basic
import SqlDialects.Entity.Registry

/-!
Statements that create and drop the table of an entity, and add, rename and drop its columns.
-/

namespace SqlDialects.Entity

/-- The unique constraint of a description, over columns. -/
def uniqueItem (e : Entity) (d : Dialect) (u : UniqueSpec) : Except Error TableItem := do
  return .unique (d.naming.name u.name) (← e.columns u.fieldNames)

/-- The index of a description, over columns. -/
def indexItem (e : Entity) (d : Dialect) (i : IndexSpec) : Except Error TableItem := do
  return .index (d.naming.name i.name) (← e.columns i.fieldNames) i.unique

/-- Constraints that the table is created with. -/
def inlineItems (e : Entity) (d : Dialect) : Except Error (List TableItem) := do
  if d.inlineConstraints then
    let uniques ← e.source.uniqueConstraints.mapM (e.uniqueItem d)
    let indexes ← e.source.indexes.mapM (e.indexItem d)
    return uniques ++ indexes
  else return []

/-- Creates the table, and what its generated key needs. -/
def createTable (e : Entity) (d : Dialect) : Except Error (List Statement) := do
  let columns := e.tableFields.map fun f => TableItem.column (e.definition f)
  let inline ← e.inlineItems d
  let keySupport := match e.primaryField?.filter (·.isIdentity) with
    | some id => d.ddl.createKeySupport e.table id.column
    | none => []
  return .createTable e.table (columns ++ inline) :: keySupport

/-- Drops the table, and what its generated key needed. -/
def dropTable (e : Entity) (d : Dialect) : List Statement :=
  .dropTable e.table ::
    if (e.primaryField?.filter (·.isIdentity)).isSome then d.ddl.dropKeySupport e.table else []

/-- A column as it is first added where rows could not have a value for it. -/
def relaxedDefinition (e : Entity) (f : Field) : ColumnDefinition :=
  { target := { e.target f with nullable := true, defaultLiteral := none }
    isIdentity := false
    isPrimaryKey := false }

/-- Adds the column of a field. A column that may not be NULL and has no default is added so that it
may, filled, and then tightened. -/
def addColumn (e : Entity) (d : Dialect) (fieldName : String) : Except Error (List Statement) := do
  let f ← e.tableField fieldName
  if f.nullable || f.defaultLiteral.isSome then return [.addColumn (e.definition f)]
  else
    let literal ← (d.columnRule f.columnType).fillLiteral none
    return [.addColumn (e.relaxedDefinition f), .fillNulls e.table f.column literal,
      .setNullable (e.target f)]

/-- The type of an existing column, put together from what the catalog says of it. -/
def reportedDeclaration (c : CatalogColumn) : String :=
  match c.typeCode with
  | .char | .varchar | .binary | .varbinary =>
    if 0 < c.size then c.typeName ++ s!"({c.size})" else c.typeName
  | .decimal | .numeric =>
    if 0 < c.size then c.typeName ++ s!"({c.size},{c.decimalDigits})" else c.typeName
  | _ => c.typeName

/-- Lets an existing column be NULL that no field stands for any more. -/
def relaxColumn (e : Entity) (d : Dialect) (c : CatalogColumn) : Statement :=
  .setNullable
    { table := e.table
      column := d.naming.name c.name
      typeDecl := reportedDeclaration c
      nullable := true
      defaultLiteral := c.defaultValue
      hadDefault := c.defaultValue.isSome }

/-- Renames the table. -/
def renameTable (e : Entity) (d : Dialect) (newTable : String) : Statement :=
  .renameTable e.table (d.naming.name newTable)

/-- Gives an old column the name that the field's column has. -/
def renameColumn (e : Entity) (d : Dialect) (fieldName oldColumn : String) :
    Except Error Statement := do
  let f ← e.tableField fieldName
  return .renameColumn { e.target f with column := d.naming.name oldColumn } f.column

/-- Drops a column. -/
def dropColumn (e : Entity) (d : Dialect) (column : String) : Statement :=
  .dropColumn e.table (d.naming.name column)

end SqlDialects.Entity
