import SqlDialects.Dialect.Builtin
import SqlDialects.Schema.Entity

/-!
Entities as a dialect sees them: names as they are written, types as they are declared, defaults as
literals.
-/

namespace SqlDialects

/-- A field in a dialect. -/
structure Field where
  name : String
  column : Name
  /-- The type of the description. -/
  declaredType : ColumnType
  /-- The type of the column, which for a long string is a large object. -/
  columnType : ColumnType
  typeDecl : String
  length : Nat
  precision : Nat
  scale : Nat
  nullable : Bool
  primaryKey : Bool
  defaultValue : Option String
  defaultLiteral : Option String
  foreignKey : Option FieldReference
  viewSource : Option ViewSource
  version : Bool
  marker : String
deriving DecidableEq, Repr

namespace Field

/-- A field of a description, if its default is one of its type. -/
def ofSpec (d : Dialect) (f : FieldSpec) : Except Error Field := do
  let columnType := d.storedType f.type f.length
  let rule := d.columnRule columnType
  let defaultLiteral ← f.defaultValue.mapM rule.defaultLiteral
  return {
    name := f.name
    column := d.naming.name f.column
    declaredType := f.type
    columnType
    typeDecl := rule.declaration f.length f.precision f.scale
    length := f.length
    precision := f.precision
    scale := f.scale
    nullable := f.nullable
    primaryKey := f.primaryKey
    defaultValue := f.defaultValue
    defaultLiteral
    foreignKey := f.foreignKey
    viewSource := f.viewSource
    version := f.version
    marker := f.marker }

/-- Whether only the view has the field. -/
def isViewOnly (f : Field) : Bool := f.viewSource.isSome

/-- Whether the database generates the values: those of an integral key are. -/
def isIdentity (f : Field) : Bool :=
  f.primaryKey && (f.columnType == .integer || f.columnType == .long)

end Field

/-- An entity in a dialect. -/
structure Entity where
  name : String
  schema : Option String
  table : Name
  view : Option Name
  fields : List Field
  /-- The description it comes from. -/
  source : EntitySpec
deriving DecidableEq, Repr

namespace Entity

/-- A name in a schema. -/
def qualifiedName (d : Dialect) (schema : Option String) (raw : String) : Name :=
  ⟨raw, d.naming.writtenIn schema raw⟩

/-- An entity of a description. Its own schema comes before the dialect's. -/
def ofSpec (d : Dialect) (e : EntitySpec) : Except Error Entity := do
  let schema := e.schema.or d.naming.defaultSchema
  let fields ← e.fields.mapM (Field.ofSpec d)
  return {
    name := e.name
    schema
    table := qualifiedName d schema e.table
    view := e.view.map (qualifiedName d schema)
    fields
    source := e }

/-- A field that the entity does not have. -/
def noField {α : Type} (e : Entity) (field : String) : Except Error α :=
  .error (.unknownField e.name field)

/-- The field of a name; the last one, if several have it. -/
def field (e : Entity) (name : String) : Except Error Field :=
  match e.fields.reverse.find? (·.name == name) with
  | some f => .ok f
  | none => e.noField name

/-- The field of a name, if the table has it. -/
def tableField (e : Entity) (name : String) : Except Error Field := do
  let f ← e.field name
  if f.isViewOnly then e.noField name else .ok f

/-- The field of a column, ignoring case. -/
def fieldOfColumn? (e : Entity) (column : String) : Option Field :=
  e.fields.find? fun f => Text.sameName f.column.raw column

/-- The field of a marker. -/
def fieldOfMarker? (e : Entity) (marker : String) : Option Field :=
  e.fields.find? (·.marker == marker)

/-- The primary key. -/
def primaryField? (e : Entity) : Option Field := e.fields.find? (·.primaryKey)

/-- The field that counts versions. -/
def versionField? (e : Entity) : Option Field := e.fields.find? (·.version)

/-- Fields of the table. -/
def tableFields (e : Entity) : List Field := e.fields.filter fun f => !f.isViewOnly

/-- Fields of the view alone. -/
def viewFields (e : Entity) : List Field := e.fields.filter (·.isViewOnly)

/-- Columns of some fields. -/
def columns (e : Entity) (names : List String) : Except Error (List Name) :=
  names.mapM fun name => return (← e.field name).column

/-- The primary key, which a statement needs. -/
def primaryField (e : Entity) : Except Error Field :=
  match e.primaryField? with
  | some f => .ok f
  | none => e.noField "<primary key>"

/-- The field that counts versions, which a statement needs. -/
def versionField (e : Entity) : Except Error Field :=
  match e.versionField? with
  | some f => .ok f
  | none => e.noField "<version>"

/-- What the statements on a column need to know, for a column without a default yet. -/
def target (e : Entity) (f : Field) : ColumnChange :=
  { table := e.table
    column := f.column
    typeDecl := f.typeDecl
    nullable := f.nullable
    defaultLiteral := f.defaultLiteral
    hadDefault := false }

/-- A field as a new column is declared. -/
def definition (e : Entity) (f : Field) : ColumnDefinition :=
  { target := e.target f, isIdentity := f.isIdentity, isPrimaryKey := f.primaryKey }

end Entity

end SqlDialects
