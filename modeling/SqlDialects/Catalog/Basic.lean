import SqlDialects.Error
import SqlDialects.Json.Decoding
import SqlDialects.Json.Parser
import SqlDialects.TypeCode
import SqlDialects.Text.Ascii

/-!
What a database reports of its tables and views. Names are compared without regard to the case of
the letters A to Z.
-/

namespace SqlDialects

/-- A column as reported. -/
structure CatalogColumn where
  name : String
  typeCode : TypeCode
  typeName : String := ""
  /-- Length of a string, or precision of a number. -/
  size : Nat := 0
  decimalDigits : Nat := 0
  nullable : Bool
  defaultValue : Option String := none
deriving DecidableEq, Repr

/-- Kind of a catalog object. -/
inductive ObjectKind where
  | table
  | view
deriving DecidableEq, Repr

namespace ObjectKind

/-- Name in descriptions and messages. -/
def name : ObjectKind → String
  | .table => "table"
  | .view => "view"

/-- The kind of a name. -/
def ofName? (name : String) : Option ObjectKind :=
  [ObjectKind.table, .view].find? (·.name == name)

end ObjectKind

/-- A foreign key as reported. -/
structure CatalogForeignKey where
  name : String
  refTable : String
  refColumns : List String
deriving DecidableEq, Repr

/-- An index as reported. -/
structure CatalogIndex where
  name : String
  columns : List String
  unique : Bool := false
deriving DecidableEq, Repr

/-- A unique constraint as reported. -/
structure CatalogUnique where
  name : String
  columns : List String
deriving DecidableEq, Repr

/-- A table or view as reported. -/
structure CatalogObject where
  name : String
  kind : ObjectKind := .table
  columns : List CatalogColumn := []
  foreignKeys : List CatalogForeignKey := []
  indexes : List CatalogIndex := []
  uniqueConstraints : List CatalogUnique := []
  /-- Names of the check constraints. -/
  checkConstraints : List String := []
deriving DecidableEq, Repr

/-- The objects of a schema. -/
structure Catalog where
  objects : List CatalogObject := []
deriving DecidableEq, Repr

/-- The column of a name. -/
def CatalogObject.column? (o : CatalogObject) (name : String) : Option CatalogColumn :=
  o.columns.find? fun c => Text.sameName c.name name

/-- The object of a name. -/
def Catalog.find? (c : Catalog) (name : String) : Option CatalogObject :=
  c.objects.find? fun o => Text.sameName o.name name

/-- A column from JSON. -/
def CatalogColumn.ofJson? (j : Json) : Option CatalogColumn := do
  let f ← j.fields? ["name", "native_type", "type_name", "size", "decimal_digits", "nullable",
    "default_val"]
  return {
    name := ← f.required "name" Json.text?
    typeCode := ← f.required "native_type" (Json.named? TypeCode.ofName?)
    typeName := ← f.orElse "type_name" "" Json.text?
    size := ← f.orElse "size" 0 Json.size?
    decimalDigits := ← f.orElse "decimal_digits" 0 Json.size?
    nullable := ← f.required "nullable" Json.bool?
    defaultValue := ← f.orElse "default_val" none (Json.option? Json.text?) }

instance : ToJson CatalogColumn where
  toJson c := .record [
    ("name", .text c.name), ("native_type", .text c.typeCode.name),
    ("type_name", .text c.typeName), ("size", .nat c.size),
    ("decimal_digits", .nat c.decimalDigits), ("nullable", .bool c.nullable),
    ("default_val", .option .text c.defaultValue)]

/-- A foreign key from JSON. -/
def CatalogForeignKey.ofJson? (j : Json) : Option CatalogForeignKey := do
  let f ← j.fields? ["name", "ref_table", "ref_columns"]
  return {
    name := ← f.required "name" Json.text?
    refTable := ← f.required "ref_table" Json.text?
    refColumns := ← f.required "ref_columns" (Json.list? Json.text?) }

instance : ToJson CatalogForeignKey where
  toJson k := .record [
    ("name", .text k.name), ("ref_table", .text k.refTable), ("ref_columns", .texts k.refColumns)]

/-- An index from JSON. -/
def CatalogIndex.ofJson? (j : Json) : Option CatalogIndex := do
  let f ← j.fields? ["name", "columns", "unique"]
  return {
    name := ← f.required "name" Json.text?
    columns := ← f.required "columns" (Json.list? Json.text?)
    unique := ← f.orElse "unique" false Json.bool? }

instance : ToJson CatalogIndex where
  toJson i := .record [
    ("name", .text i.name), ("columns", .texts i.columns), ("unique", .bool i.unique)]

/-- A unique constraint from JSON. -/
def CatalogUnique.ofJson? (j : Json) : Option CatalogUnique := do
  let f ← j.fields? ["name", "columns"]
  return {
    name := ← f.required "name" Json.text?
    columns := ← f.required "columns" (Json.list? Json.text?) }

instance : ToJson CatalogUnique where
  toJson u := .record [("name", .text u.name), ("columns", .texts u.columns)]

/-- A table or view from JSON. -/
def CatalogObject.ofJson? (j : Json) : Option CatalogObject := do
  let f ← j.fields? ["name", "object_type", "columns", "foreign_keys", "indexes",
    "unique_constraints", "check_constraints"]
  return {
    name := ← f.required "name" Json.text?
    kind := ← f.orElse "object_type" .table (Json.named? ObjectKind.ofName?)
    columns := ← f.orElse "columns" [] (Json.list? CatalogColumn.ofJson?)
    foreignKeys := ← f.orElse "foreign_keys" [] (Json.list? CatalogForeignKey.ofJson?)
    indexes := ← f.orElse "indexes" [] (Json.list? CatalogIndex.ofJson?)
    uniqueConstraints := ← f.orElse "unique_constraints" [] (Json.list? CatalogUnique.ofJson?)
    checkConstraints := ← f.orElse "check_constraints" [] (Json.list? Json.text?) }

instance : ToJson CatalogObject where
  toJson o := .record [
    ("name", .text o.name), ("object_type", .text o.kind.name),
    ("columns", .array (o.columns.map toJson)),
    ("foreign_keys", .array (o.foreignKeys.map toJson)),
    ("indexes", .array (o.indexes.map toJson)),
    ("unique_constraints", .array (o.uniqueConstraints.map toJson)),
    ("check_constraints", .texts o.checkConstraints)]

/-- A catalog from JSON. -/
def Catalog.ofJson? (j : Json) : Option Catalog := do
  let f ← j.fields? ["tables"]
  return { objects := ← f.orElse "tables" [] (Json.list? CatalogObject.ofJson?) }

instance : ToJson Catalog where
  toJson c := .record [("tables", .array (c.objects.map toJson))]

/-- Reads a catalog from JSON text. -/
def Catalog.read? (text : String) : Option Catalog := (Json.parse? text).bind ofJson?

end SqlDialects
