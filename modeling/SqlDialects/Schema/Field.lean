import SqlDialects.Error
import SqlDialects.Json.Decoding
import SqlDialects.Text.Ascii

/-!
Descriptions of the fields of an entity, which no dialect has a part in.
-/

namespace SqlDialects

/-- The field of another entity that a field refers to. -/
structure FieldReference where
  entity : String
  field : String
deriving DecidableEq, Repr

/-- Where a field comes from that only the view has: a field of the entity that a key refers to. -/
structure ViewSource where
  keyField : String
  sourceField : String
deriving DecidableEq, Repr

/-- Description of a field. -/
structure FieldSpec where
  name : String
  /-- Column, as given. -/
  column : String
  type : ColumnType
  /-- Enumeration that a code belongs to. -/
  enumType : Option String := none
  /-- Declared length; zero where none is. -/
  length : Nat := 0
  precision : Nat := 0
  scale : Nat := 0
  nullable : Bool := false
  /-- Default, as given. -/
  defaultValue : Option String := none
  primaryKey : Bool := false
  foreignKey : Option FieldReference := none
  /-- Where the field comes from, if the table does not have it. -/
  viewSource : Option ViewSource := none
  /-- Whether the field counts the versions of a row. -/
  version : Bool := false
  /-- What identifies the field when it is renamed, if not its name. -/
  givenMarker : Option String := none
  /-- Whether the type has been settled. -/
  resolved : Bool := false
deriving DecidableEq, Repr

namespace FieldSpec

/-- A field with the column that its name stands for. -/
def named (name : String) (type : ColumnType) : FieldSpec :=
  { name, column := Text.upperSnake name, type }

/-- A default, unless it is blank. -/
def withDefault (f : FieldSpec) (raw : String) : FieldSpec :=
  { f with defaultValue := if Text.isAllBlank raw then none else some raw }

/-- The key of its entity, which is never NULL. -/
def asPrimaryKey (f : FieldSpec) : FieldSpec := { f with primaryKey := true, nullable := false }

/-- What identifies the field across renames. -/
def marker (f : FieldSpec) : String := f.givenMarker.getD f.name

/-- Whether only the view has the field. -/
def isViewOnly (f : FieldSpec) : Bool := f.viewSource.isSome

/-- The type settled, which is done once. -/
def resolve (f : FieldSpec) (type : ColumnType) (enumType : Option String) :
    Except Error FieldSpec :=
  if f.resolved then .error (.alreadyResolved f.name)
  else .ok { f with type, enumType, resolved := true }

end FieldSpec

namespace FieldReference

/-- A reference from JSON. -/
def ofJson? (j : Json) : Option FieldReference := do
  let f ← j.fields? ["entity", "field"]
  return { entity := ← f.required "entity" Json.text?, field := ← f.required "field" Json.text? }

instance : ToJson FieldReference where
  toJson r := .record [("entity", .text r.entity), ("field", .text r.field)]

end FieldReference

namespace ViewSource

/-- A source from JSON. -/
def ofJson? (j : Json) : Option ViewSource := do
  let f ← j.fields? ["key_field", "source_field"]
  return {
    keyField := ← f.required "key_field" Json.text?
    sourceField := ← f.required "source_field" Json.text? }

instance : ToJson ViewSource where
  toJson s := .record [("key_field", .text s.keyField), ("source_field", .text s.sourceField)]

end ViewSource

namespace FieldSpec

/-- Names of the fields of a description, in order. -/
def fieldNames : List String :=
  ["name", "column", "column_type", "enum_type", "length", "precision", "scale", "nullable",
    "default_val", "primary_key", "foreign_key", "list_only", "version", "marker", "resolved"]

/-- A description from JSON. -/
def ofJson? (j : Json) : Option FieldSpec := do
  let f ← j.fields? fieldNames
  return {
    name := ← f.required "name" Json.text?
    column := ← f.required "column" Json.text?
    type := ← f.required "column_type" (Json.named? ColumnType.ofCode?)
    enumType := ← f.orElse "enum_type" none (Json.option? Json.text?)
    length := ← f.orElse "length" 0 Json.size?
    precision := ← f.orElse "precision" 0 Json.size?
    scale := ← f.orElse "scale" 0 Json.size?
    nullable := ← f.orElse "nullable" false Json.bool?
    defaultValue := ← f.orElse "default_val" none (Json.option? Json.text?)
    primaryKey := ← f.orElse "primary_key" false Json.bool?
    foreignKey := ← f.orElse "foreign_key" none (Json.option? FieldReference.ofJson?)
    viewSource := ← f.orElse "list_only" none (Json.option? ViewSource.ofJson?)
    version := ← f.orElse "version" false Json.bool?
    givenMarker := ← f.orElse "marker" none (Json.option? Json.text?)
    resolved := ← f.orElse "resolved" false Json.bool? }

/-- Whether the type has been settled is not written. -/
instance : ToJson FieldSpec where
  toJson f := .record [
    ("name", .text f.name), ("column", .text f.column), ("column_type", .text f.type.code),
    ("enum_type", .option .text f.enumType), ("length", .nat f.length),
    ("precision", .nat f.precision), ("scale", .nat f.scale), ("nullable", .bool f.nullable),
    ("default_val", .option .text f.defaultValue), ("primary_key", .bool f.primaryKey),
    ("foreign_key", .option toJson f.foreignKey), ("list_only", .option toJson f.viewSource),
    ("version", .bool f.version), ("marker", .option .text f.givenMarker)]

end FieldSpec

end SqlDialects
