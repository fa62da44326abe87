import SqlDialects.Entity.Basic

/-!
Entities in JSON, with all that a dialect made of their descriptions, and described fields with what
follows from their descriptions.
-/

namespace SqlDialects

/-- A described field with what follows from its description. -/
def FieldSpec.listing (f : FieldSpec) : Json :=
  .record [
    ("name", .text f.name), ("column", .text f.column), ("type", .text f.type.code),
    ("enum_type", .option .text f.enumType), ("length", .nat f.length),
    ("precision", .nat f.precision), ("scale", .nat f.scale), ("nullable", .bool f.nullable),
    ("default_val", .option .text f.defaultValue), ("primary_key", .bool f.primaryKey),
    ("foreign_key", .option toJson f.foreignKey), ("list_only", .option toJson f.viewSource),
    ("is_list_only", .bool f.isViewOnly), ("version", .bool f.version),
    ("marker", .text f.marker), ("resolved", .bool f.resolved)]

instance : ToJson Field where
  toJson f := .record [
    ("name", .text f.name), ("column", .text f.column.written), ("column_name", .text f.column.raw),
    ("declared_type", .text f.declaredType.code), ("column_type", .text f.columnType.code),
    ("type_decl", .text f.typeDecl), ("length", .nat f.length), ("precision", .nat f.precision),
    ("scale", .nat f.scale), ("nullable", .bool f.nullable), ("primary_key", .bool f.primaryKey),
    ("identity", .bool f.isIdentity), ("default_val", .option .text f.defaultValue),
    ("default_literal", .option .text f.defaultLiteral),
    ("foreign_key", .option toJson f.foreignKey), ("list_only", .option toJson f.viewSource),
    ("is_list_only", .bool f.isViewOnly), ("version", .bool f.version), ("marker", .text f.marker)]

/-- Names of some fields. -/
def namesJson (fields : List Field) : Json := .texts (fields.map Field.name)

instance : ToJson Entity where
  toJson e := .record [
    ("name", .text e.name), ("schema", .option .text e.schema), ("table", .text e.table.written),
    ("table_name", .text e.table.raw), ("view", .option (.text ·.written) e.view),
    ("view_name", .option (.text ·.raw) e.view), ("fields", .array (e.fields.map toJson)),
    ("id", .option (.text ·.name) e.primaryField?),
    ("version", .option (.text ·.name) e.versionField?),
    ("table_fields", namesJson e.tableFields), ("list_fields", namesJson e.viewFields),
    ("indexes", .array (e.source.indexes.map toJson)),
    ("unique_constraints", .array (e.source.uniqueConstraints.map toJson)),
    ("check_constraints", .array (e.source.checkConstraints.map toJson)),
    ("source", .text e.source.name)]

end SqlDialects
