import SqlDialects.Json.Parser
import SqlDialects.Schema.Field

/-!
Descriptions of entities: a table, perhaps a view, fields and constraints. A description is checked
when it is finished or read.
-/

namespace SqlDialects

/-- An index over fields, in order. -/
structure IndexSpec where
  name : String
  fieldNames : List String
  unique : Bool := false
deriving DecidableEq, Repr

/-- A unique constraint over fields, in order. -/
structure UniqueSpec where
  name : String
  fieldNames : List String
deriving DecidableEq, Repr

/-- A check that a field has one of the allowed values. -/
structure CheckSpec where
  name : String
  fieldName : String
  allowed : List String
deriving DecidableEq, Repr

/-- Description of an entity. -/
structure EntitySpec where
  name : String
  /-- Table, as given. -/
  table : String
  /-- View, as given, for an entity that has one. -/
  view : Option String := none
  /-- Schema, in place of the dialect's. -/
  schema : Option String := none
  fields : List FieldSpec := []
  indexes : List IndexSpec := []
  uniqueConstraints : List UniqueSpec := []
  checkConstraints : List CheckSpec := []
deriving DecidableEq, Repr

namespace EntitySpec

/-- An entity with the table that its name stands for. -/
def named (name : String) : EntitySpec := { name, table := Text.upperSnake name }

/-- The field of a name. -/
def field (e : EntitySpec) (name : String) : Except Error FieldSpec :=
  match e.fields.find? (·.name == name) with
  | some f => .ok f
  | none => .error (.unknownField e.name name)

/-- Fields that the constraints name, in order. -/
def constrainedNames (e : EntitySpec) : List String :=
  e.indexes.flatMap (·.fieldNames) ++ e.uniqueConstraints.flatMap (·.fieldNames)
    ++ e.checkConstraints.map (·.fieldName)

/-- A constrained field has to be in the table. -/
def checkConstrained (e : EntitySpec) (name : String) : Except Error Unit := do
  let f ← e.field name
  if f.isViewOnly then .error (.unknownField e.name name) else .ok ()

/-- A version is the only one of its entity, an integer and in the table. -/
def isGoodVersion (f : FieldSpec) (earlier : List FieldSpec) : Bool :=
  !earlier.any (·.version) && f.type.isIntegral && !f.isViewOnly

/-- The key of a list-only field has to be a foreign key. -/
def checkSource (e : EntitySpec) (s : ViewSource) : Except Error Unit := do
  let key ← e.field s.keyField
  if key.foreignKey.isSome then .ok () else .error (.unknownField e.name s.keyField)

/-- Checks a field after the ones before it: its marker, its version and its source. -/
def checkField (e : EntitySpec) (earlier : List FieldSpec) (f : FieldSpec) :
    Except Error Unit := do
  if earlier.any fun g => g.marker == f.marker then
    throw (.config (.duplicateMarker e.name f.marker))
  if f.version && !isGoodVersion f earlier then
    throw (.config (.badVersion e.name f.name))
  match f.viewSource with
  | some source => e.checkSource source
  | none => .ok ()

/-- Checks fields after the ones before them. -/
def checkFields (e : EntitySpec) (earlier : List FieldSpec) : List FieldSpec → Except Error Unit
  | [] => .ok ()
  | f :: rest => do
    e.checkField earlier f
    e.checkFields (earlier ++ [f]) rest

/-- Checks a description: its constraints first, then its fields in order. -/
def validate (e : EntitySpec) : Except Error Unit := do
  e.constrainedNames.forM e.checkConstrained
  e.checkFields [] e.fields

/-- The description with the view that its list-only fields need, if it names none. -/
def withView (e : EntitySpec) : EntitySpec :=
  if e.view.isNone && e.fields.any (·.isViewOnly) then { e with view := some ("V_" ++ e.table) }
  else e

/-- Finishes a description. -/
def build (e : EntitySpec) : Except Error EntitySpec := do
  e.withView.validate
  return e.withView

/-- The first field of a name settled, in the list. -/
def resolveIn (name : String) (type : ColumnType) (enumType : Option String) :
    List FieldSpec → Except Error (List FieldSpec)
  | [] => .ok []
  | f :: rest =>
    if f.name = name then do return (← f.resolve type enumType) :: rest
    else do return f :: (← resolveIn name type enumType rest)

/-- The type of a field settled. -/
def resolveField (e : EntitySpec) (name : String) (type : ColumnType)
    (enumType : Option String) : Except Error EntitySpec := do
  let _ ← e.field name
  return { e with fields := ← resolveIn name type enumType e.fields }

end EntitySpec

/-- An index from JSON. -/
def IndexSpec.ofJson? (j : Json) : Option IndexSpec := do
  let f ← j.fields? ["name", "field_names", "unique"]
  return {
    name := ← f.required "name" Json.text?
    fieldNames := ← f.required "field_names" (Json.list? Json.text?)
    unique := ← f.orElse "unique" false Json.bool? }

instance : ToJson IndexSpec where
  toJson i := .record [
    ("name", .text i.name), ("field_names", .texts i.fieldNames), ("unique", .bool i.unique)]

/-- A unique constraint from JSON. -/
def UniqueSpec.ofJson? (j : Json) : Option UniqueSpec := do
  let f ← j.fields? ["name", "field_names"]
  return {
    name := ← f.required "name" Json.text?
    fieldNames := ← f.required "field_names" (Json.list? Json.text?) }

instance : ToJson UniqueSpec where
  toJson u := .record [("name", .text u.name), ("field_names", .texts u.fieldNames)]

/-- A check constraint from JSON. -/
def CheckSpec.ofJson? (j : Json) : Option CheckSpec := do
  let f ← j.fields? ["name", "field_name", "allowed"]
  return {
    name := ← f.required "name" Json.text?
    fieldName := ← f.required "field_name" Json.text?
    allowed := ← f.required "allowed" (Json.list? Json.text?) }

instance : ToJson CheckSpec where
  toJson c := .record [
    ("name", .text c.name), ("field_name", .text c.fieldName), ("allowed", .texts c.allowed)]

namespace EntitySpec

/-- A description from JSON, not checked yet. -/
def ofJson? (j : Json) : Option EntitySpec := do
  let f ← j.fields? ["name", "table", "view", "schema", "fields", "indexes",
    "unique_constraints", "check_constraints"]
  return {
    name := ← f.required "name" Json.text?
    table := ← f.required "table" Json.text?
    view := ← f.orElse "view" none (Json.option? Json.text?)
    schema := ← f.orElse "schema" none (Json.option? Json.text?)
    fields := ← f.required "fields" (Json.list? FieldSpec.ofJson?)
    indexes := ← f.orElse "indexes" [] (Json.list? IndexSpec.ofJson?)
    uniqueConstraints := ← f.orElse "unique_constraints" [] (Json.list? UniqueSpec.ofJson?)
    checkConstraints := ← f.orElse "check_constraints" [] (Json.list? CheckSpec.ofJson?) }

instance : ToJson EntitySpec where
  toJson e := .record [
    ("name", .text e.name), ("table", .text e.table), ("view", .option .text e.view),
    ("schema", .option .text e.schema), ("fields", .array (e.fields.map toJson)),
    ("indexes", .array (e.indexes.map toJson)),
    ("unique_constraints", .array (e.uniqueConstraints.map toJson)),
    ("check_constraints", .array (e.checkConstraints.map toJson))]

/-- Reads a description from JSON text and checks it. -/
def read (text : String) : Except Error EntitySpec := do
  match (Json.parse? text).bind ofJson? with
  | some e =>
    e.validate
    return e
  | none => throw .malformed

end EntitySpec

end SqlDialects
