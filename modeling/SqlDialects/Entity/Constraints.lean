import SqlDialects.Entity.Tables

/-!
Statements that add and drop indexes and constraints of an entity's table.
-/

namespace SqlDialects.Entity

/-- Creates an index. -/
def createIndex (e : Entity) (d : Dialect) (i : IndexSpec) : Except Error Statement := do
  return .createIndex e.table (d.naming.name i.name) (← e.columns i.fieldNames) i.unique

/-- Drops an index. -/
def dropIndex (e : Entity) (d : Dialect) (name : String) : Statement :=
  .dropIndex e.table (d.naming.name name)

/-- Adds a unique constraint. -/
def addUnique (e : Entity) (d : Dialect) (u : UniqueSpec) : Except Error Statement := do
  return .addUnique e.table (d.naming.name u.name) (← e.columns u.fieldNames)

/-- Drops a unique constraint. -/
def dropUnique (e : Entity) (d : Dialect) (name : String) : Statement :=
  .dropUnique e.table (d.naming.name name)

/-- Name of the foreign key of a field. -/
def foreignKeyName (e : Entity) (f : Field) : String :=
  Text.asciiUpper ("FK_" ++ e.table.raw ++ "_" ++ f.column.raw)

/-- Adds the foreign key of a field, to the registered entity that it refers to. -/
def addForeignKey (e : Entity) (r : Registry) (fieldName : String) : Except Error Statement := do
  let f ← e.tableField fieldName
  match f.foreignKey with
  | none => e.noField fieldName
  | some reference =>
    let target ← r.get reference.entity
    let targetField ← target.field reference.field
    return .addForeignKey e.table (r.dialect.naming.name (e.foreignKeyName f)) f.column
      target.table targetField.column

/-- Drops a foreign key. -/
def dropForeignKey (e : Entity) (d : Dialect) (name : String) : Statement :=
  .dropForeignKey e.table (d.naming.name name)

/-- Adds a check that a field has one of the allowed values. -/
def addCheck (e : Entity) (d : Dialect) (c : CheckSpec) : Except Error Statement := do
  let f ← e.tableField c.fieldName
  let literals ← c.allowed.mapM (d.columnRule f.columnType).defaultLiteral
  return .addCheck e.table (d.naming.name c.name) f.column literals

/-- Drops a check. -/
def dropCheck (e : Entity) (d : Dialect) (name : String) : Statement :=
  .dropCheck e.table (d.naming.name name)

end SqlDialects.Entity
