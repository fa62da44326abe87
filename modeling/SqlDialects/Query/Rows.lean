import SqlDialects.Query.Command

/-!
Statements on single rows of an entity, by primary key and perhaps by the version that the row is
expected to have, and the count of rows.
-/

namespace SqlDialects.Entity

/-- Parameters of fields, numbered in order from one. -/
def parameters (fields : List Field) : List Parameter :=
  fields.mapIdx fun i f => f.parameter (i + 1)

/-- Result columns of fields, numbered in order from one. -/
def results (fields : List Field) : List ResultColumn :=
  fields.mapIdx fun i f => f.result (i + 1)

/-- Columns of fields as they are written. -/
def writtenColumns (fields : List Field) : List String := fields.map (·.column.written)

/-- Inserts a row; a generated key is left out. -/
def insert (e : Entity) : PreparedStatement :=
  let fields := e.tableFields.filter fun f => !f.isIdentity
  { command := .insert e.table.written (writtenColumns fields), parameters := parameters fields }

/-- The key of a row: its primary key, and its version where that is asked for. -/
def key (e : Entity) (withVersion : Bool) : Except Error (List Field) := do
  if withVersion then
    let version ← e.versionField
    return [← e.primaryField, version]
  else return [← e.primaryField]

/-- Selects the row of a key. -/
def findByKey (e : Entity) (withVersion : Bool) : Except Error PreparedStatement := do
  let key ← e.key withVersion
  return {
    command := .find e.table.written (writtenColumns e.tableFields) (writtenColumns key)
    parameters := parameters key
    results := results e.tableFields }

/-- Updates all but the primary key in the row of a key. -/
def updateByKey (e : Entity) (withVersion : Bool) : Except Error PreparedStatement := do
  let key ← e.key withVersion
  let fields := e.tableFields.filter fun f => !f.primaryKey
  return {
    command := .update e.table.written (writtenColumns fields) (writtenColumns key)
    parameters := parameters (fields ++ key) }

/-- Deletes the row of a key. -/
def deleteByKey (e : Entity) (withVersion : Bool) : Except Error PreparedStatement := do
  let key ← e.key withVersion
  return { command := .delete e.table.written (writtenColumns key), parameters := parameters key }

/-- Counts the rows of the table that meet a condition. -/
def count (e : Entity) (filter : Option BoundCondition) : PreparedStatement :=
  { command := .count e.table.written (filter.map (·.condition))
    parameters := match filter with
      | some c => numbered c.parameters
      | none => []
    results := [⟨.index 1, .long, 0, "count"⟩] }

end SqlDialects.Entity
