import SqlDialects.Entity.Basic

/-!
Entities of one dialect by name. The first registration of a name holds.
-/

namespace SqlDialects

/-- Registered entities, in the order in which they came. -/
structure Registry where
  dialect : Dialect
  entities : List Entity := []

namespace Registry

/-- The entity of a name. -/
def get? (r : Registry) (name : String) : Option Entity := r.entities.find? (·.name == name)

/-- The entity of a name, which has to be registered. -/
def get (r : Registry) (name : String) : Except Error Entity :=
  match r.get? name with
  | some e => .ok e
  | none => .error (.unknownEntity name)

/-- Registers a description, and answers with the entity that its name has from now on. -/
def register (r : Registry) (e : EntitySpec) : Except Error (Entity × Registry) :=
  match r.get? e.name with
  | some found => .ok (found, r)
  | none => do
    let entity ← Entity.ofSpec r.dialect e
    return (entity, { r with entities := r.entities ++ [entity] })

/-- Number of entities. -/
def size (r : Registry) : Nat := r.entities.length

end Registry

end SqlDialects
