import SqlDialects.Entity.Registry

/-!
The order in which entities are brought up to date: each one after those that its foreign keys refer
to, as far as they do not refer to each other in a circle.
-/

namespace SqlDialects

/-- Names of the other entities that the table of an entity refers to, field by field. -/
def Entity.references (e : Entity) : List String :=
  (e.tableFields.filterMap fun f => f.foreignKey.map (·.entity)).filter (· != e.name)

namespace ReferenceOrder

/-- Names that were reached, and entities in order. -/
structure Visit where
  visited : List String
  ordered : List Entity

/-- Number of entities whose names were not reached. -/
def unvisited (entities : List Entity) (visited : List String) : Nat :=
  (entities.filter fun e => !visited.contains e.name).length

theorem unvisited_cons_le (entities : List Entity) (visited : List String) (name : String) :
    unvisited entities (name :: visited) ≤ unvisited entities visited := by
  induction entities with
  | nil => exact Nat.le_refl _
  | cons e rest ih => grind [unvisited]

theorem unvisited_cons_lt {entities : List Entity} {visited : List String} {e : Entity}
    (he : e ∈ entities) (hv : e.name ∉ visited) :
    unvisited entities (e.name :: visited) < unvisited entities visited := by
  induction entities with
  | nil => cases he
  | cons f rest ih =>
    have hle := unvisited_cons_le rest visited e.name
    grind [unvisited]

theorem mem_of_get? {r : Registry} {name : String} {e : Entity} (h : r.get? name = some e) :
    e ∈ r.entities ∧ e.name = name :=
  ⟨List.mem_of_find?_eq_some h, by simpa using List.find?_some h⟩

/-- Visits the entities of some names: each is entered once, and comes after all that is reached
from it first. -/
def visit (r : Registry) (names : List String) (v : Visit) :
    Except Error { w : Visit // unvisited r.entities w.visited ≤ unvisited r.entities v.visited } :=
  match names with
  | [] => .ok ⟨v, Nat.le_refl _⟩
  | name :: rest =>
    if hv : name ∈ v.visited then visit r rest v
    else
      match h : r.get? name with
      | none => .error (.unknownEntity name)
      | some e =>
        have hlt : unvisited r.entities (name :: v.visited) < unvisited r.entities v.visited := by
          obtain ⟨hm, hn⟩ := mem_of_get? h
          subst hn
          exact unvisited_cons_lt hm hv
        match visit r e.references ⟨name :: v.visited, v.ordered⟩ with
        | .error err => .error err
        | .ok ⟨w, hw⟩ =>
          have hstep : unvisited r.entities w.visited < unvisited r.entities v.visited :=
            Nat.lt_of_le_of_lt hw hlt
          match visit r rest ⟨w.visited, w.ordered ++ [e]⟩ with
          | .error err => .error err
          | .ok ⟨x, hx⟩ => .ok ⟨x, Nat.le_trans hx (Nat.le_trans hw (Nat.le_of_lt hlt))⟩
termination_by (unvisited r.entities v.visited, names.length)

end ReferenceOrder

/-- The entities of some names and all that they refer to, in order. -/
def Registry.referenceOrder (r : Registry) (names : List String) : Except Error (List Entity) :=
  (ReferenceOrder.visit r names ⟨[], []⟩).map fun w => w.val.ordered

end SqlDialects
