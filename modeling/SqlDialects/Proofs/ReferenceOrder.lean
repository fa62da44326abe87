import SqlDialects.Proofs.Entities
import SqlDialects.Upgrade.Order

/-!
# What the order of entities holds

An upgrade visits entities along their foreign keys. All that it reaches is registered, or it fails.

Results:
1. `ReferenceOrder.isRegistered_of_visit`: what a visit reaches is registered.
2. `ReferenceOrder.run_cons`: a visit enters a name after all that its entity refers to.
3. `Registry.mem_of_referenceOrder`, `Registry.exists_target_of_referenceOrder`: entities in order
   are those of the registry, and so are the ones that their foreign keys refer to.
4. `Registry.nodup_of_referenceOrder`: an entity is in order once.
5. `Registry.isSortedButBack_of_referenceOrder`: an entity comes after all that it refers to, but for
   what leads back to it.
6. `Registry.isSorted_of_referenceOrder`: unless references go in a circle, there is no exception.
-/

namespace SqlDialects

namespace ReferenceOrder

/-- What was reached is registered, with all that it refers to. -/
structure Visit.IsRegistered (v : Visit) (r : Registry) : Prop where
  visited : ∀ name ∈ v.visited, (r.get? name).isSome
  ordered : ∀ e ∈ v.ordered, e ∈ r.entities ∧ ∀ name ∈ e.references, (r.get? name).isSome

theorem Visit.IsRegistered.reach {v : Visit} {r : Registry} (hv : v.IsRegistered r) {name : String}
    (hn : (r.get? name).isSome) : Visit.IsRegistered ⟨name :: v.visited, v.ordered⟩ r where
  visited := List.forall_mem_cons.2 ⟨hn, hv.visited⟩
  ordered := hv.ordered

theorem Visit.IsRegistered.enter {v : Visit} {r : Registry} (hv : v.IsRegistered r) {e : Entity}
    (he : e ∈ r.entities) (href : ∀ name ∈ e.references, (r.get? name).isSome) :
    Visit.IsRegistered ⟨v.visited, v.ordered ++ [e]⟩ r where
  visited := hv.visited
  ordered f hf := by
    rcases List.mem_append.1 hf with hf | hf
    · exact hv.ordered f hf
    · rw [List.mem_singleton.1 hf]
      exact ⟨he, href⟩

theorem isRegistered_of_visit {r : Registry} {names : List String} {v : Visit}
    {w : { w : Visit // unvisited r.entities w.visited ≤ unvisited r.entities v.visited }}
    (hv : v.IsRegistered r) (h : visit r names v = .ok w) :
    w.val.IsRegistered r ∧ ∀ name ∈ names, (r.get? name).isSome := by
  fun_induction visit r names v with
  | case1 v =>
    cases h
    exact ⟨hv, fun _ hn => absurd hn List.not_mem_nil⟩
  | case2 v name rest hvisited ih =>
    obtain ⟨hw, hrest⟩ := ih hv h
    exact ⟨hw, List.forall_mem_cons.2 ⟨hv.visited name hvisited, hrest⟩⟩
  | case3 => cases h
  | case4 => cases h
  | case5 => cases h
  | case6 v name rest _ e he _ w _ hbelow _ x _ hafter ihBelow ihAfter =>
    cases h
    -- First all that the entity refers to is visited, then it is entered, then the rest is visited.
    have hname : (r.get? name).isSome := by rw [he, Option.isSome_some]
    obtain ⟨hw, href⟩ := ihBelow (hv.reach hname) hbelow
    obtain ⟨hx, hrest⟩ := ihAfter (hw.enter (mem_of_get? he).1 href) hafter
    exact ⟨hx, List.forall_mem_cons.2 ⟨hname, hrest⟩⟩

/-! ## A visit step by step -/

/-- A visit without its bound. -/
def run (r : Registry) (names : List String) (v : Visit) : Except Error Visit :=
  (visit r names v).map Subtype.val

variable {r : Registry} {name : String} {rest : List String} {v : Visit}

theorem run_nil : run r [] v = .ok v := by
  rw [run, visit]
  rfl

theorem run_cons_of_mem (h : name ∈ v.visited) : run r (name :: rest) v = run r rest v := by
  rw [run, visit, dif_pos h, run]

theorem run_cons (h : name ∉ v.visited) :
    run r (name :: rest) v = (do
      let e ← r.get name
      let w ← run r e.references ⟨name :: v.visited, v.ordered⟩
      run r rest ⟨w.visited, w.ordered ++ [e]⟩) := by
  rw [run, visit, dif_neg h]
  split
  · next hn =>
    have hget : r.get name = .error (.unknownEntity name) := by simp only [Registry.get, hn]
    rw [hget]
    rfl
  · next e he =>
    have hget : r.get name = .ok e := by simp only [Registry.get, he]
    rw [hget]
    cases hw : visit r e.references ⟨name :: v.visited, v.ordered⟩ with
    | error err => simp [hw, run, bind, Except.bind, Except.map]
    | ok w =>
      cases hx : visit r rest ⟨w.val.visited, w.val.ordered ++ [e]⟩ with
      | error err => simp [hw, hx, run, bind, Except.bind, Except.map]
      | ok x => simp [hw, hx, run, bind, Except.bind, Except.map]

/-! ## What a visit adds -/

/-- A visit adds entities that were not reached before, each once and as the registry has them. -/
structure Visit.Adds (v w : Visit) (r : Registry) (added : List Entity) : Prop where
  ordered : w.ordered = v.ordered ++ added
  visited : v.visited ⊆ w.visited
  fresh : ∀ e ∈ added, e.name ∉ v.visited
  reached : ∀ e ∈ added, e.name ∈ w.visited
  once : (added.map (·.name)).Nodup
  registered : ∀ e ∈ added, r.get? e.name = some e

/-- An entity entered after what it refers to, and before what is visited next. -/
theorem Visit.Adds.enter {v w x : Visit} {r : Registry} {e : Entity} {below after : List Entity}
    (hbelow : Visit.Adds ⟨e.name :: v.visited, v.ordered⟩ w r below)
    (hafter : Visit.Adds ⟨w.visited, w.ordered ++ [e]⟩ x r after) (he : r.get? e.name = some e)
    (hv : e.name ∉ v.visited) : v.Adds x r (below ++ e :: after) where
  ordered := by
    rw [hafter.ordered, hbelow.ordered]
    simp only [List.append_assoc, List.cons_append, List.nil_append]
  visited _ hn := hafter.visited (hbelow.visited (List.mem_cons_of_mem _ hn))
  fresh f hf := by
    rcases List.mem_append.1 hf with hf | hf
    · exact fun hmem => hbelow.fresh f hf (List.mem_cons_of_mem _ hmem)
    · rcases List.mem_cons.1 hf with rfl | hf
      · exact hv
      · exact fun hmem => hafter.fresh f hf (hbelow.visited (List.mem_cons_of_mem _ hmem))
  reached f hf := by
    rcases List.mem_append.1 hf with hf | hf
    · exact hafter.visited (hbelow.reached f hf)
    · rcases List.mem_cons.1 hf with rfl | hf
      · exact hafter.visited (hbelow.visited List.mem_cons_self)
      · exact hafter.reached f hf
  once := by
    rw [List.map_append, List.map_cons, List.nodup_append, List.nodup_cons]
    refine ⟨hbelow.once, ⟨?_, hafter.once⟩, ?_⟩
    · rintro hmem
      obtain ⟨f, hf, hname⟩ := List.mem_map.1 hmem
      exact hafter.fresh f hf (hname ▸ hbelow.visited List.mem_cons_self)
    · rintro a ha b hb rfl
      obtain ⟨f, hf, rfl⟩ := List.mem_map.1 ha
      rcases List.mem_cons.1 hb with hname | hb
      · exact hbelow.fresh f hf (hname ▸ List.mem_cons_self)
      · obtain ⟨g, hg, hname⟩ := List.mem_map.1 hb
        exact hafter.fresh g hg (hname ▸ hbelow.reached f hf)
  registered f hf := by
    rcases List.mem_append.1 hf with hf | hf
    · exact hbelow.registered f hf
    · rcases List.mem_cons.1 hf with rfl | hf
      · exact he
      · exact hafter.registered f hf

theorem exists_adds_of_visit {r : Registry} {names : List String} {v : Visit}
    {w : { w : Visit // unvisited r.entities w.visited ≤ unvisited r.entities v.visited }}
    (h : visit r names v = .ok w) : ∃ added, v.Adds w.val r added := by
  fun_induction visit r names v with
  | case1 v =>
    cases h
    exact ⟨[], by simp, List.Subset.refl _, by simp, by simp, List.nodup_nil, by simp⟩
  | case2 v name rest hvisited ih => exact ih h
  | case3 => cases h
  | case4 => cases h
  | case5 => cases h
  | case6 v name rest hvisited e he _ w _ hbelow _ x _ hafter ihBelow ihAfter =>
    cases h
    obtain rfl := (mem_of_get? he).2
    obtain ⟨below, hbelow⟩ := ihBelow hbelow
    obtain ⟨after, hafter⟩ := ihAfter hafter
    exact ⟨_, hbelow.enter hafter he hvisited⟩

/-! ## References that go in no circle -/

/-- Whether the entity of a name refers to another one. -/
def RefersTo (entities : List Entity) (a b : String) : Prop :=
  ∃ e ∈ entities, e.name = a ∧ b ∈ e.references

/-- Whether following references never comes back to where it started. -/
def IsAcyclic (entities : List Entity) : Prop :=
  ∀ name, ¬Relation.TransGen (RefersTo entities) name name

/-- Whether each entity comes after all that it refers to. -/
def IsSorted (entities : List Entity) : Prop :=
  ∀ first e last, entities = first ++ e :: last → e.references ⊆ first.map (·.name)

/-- Whether each entity comes after all that it refers to, but for what leads back to it. -/
def IsSortedButBack (entities ordered : List Entity) : Prop :=
  ∀ first e last, ordered = first ++ e :: last → ∀ name ∈ e.references,
    name ∈ first.map (·.name) ∨ Relation.TransGen (RefersTo entities) name e.name

theorem IsSortedButBack.concat {entities ordered : List Entity}
    (h : IsSortedButBack entities ordered) {e : Entity}
    (he : ∀ name ∈ e.references, name ∈ ordered.map (·.name) ∨
      Relation.TransGen (RefersTo entities) name e.name) :
    IsSortedButBack entities (ordered ++ [e]) := by
  intro first f last hsplit
  rcases last.eq_nil_or_concat with rfl | ⟨last, g, rfl⟩
  · obtain ⟨rfl, hef⟩ := List.append_inj' hsplit rfl
    cases hef
    exact he
  · rw [List.concat_eq_append, ← List.cons_append, ← List.append_assoc] at hsplit
    exact h first f last (List.append_inj' hsplit rfl).1

/-- Unless references go in a circle, nothing leads back. -/
theorem IsSortedButBack.isSorted {entities : List Entity} (h : IsSortedButBack entities entities)
    (hacyclic : IsAcyclic entities) : IsSorted entities := by
  intro first e last hsplit name hname
  rcases h first e last hsplit name hname with hbefore | hback
  · exact hbefore
  · have hstep : RefersTo entities e.name name := ⟨e, by simp [hsplit], rfl, hname⟩
    exact absurd (hback.head hstep) (hacyclic e.name)

/-- What is reached and not in order yet is still open, and leads to all that is visited below it. So
an entity that finds such a name among its references is one that the name leads to. -/
theorem isSortedButBack_of_visit {entities : List Entity} {r : Registry}
    {names opens : List String} {v : Visit}
    {w : { w : Visit // unvisited r.entities w.visited ≤ unvisited r.entities v.visited }}
    (h : visit r names v = .ok w) (hw : w.val.ordered ⊆ entities)
    (hv : ∀ name ∈ v.visited, name ∈ opens ∨ name ∈ v.ordered.map (·.name))
    (hopens : ∀ a ∈ opens, ∀ b ∈ names, Relation.TransGen (RefersTo entities) a b)
    (hs : IsSortedButBack entities v.ordered) :
    IsSortedButBack entities w.val.ordered ∧
      (∀ name ∈ w.val.visited, name ∈ opens ∨ name ∈ w.val.ordered.map (·.name)) ∧
      ∀ name ∈ names, name ∈ opens ∨ name ∈ w.val.ordered.map (·.name) := by
  fun_induction visit r names v generalizing opens with
  | case1 v =>
    cases h
    exact ⟨hs, hv, fun _ hn => absurd hn List.not_mem_nil⟩
  | case2 v name rest hvisited ih =>
    obtain ⟨hsorted, hreached, hrest⟩ := ih h hw hv
      (fun a ha b hb => hopens a ha b (List.mem_cons_of_mem _ hb)) hs
    refine ⟨hsorted, hreached, List.forall_mem_cons.2 ⟨(hv name hvisited).imp_right ?_, hrest⟩⟩
    intro hdone
    obtain ⟨added, hadds⟩ := exists_adds_of_visit h
    rw [hadds.ordered, List.map_append]
    exact List.mem_append_left _ hdone
  | case3 => cases h
  | case4 => cases h
  | case5 => cases h
  | case6 v name rest hvisited e he _ w _ hbelow _ x _ hafter ihBelow ihAfter =>
    cases h
    obtain rfl := (mem_of_get? he).2
    obtain ⟨after, hadds⟩ := exists_adds_of_visit hafter
    have hx : x.ordered = w.ordered ++ [e] ++ after := hadds.ordered
    have hmem : e ∈ entities := hw (by simp [hx])
    -- The entity is open while what it refers to is visited, and what led to it leads on to that.
    have hopen : ∀ name ∈ e.name :: v.visited,
        name ∈ e.name :: opens ∨ name ∈ v.ordered.map (·.name) := fun name hn => by
      rcases List.mem_cons.1 hn with rfl | hn
      · exact .inl List.mem_cons_self
      · exact (hv name hn).imp_left (List.mem_cons_of_mem _)
    have hpath : ∀ a ∈ e.name :: opens, ∀ b ∈ e.references,
        Relation.TransGen (RefersTo entities) a b := fun a ha b hb => by
      have hstep : RefersTo entities e.name b := ⟨e, hmem, rfl, hb⟩
      rcases List.mem_cons.1 ha with rfl | ha
      · exact .single hstep
      · exact (hopens a ha e.name List.mem_cons_self).tail hstep
    obtain ⟨hsorted, hreached, href⟩ :=
      ihBelow hbelow (fun f hf => hw (by simp [hx, hf])) hopen hpath hs
    have hback : ∀ name ∈ e.references, name ∈ w.ordered.map (·.name) ∨
        Relation.TransGen (RefersTo entities) name e.name := fun name hn => by
      rcases href name hn with hopen | hdone
      · refine .inr ?_
        rcases List.mem_cons.1 hopen with rfl | hopen
        · exact hpath e.name List.mem_cons_self e.name hn
        · exact hopens name hopen e.name List.mem_cons_self
      · exact .inl hdone
    have hclosed : ∀ name ∈ w.visited,
        name ∈ opens ∨ name ∈ (w.ordered ++ [e]).map (·.name) := fun name hn => by
      rw [List.map_append, List.mem_append, List.map_singleton, List.mem_singleton]
      rcases hreached name hn with hopen | hdone
      · exact (List.mem_cons.1 hopen).symm.imp_right .inr
      · exact .inr (.inl hdone)
    obtain ⟨hsorted, hreached, hrest⟩ := ihAfter hafter hw hclosed
      (fun a ha b hb => hopens a ha b (List.mem_cons_of_mem _ hb)) (hsorted.concat hback)
    exact ⟨hsorted, hreached, List.forall_mem_cons.2 ⟨.inr (by simp [hx]), hrest⟩⟩

end ReferenceOrder

theorem Registry.referenceOrder_eq_run (r : Registry) (names : List String) :
    r.referenceOrder names = (ReferenceOrder.run r names ⟨[], []⟩).map (·.ordered) := by
  rw [Registry.referenceOrder, ReferenceOrder.run]
  cases ReferenceOrder.visit r names ⟨[], []⟩ with
  | error _ => rfl
  | ok _ => rfl

/-- The foreign key of a field counts as a reference unless it is to the entity itself. -/
theorem Entity.mem_references {e : Entity} {f : Field} (hf : f ∈ e.tableFields)
    {reference : FieldReference} (href : f.foreignKey = some reference)
    (hother : reference.entity ≠ e.name) : reference.entity ∈ e.references :=
  List.mem_filter.2
    ⟨List.mem_filterMap.2 ⟨f, hf, by rw [href, Option.map_some]⟩, bne_iff_ne.2 hother⟩

theorem Registry.get_eq_ok_iff {r : Registry} {name : String} {e : Entity} :
    r.get name = .ok e ↔ r.get? name = some e := by
  unfold Registry.get
  cases r.get? name with
  | none => simp
  | some found => simp

theorem Registry.get_of_isSome {r : Registry} {name : String} (h : (r.get? name).isSome) :
    ∃ e, r.get name = .ok e := by
  obtain ⟨e, he⟩ := Option.isSome_iff_exists.1 h
  exact ⟨e, Registry.get_eq_ok_iff.2 he⟩

namespace Registry

variable {r : Registry} {names : List String} {entities : List Entity}

theorem isRegistered_of_referenceOrder (h : r.referenceOrder names = .ok entities) {e : Entity}
    (he : e ∈ entities) : e ∈ r.entities ∧ ∀ name ∈ e.references, (r.get? name).isSome := by
  unfold referenceOrder at h
  cases hw : ReferenceOrder.visit r names ⟨[], []⟩ with
  | error err =>
    rw [hw] at h
    cases h
  | ok w =>
    rw [hw] at h
    cases h
    have hstart : ReferenceOrder.Visit.IsRegistered ⟨[], []⟩ r :=
      ⟨fun _ hn => absurd hn List.not_mem_nil, fun _ hf => absurd hf List.not_mem_nil⟩
    exact (ReferenceOrder.isRegistered_of_visit hstart hw).1.ordered e he

/-- Entities in order are those of the registry. -/
theorem mem_of_referenceOrder (h : r.referenceOrder names = .ok entities) {e : Entity}
    (he : e ∈ entities) : e ∈ r.entities := (isRegistered_of_referenceOrder h he).1

/-- Foreign keys of entities in order refer to registered ones. -/
theorem exists_target_of_referenceOrder (h : r.referenceOrder names = .ok entities) {e : Entity}
    (he : e ∈ entities) {f : Field} (hf : f ∈ e.tableFields) {reference : FieldReference}
    (hr : f.foreignKey = some reference) : ∃ target, r.get reference.entity = .ok target := by
  obtain ⟨hmem, href⟩ := isRegistered_of_referenceOrder h he
  refine get_of_isSome ?_
  by_cases hself : reference.entity = e.name
  · -- An entity does not count as a reference of its own, but it is registered.
    rw [hself, get?, List.find?_isSome]
    exact ⟨e, hmem, beq_self_eq_true _⟩
  · exact href _ (Entity.mem_references hf hr hself)

theorem exists_visit_of_referenceOrder (h : r.referenceOrder names = .ok entities) :
    ∃ w, ReferenceOrder.visit r names ⟨[], []⟩ = .ok w ∧ w.val.ordered = entities ∧
      ReferenceOrder.Visit.Adds ⟨[], []⟩ w r entities := by
  unfold referenceOrder at h
  cases hw : ReferenceOrder.visit r names ⟨[], []⟩ with
  | error err =>
    rw [hw] at h
    cases h
  | ok w =>
    rw [hw] at h
    cases h
    obtain ⟨added, hadds⟩ := ReferenceOrder.exists_adds_of_visit hw
    obtain rfl : w.val.ordered = added := hadds.ordered
    exact ⟨w, rfl, rfl, hadds⟩

/-- An entity is in order once. -/
theorem nodup_of_referenceOrder (h : r.referenceOrder names = .ok entities) :
    (entities.map (·.name)).Nodup := by
  obtain ⟨_, _, _, hadds⟩ := exists_visit_of_referenceOrder h
  exact hadds.once

theorem get?_of_referenceOrder (h : r.referenceOrder names = .ok entities) {e : Entity}
    (he : e ∈ entities) : r.get? e.name = some e := by
  obtain ⟨_, _, _, hadds⟩ := exists_visit_of_referenceOrder h
  exact hadds.registered e he

/-- An entity comes after all that it refers to, but for what leads back to it. -/
theorem isSortedButBack_of_referenceOrder (h : r.referenceOrder names = .ok entities) :
    ReferenceOrder.IsSortedButBack entities entities ∧ names ⊆ entities.map (·.name) := by
  obtain ⟨w, hw, rfl, _⟩ := exists_visit_of_referenceOrder h
  have hstart : ReferenceOrder.IsSortedButBack w.val.ordered [] := fun first e last hsplit => by
    cases List.append_eq_nil_iff.1 hsplit.symm |>.2
  obtain ⟨hsorted, _, hnames⟩ := ReferenceOrder.isSortedButBack_of_visit hw (List.Subset.refl _)
    (fun _ hn => absurd hn List.not_mem_nil) (fun _ hn => absurd hn List.not_mem_nil) hstart
  exact ⟨hsorted, fun name hn => (hnames name hn).resolve_left List.not_mem_nil⟩

/-- Unless references go in a circle, an entity comes after all that it refers to. -/
theorem isSorted_of_referenceOrder (h : r.referenceOrder names = .ok entities)
    (hacyclic : ReferenceOrder.IsAcyclic entities) : ReferenceOrder.IsSorted entities :=
  (isSortedButBack_of_referenceOrder h).1.isSorted hacyclic

/-- What an entity in order refers to is in order as well. -/
theorem exists_mem_of_reference (h : r.referenceOrder names = .ok entities) {e : Entity}
    (he : e ∈ entities) {name : String} (hname : name ∈ e.references) :
    ∃ g ∈ entities, g.name = name := by
  obtain ⟨first, last, rfl⟩ := List.append_of_mem he
  rcases (isSortedButBack_of_referenceOrder h).1 first e last rfl name hname with hbefore | hback
  · obtain ⟨g, hg, hgname⟩ := List.mem_map.1 hbefore
    exact ⟨g, List.mem_append_left _ hg, hgname⟩
  · -- What leads back refers to something, so it is an entity in order.
    obtain ⟨_, ⟨g, hg, hgname, _⟩, _⟩ := Relation.TransGen.head'_iff.1 hback
    exact ⟨g, hg, hgname⟩

end Registry

end SqlDialects
