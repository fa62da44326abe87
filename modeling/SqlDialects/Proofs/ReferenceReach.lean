import SqlDialects.Proofs.ReferenceOrder

/-!
# What the order of entities reaches

An upgrade is asked for by some names. Its entities are those that foreign keys lead to from there,
whichever way the keys go. The walk over them enters each name once, so it ends in a circle as well.

Results:
1. `ReferenceOrder.closed_of_visit`, `ReferenceOrder.exists_unknown_of_visit`: a visit stays within
   what references lead to, and fails at a name there that is not registered.
2. `Registry.Reaches.exists_mem`: an order holds all that is reached.
3. `Registry.referenceOrder_reaches`: when there is an order, what is in it, and what comes first.
-/

namespace SqlDialects

/-! ## What foreign keys lead to -/

namespace Registry

/-- Whether the table of a registered entity has a foreign key to an entity of another name. -/
def RefersTo (r : Registry) (a b : String) : Prop :=
  ∃ e, r.get? a = some e ∧
    ∃ f ∈ e.tableFields, ∃ reference, f.foreignKey = some reference ∧ reference.entity = b

/-- Whether foreign keys lead from one of some names to another name. -/
def Reaches (r : Registry) (names : List String) (name : String) : Prop :=
  ∃ start ∈ names, Relation.ReflTransGen r.RefersTo start name

theorem Reaches.of_mem {r : Registry} {names : List String} {name : String} (h : name ∈ names) :
    r.Reaches names name := ⟨name, h, .refl⟩

theorem Reaches.step {r : Registry} {names : List String} {a b : String} (h : r.Reaches names a)
    (hab : r.RefersTo a b) : r.Reaches names b := by
  obtain ⟨start, hstart, hpath⟩ := h
  exact ⟨start, hstart, hpath.tail hab⟩

/-- Foreign keys lead to all references of an entity, and besides only to the entity itself. -/
theorem refersTo_iff {r : Registry} {e : Entity} (he : r.get? e.name = some e) {name : String} :
    r.RefersTo e.name name ↔ name ∈ e.references ∨
      name = e.name ∧ ∃ f ∈ e.tableFields, (f.foreignKey.map (·.entity)) = some e.name := by
  have hkey : r.RefersTo e.name name ↔
      ∃ f ∈ e.tableFields, (f.foreignKey.map (·.entity)) = some name := by
    unfold RefersTo
    simp only [he, Option.some.injEq, Option.map_eq_some_iff, exists_eq_left']
  rw [hkey, Entity.references, List.mem_filter, List.mem_filterMap, bne_iff_ne]
  by_cases hself : name = e.name
  · simp [hself]
  · simp [hself]

end Registry

/-! ## A visit stays within what references lead to -/

namespace ReferenceOrder

variable {r : Registry} {names : List String} {v : Visit} {p : String → Prop}

/-- What holds of some names and passes on to what their entities refer to holds of all that a visit
reaches. -/
theorem closed_of_visit (hp : ∀ e, r.get? e.name = some e → p e.name → ∀ name ∈ e.references, p name)
    {w : { w : Visit // unvisited r.entities w.visited ≤ unvisited r.entities v.visited }}
    (h : visit r names v = .ok w) (hnames : ∀ name ∈ names, p name)
    (hv : ∀ name ∈ v.visited, p name) : ∀ name ∈ w.val.visited, p name := by
  fun_induction visit r names v with
  | case1 v =>
    cases h
    exact hv
  | case2 v name rest _ ih => exact ih h (List.forall_mem_cons.1 hnames).2 hv
  | case3 => cases h
  | case4 => cases h
  | case5 => cases h
  | case6 v name rest _ e he _ w _ hbelow _ x _ hafter ihBelow ihAfter =>
    cases h
    obtain rfl := (mem_of_get? he).2
    obtain ⟨hname, hrest⟩ := List.forall_mem_cons.1 hnames
    have hw : ∀ name ∈ w.visited, p name :=
      ihBelow hbelow (hp e he hname) (List.forall_mem_cons.2 ⟨hname, hv⟩)
    exact ihAfter hafter hrest hw

/-- A visit fails at a name that is not registered, within what references lead to. -/
theorem exists_unknown_of_visit
    (hp : ∀ e, r.get? e.name = some e → p e.name → ∀ name ∈ e.references, p name) {err : Error}
    (h : visit r names v = .error err) (hnames : ∀ name ∈ names, p name) :
    ∃ name, p name ∧ r.get? name = none ∧ err = .unknownEntity name := by
  fun_induction visit r names v with
  | case1 => cases h
  | case2 v name rest _ ih => exact ih h (List.forall_mem_cons.1 hnames).2
  | case3 v name rest _ hunknown =>
    cases h
    exact ⟨name, (List.forall_mem_cons.1 hnames).1, hunknown, rfl⟩
  | case4 v name rest _ e he _ _ hbelow ihBelow =>
    cases h
    obtain rfl := (mem_of_get? he).2
    exact ihBelow hbelow (hp e he (List.forall_mem_cons.1 hnames).1)
  | case5 v name rest _ e he _ w _ _ _ _ hafter _ ihAfter =>
    cases h
    exact ihAfter hafter (List.forall_mem_cons.1 hnames).2
  | case6 => cases h

end ReferenceOrder

namespace Registry

variable {r : Registry} {names : List String} {entities : List Entity}

theorem Reaches.references {e : Entity} (he : r.get? e.name = some e) (h : r.Reaches names e.name) :
    ∀ name ∈ e.references, r.Reaches names name :=
  fun _ hname => h.step ((refersTo_iff he).2 (.inl hname))

/-- An order holds only what is reached. -/
theorem reaches_of_mem (h : r.referenceOrder names = .ok entities) {e : Entity}
    (he : e ∈ entities) : r.Reaches names e.name := by
  obtain ⟨w, hw, _, hadds⟩ := exists_visit_of_referenceOrder h
  exact ReferenceOrder.closed_of_visit (fun _ hg hreach => hreach.references hg) hw
    (fun _ hn => .of_mem hn) (fun _ hn => absurd hn List.not_mem_nil) e.name (hadds.reached e he)

/-- An order holds all that is reached. -/
theorem Reaches.exists_mem (h : r.referenceOrder names = .ok entities) {name : String}
    (hreach : r.Reaches names name) : ∃ e ∈ entities, e.name = name := by
  obtain ⟨start, hstart, hpath⟩ := hreach
  induction hpath with
  | refl => exact List.mem_map.1 ((isSortedButBack_of_referenceOrder h).2 hstart)
  | tail _ hstep ih =>
    obtain ⟨e, he, rfl⟩ := ih
    rcases (refersTo_iff (get?_of_referenceOrder h he)).1 hstep with hreference | ⟨rfl, _⟩
    · exact exists_mem_of_reference h he hreference
    · exact ⟨e, he, rfl⟩

theorem exists_unknown_of_referenceOrder {err : Error} (h : r.referenceOrder names = .error err) :
    ∃ name, r.Reaches names name ∧ r.get? name = none ∧ err = .unknownEntity name := by
  unfold referenceOrder at h
  cases hw : ReferenceOrder.visit r names ⟨[], []⟩ with
  | error found =>
    rw [hw] at h
    cases h
    exact ReferenceOrder.exists_unknown_of_visit (fun _ hg hreach => hreach.references hg) hw
      fun _ hn => .of_mem hn
  | ok w =>
    rw [hw] at h
    cases h

/-- The order of the entities of some names. There is none exactly if foreign keys lead to a name
that is not registered, which the error names. Otherwise it holds what foreign keys lead to, each
entity once and nothing else; and unless references go in a circle, the entities that the keys of a
table refer to come before it, itself aside. -/
theorem referenceOrder_reaches (r : Registry) (names : List String) :
    ((∃ err, r.referenceOrder names = .error err) ↔
        ∃ name, r.Reaches names name ∧ r.get? name = none) ∧
      (∀ err, r.referenceOrder names = .error err →
        ∃ name, r.Reaches names name ∧ r.get? name = none ∧ err = .unknownEntity name) ∧
      ∀ entities, r.referenceOrder names = .ok entities →
        (∀ e, e ∈ entities ↔ r.Reaches names e.name ∧ r.get? e.name = some e) ∧
        (∀ name, r.Reaches names name → ∃ e ∈ entities, e.name = name) ∧
        (entities.map (·.name)).Nodup ∧
        (ReferenceOrder.IsAcyclic entities →
          ∀ first e last, entities = first ++ e :: last → ∀ f ∈ e.tableFields, ∀ reference,
            f.foreignKey = some reference → reference.entity ≠ e.name →
              ∃ g ∈ first, r.get reference.entity = .ok g) := by
  refine ⟨⟨?_, ?_⟩, fun err h => exists_unknown_of_referenceOrder h, fun entities h => ?_⟩
  · rintro ⟨err, h⟩
    obtain ⟨name, hreach, hunknown, _⟩ := exists_unknown_of_referenceOrder h
    exact ⟨name, hreach, hunknown⟩
  · rintro ⟨name, hreach, hunknown⟩
    cases h : r.referenceOrder names with
    | error err => exact ⟨err, rfl⟩
    | ok entities =>
      obtain ⟨e, he, rfl⟩ := hreach.exists_mem h
      rw [get?_of_referenceOrder h he] at hunknown
      cases hunknown
  · refine ⟨fun e => ⟨fun he => ⟨reaches_of_mem h he, get?_of_referenceOrder h he⟩, ?_⟩,
      fun name hreach => hreach.exists_mem h, nodup_of_referenceOrder h, ?_⟩
    · rintro ⟨hreach, hget⟩
      obtain ⟨g, hg, hname⟩ := hreach.exists_mem h
      have hfound := get?_of_referenceOrder h hg
      rw [hname, hget] at hfound
      cases hfound
      exact hg
    · intro hacyclic first e last hsplit f hf reference href hother
      have hmem : reference.entity ∈ e.references := Entity.mem_references hf href hother
      obtain ⟨g, hg, hname⟩ :=
        List.mem_map.1 (isSorted_of_referenceOrder h hacyclic first e last hsplit hmem)
      have hget := get?_of_referenceOrder h (e := g) (by simp [hsplit, hg])
      rw [hname] at hget
      exact ⟨g, hg, get_eq_ok_iff.2 hget⟩

end Registry

/-! ## Teams and their captains -/

/-- Teams, each with a captain, and perhaps within another team. -/
def teamSpec : EntitySpec :=
  { EntitySpec.named "Team" with
    fields := [(FieldSpec.named "id" .long).asPrimaryKey,
      { FieldSpec.named "parent" .long with foreignKey := some ⟨"Team", "id"⟩, nullable := true },
      { FieldSpec.named "captain" .long with foreignKey := some ⟨"Player", "id"⟩ }] }

/-- Players, each in a team. -/
def playerSpec : EntitySpec :=
  { EntitySpec.named "Player" with
    fields := [(FieldSpec.named "id" .long).asPrimaryKey,
      { FieldSpec.named "team" .long with foreignKey := some ⟨"Team", "id"⟩ }] }

/-- A registry of teams and players, which refer to each other. -/
def teamRegistry : Registry := Registry.ofSpecs (Dialect.builtin .hsqldb) [teamSpec, playerSpec]

theorem isReachable_teamRegistry : teamRegistry.IsReachable := by
  refine Registry.isReachable_ofSpecs ?_
  simp only [List.forall_mem_cons]
  exact ⟨EntitySpec.isFinished_of_build (by decide), EntitySpec.isFinished_of_build (by decide),
    fun _ h => absurd h List.not_mem_nil⟩

theorem exists_entities_teamRegistry :
    ∃ team player, teamRegistry.entities = [team, player] ∧
      teamRegistry.get "Team" = .ok team ∧ team.references = ["Player"] ∧
      teamRegistry.get "Player" = .ok player ∧ player.references = ["Team"] := by
  obtain ⟨team, player, he⟩ : ∃ team player, teamRegistry.entities = [team, player] := ⟨_, _, rfl⟩
  have hnames : teamRegistry.entities.map (fun e => (e.name, e.references)) =
      [("Team", ["Player"]), ("Player", ["Team"])] := rfl
  simp only [he, List.map_cons, List.map_nil, List.cons.injEq, Prod.mk.injEq, and_true] at hnames
  obtain ⟨⟨hteam, hcaptain⟩, hplayer, hback⟩ := hnames
  refine ⟨team, player, he, ?_, hcaptain, ?_, hback⟩
  · simp [Registry.get, Registry.get?, he, hteam]
  · simp [Registry.get, Registry.get?, he, hteam, hplayer]

theorem referenceOrder_teamRegistry :
    teamRegistry.referenceOrder ["Team"] = .ok teamRegistry.entities.reverse := by
  obtain ⟨team, player, he, hteam, hcaptain, hplayer, hback⟩ := exists_entities_teamRegistry
  -- The team is open already when the player's reference to it is looked at.
  simp [Registry.referenceOrder_eq_run, ReferenceOrder.run_cons, ReferenceOrder.run_cons_of_mem,
    ReferenceOrder.run_nil, hteam, hplayer, hcaptain, hback, he, bind, Except.bind, Except.map]

/-- The circle of teams and players is in order, each once. Without players there is no order. -/
theorem teams_reached :
    (∀ e, e ∈ teamRegistry.entities.reverse ↔
      teamRegistry.Reaches ["Team"] e.name ∧ teamRegistry.get? e.name = some e) ∧
    ∃ name, (Registry.ofSpecs (Dialect.builtin .hsqldb) [teamSpec]).referenceOrder ["Team"] =
      .error (.unknownEntity name) := by
  refine ⟨?_, ?_⟩
  · obtain ⟨_, _, hall⟩ := Registry.referenceOrder_reaches teamRegistry ["Team"]
    exact (hall _ referenceOrder_teamRegistry).1
  · obtain ⟨hfails, herror, _⟩ := Registry.referenceOrder_reaches
      (Registry.ofSpecs (Dialect.builtin .hsqldb) [teamSpec]) ["Team"]
    obtain ⟨err, herr⟩ := hfails.2 ⟨"Player", ⟨"Team", List.mem_cons_self, .single
      ⟨_, rfl, _, List.mem_cons_of_mem _ (List.mem_cons_of_mem _ List.mem_cons_self), _, rfl, rfl⟩⟩,
      rfl⟩
    obtain ⟨name, _, _, rfl⟩ := herror err herr
    exact ⟨name, herr⟩

end SqlDialects
