import SqlDialects.Proofs.ConstraintSet
import SqlDialects.Proofs.UpgradeScript

/-!
# The passes over constraints

The planner goes over foreign keys, unique constraints, indexes and checks in turn. Each pass claims
the observed constraints that will do from one list of leftovers, and collects statements that add
the others. This module takes the passes apart, so that nothing later follows the list of leftovers.

Results:
1. `Reconciliation.foldlM_pass`: what a pass over one kind claims and adds.
2. `Entity.convergeConstraints_eq_ok_iff`: when constraints can be planned, and what the script is.
-/

namespace SqlDialects

/-! ## A pass over one kind -/

namespace Reconciliation

/-- Where names tell leftovers apart, claiming one leaves all others. -/
theorem eraseP_isCalled {l : List ExistingConstraint}
    (h : (l.map ExistingConstraint.caseless).Nodup) (name : String) (kind : ConstraintKind) :
    l.eraseP (isCalled name kind) = l.filter fun c => !isCalled name kind c := by
  induction l with
  | nil => rfl
  | cons c rest ih =>
    obtain ⟨hc, hrest⟩ := List.nodup_cons.1 h
    by_cases hcalled : isCalled name kind c = true
    · have hothers : rest.filter (fun c => !isCalled name kind c) = rest := by
        refine List.filter_eq_self.2 fun b hb => ?_
        rw [Bool.not_eq_true', Bool.eq_false_iff]
        intro hb'
        exact hc (isCalled_iff.1 hcalled ▸ isCalled_iff.1 hb' ▸ List.mem_map_of_mem hb)
      rw [List.eraseP_cons_of_pos hcalled, List.filter_cons_of_neg (by simp [hcalled]), hothers]
    · rw [List.eraseP_cons_of_neg hcalled, List.filter_cons_of_pos (by simpa using hcalled),
        ih hrest]

/-- A claim takes the leftover of its name, and leaves those of all other names. -/
theorem claimOrAdd_of_mem {s : Reconciliation} {name : String} {kind : ConstraintKind}
    (hs : (s.leftovers.map ExistingConstraint.caseless).Nodup)
    (hthere : (kind, Text.asciiLower name) ∈ s.leftovers.map ExistingConstraint.caseless)
    (addition : Except Error Statement) :
    s.claimOrAdd true name kind addition =
      .ok { s with leftovers := s.leftovers.filter fun c => !isCalled name kind c } := by
  obtain ⟨c, hc, hkey⟩ := List.mem_map.1 hthere
  have hany : s.leftovers.any (isCalled name kind) = true :=
    List.any_eq_true.2 ⟨c, hc, isCalled_iff.2 hkey⟩
  rw [claimOrAdd, hany, ← eraseP_isCalled hs]
  rfl

theorem mem_caseless_of_ne {l : List ExistingConstraint} {key : ConstraintKind × String}
    {name : String} {kind : ConstraintKind} (h : key ∈ l.map ExistingConstraint.caseless)
    (hne : key ≠ (kind, Text.asciiLower name)) :
    key ∈ (l.filter fun c => !isCalled name kind c).map ExistingConstraint.caseless := by
  obtain ⟨c, hc, rfl⟩ := List.mem_map.1 h
  refine List.mem_map_of_mem (List.mem_filter.2 ⟨hc, ?_⟩)
  rw [Bool.not_eq_true', Bool.eq_false_iff]
  exact fun hcalled => hne (isCalled_iff.1 hcalled)

variable {α β : Type} {m : Matching α} {kind : ConstraintKind} {observed : List α}

/-- Whether a leftover is claimed for something desired that something observed will do for. -/
def isClaimed (m : Matching α) (kind : ConstraintKind) (observed desired : List α)
    (c : ExistingConstraint) : Bool :=
  desired.any fun d => observed.any (m.covers · d) && isCalled (m.name d) kind c

theorem isClaimed_cons_of_match {d : α} (h : observed.any (m.covers · d) = true)
    (desired : List α) (c : ExistingConstraint) :
    isClaimed m kind observed (d :: desired) c =
      (isCalled (m.name d) kind c || isClaimed m kind observed desired c) := by
  rw [isClaimed, List.any_cons, h, Bool.true_and]
  rfl

theorem isClaimed_cons_of_missing {d : α} (h : observed.any (m.covers · d) = false)
    (desired : List α) (c : ExistingConstraint) :
    isClaimed m kind observed (d :: desired) c = isClaimed m kind observed desired c := by
  rw [isClaimed, List.any_cons, h, Bool.false_and, Bool.false_or]
  rfl

/-- A statement that is added first stands before all that are added later. -/
theorem add_bind_eq_ok_iff {s t : Reconciliation} {addition : Except Error Statement}
    {next : Statement → Except Error Reconciliation} {more : Except Error (List Statement)}
    {leftovers : List ExistingConstraint}
    (hnext : ∀ added, next added = .ok t ↔
      ∃ additions, more = .ok additions ∧
        t = ⟨leftovers, s.additions ++ [added] ++ additions⟩) :
    addition >>= next = .ok t ↔
      ∃ additions, (do
          let added ← addition
          let additions ← more
          return added :: additions) = .ok additions ∧
        t = ⟨leftovers, s.additions ++ additions⟩ := by
  constructor
  · intro h
    obtain ⟨added, hadded, h⟩ := bind_eq_ok_iff.1 h
    obtain ⟨additions, hadditions, rfl⟩ := (hnext added).1 h
    refine ⟨added :: additions, bind_eq_ok_iff.2 ⟨added, hadded,
      bind_eq_ok_iff.2 ⟨additions, hadditions, rfl⟩⟩, ?_⟩
    simp
  · rintro ⟨all, hall, rfl⟩
    obtain ⟨added, hadded, hall⟩ := bind_eq_ok_iff.1 hall
    obtain ⟨additions, hadditions, hall⟩ := bind_eq_ok_iff.1 hall
    cases hall
    refine bind_eq_ok_iff.2 ⟨added, hadded, (hnext added).2 ⟨additions, hadditions, ?_⟩⟩
    simp

/-- A pass claims what is observed for something desired, and adds the rest. -/
theorem foldlM_pass {step : Reconciliation → β → Except Error Reconciliation} {desired : β → α}
    {addition : β → Except Error Statement} {items : List β}
    (hstep : ∀ a ∈ items, ∀ s, step s a = s.claimOrAdd (observed.any (m.covers · (desired a)))
      (m.name (desired a)) kind (addition a))
    (hd : m.IsDistinct (items.map desired)) {s t : Reconciliation}
    (hs : (s.leftovers.map ExistingConstraint.caseless).Nodup)
    (hthere : ∀ a ∈ items, observed.any (m.covers · (desired a)) = true →
      (kind, m.key (desired a)) ∈ s.leftovers.map ExistingConstraint.caseless) :
    items.foldlM step s = .ok t ↔
      ∃ additions,
        (items.filter fun a => !observed.any (m.covers · (desired a))).mapM addition =
          .ok additions ∧
        t = ⟨s.leftovers.filter fun c => !isClaimed m kind observed (items.map desired) c,
          s.additions ++ additions⟩ := by
  induction items generalizing s with
  | nil =>
    simp only [List.foldlM_nil, List.filter_nil, List.mapM_nil, List.map_nil, isClaimed,
      List.any_nil, Bool.not_false, List.filter_true, pure_eq_ok_iff, exists_eq_left',
      List.append_nil]
    exact eq_comm
  | cons a rest ih =>
    obtain ⟨ha, hrest⟩ := List.forall_mem_cons.1 hstep
    obtain ⟨hthere, htheres⟩ := List.forall_mem_cons.1 hthere
    obtain ⟨hnew, hd⟩ := List.nodup_cons.1 hd
    rw [List.foldlM_cons, ha, List.map_cons]
    cases hmatch : observed.any (m.covers · (desired a)) with
    | true =>
      have hleft : (s.leftovers.filter fun c => !isCalled (m.name (desired a)) kind c).filter
          (fun c => !isClaimed m kind observed (rest.map desired) c) =
            s.leftovers.filter fun c =>
              !isClaimed m kind observed (desired a :: rest.map desired) c := by
        rw [List.filter_filter]
        refine List.filter_congr fun c _ => ?_
        rw [isClaimed_cons_of_match hmatch, Bool.not_or, Bool.and_comm]
      -- No later one has the name, so what those are to claim is still there.
      have hstill : ∀ b ∈ rest, observed.any (m.covers · (desired b)) = true →
          (kind, m.key (desired b)) ∈ (s.leftovers.filter fun c =>
            !isCalled (m.name (desired a)) kind c).map ExistingConstraint.caseless := by
        intro b hb hmatchb
        refine mem_caseless_of_ne (htheres b hb hmatchb) fun hsame => hnew ?_
        have hkey : m.key (desired b) = m.key (desired a) := (Prod.mk.inj hsame).2
        exact hkey ▸ List.mem_map_of_mem (List.mem_map_of_mem hb)
      rw [claimOrAdd_of_mem hs (hthere hmatch), List.filter_cons_of_neg (by simp [hmatch]), ← hleft]
      exact ih hrest hd (hs.sublist (List.filter_sublist.map _)) hstill
    | false =>
      simp only [isClaimed_cons_of_missing hmatch]
      rw [List.filter_cons_of_pos (by simp [hmatch]), List.mapM_cons, claimOrAdd,
        Bool.false_and, if_neg Bool.false_ne_true]
      simp only [bind_assoc, pure_bind]
      refine add_bind_eq_ok_iff fun added => ?_
      exact ih (s := ⟨s.leftovers, s.additions ++ [added]⟩) hrest hd hs htheres

/-- What a pass leaves of its own kind is what is not desired. -/
theorem filter_isClaimed (ho : m.IsDistinct observed) (kind : ConstraintKind) (desired : List α) :
    ((observed.map fun o => (⟨m.name o, kind⟩ : ExistingConstraint)).filter
      fun c => !isClaimed m kind observed desired c) =
        (m.unwanted observed desired).map fun o => ⟨m.name o, kind⟩ := by
  rw [List.filter_map]
  congr 1
  refine List.filter_congr fun o homem => ?_
  rw [Bool.eq_iff_iff, Function.comp_apply, Bool.not_eq_true', Bool.not_eq_true',
    Bool.eq_false_iff, Bool.eq_false_iff, not_iff_not, isClaimed, List.any_eq_true,
    List.any_eq_true]
  refine exists_congr fun d => and_congr_right fun _ => ?_
  rw [Bool.and_eq_true, List.any_eq_true]
  constructor
  · rintro ⟨⟨o', ho', hcovers⟩, hcalled⟩
    have hsame : o' = o := ho.eq_of_key ho' homem
      ((Matching.key_of_covers hcovers).trans (Prod.mk.inj (isCalled_iff.1 hcalled)).2.symm)
    exact hsame ▸ hcovers
  · intro hcovers
    refine ⟨⟨o, homem, hcovers⟩, isCalled_iff.2 ?_⟩
    exact congrArg (kind, ·) (Matching.key_of_covers hcovers)

/-- A pass leaves what is of another kind. -/
theorem filter_isClaimed_of_ne {γ : Type} {name : γ → String} {other : ConstraintKind}
    (h : other ≠ kind) (l : List γ) (desired : List α) :
    ((l.map fun o => (⟨name o, other⟩ : ExistingConstraint)).filter
      fun c => !isClaimed m kind observed desired c) = l.map fun o => ⟨name o, other⟩ := by
  refine List.filter_eq_self.2 fun c hc => ?_
  obtain ⟨o, _, rfl⟩ := List.mem_map.1 hc
  rw [Bool.not_eq_true', isClaimed, List.any_eq_false]
  intro d _
  rw [Bool.and_eq_true, not_and, isCalled_iff]
  exact fun _ hkey => h (Prod.mk.inj hkey).1

end Reconciliation

/-! ## The constraints of a table as leftovers -/

namespace CatalogObject

variable {o : CatalogObject}

/-- Names under one kind, as leftovers are told apart. -/
def keysOf {α : Type} (m : Matching α) (kind : ConstraintKind) (l : List α) :
    List (ConstraintKind × String) := l.map fun a => (kind, m.key a)

theorem nodup_keysOf {α : Type} {m : Matching α} {l : List α} (kind : ConstraintKind)
    (h : m.IsDistinct l) : (keysOf m kind l).Nodup := by
  refine List.Nodup.of_map Prod.snd ?_
  rw [keysOf, List.map_map]
  exact h

theorem kind_of_mem_keysOf {α : Type} {m : Matching α} {l : List α} {kind : ConstraintKind}
    {key : ConstraintKind × String} (h : key ∈ keysOf m kind l) : key.1 = kind := by
  obtain ⟨_, _, rfl⟩ := List.mem_map.1 h
  rfl

theorem map_caseless_constraints (o : CatalogObject) :
    o.constraints.map ExistingConstraint.caseless =
      keysOf CatalogForeignKey.matching .foreignKey o.foreignKeys
        ++ keysOf CatalogUnique.matching .unique o.uniqueConstraints
        ++ keysOf CatalogIndex.matching .index o.indexes := by
  rw [constraints, List.map_append, List.map_append, List.map_map, List.map_map, List.map_map]
  rfl

theorem nodup_constraints (h : o.HasDistinctConstraints) :
    (o.constraints.map ExistingConstraint.caseless).Nodup := by
  rw [map_caseless_constraints, List.nodup_append, List.nodup_append]
  refine ⟨⟨nodup_keysOf _ h.foreignKeys, nodup_keysOf _ h.uniqueConstraints, ?_⟩,
    nodup_keysOf _ h.indexes, ?_⟩
  · rintro a ha b hb rfl
    exact absurd ((kind_of_mem_keysOf ha).symm.trans (kind_of_mem_keysOf hb)) (by decide)
  · rintro a ha b hb rfl
    rcases List.mem_append.1 ha with ha | ha
    · exact absurd ((kind_of_mem_keysOf ha).symm.trans (kind_of_mem_keysOf hb)) (by decide)
    · exact absurd ((kind_of_mem_keysOf ha).symm.trans (kind_of_mem_keysOf hb)) (by decide)

/-- What is observed for something desired is a leftover at first. -/
theorem mem_keysOf_of_any {α : Type} {m : Matching α} {l : List α} {d : α} (kind : ConstraintKind)
    (h : l.any (m.covers · d) = true) : (kind, m.key d) ∈ keysOf m kind l := by
  obtain ⟨o, ho, hcovers⟩ := List.any_eq_true.1 h
  exact List.mem_map.2 ⟨o, ho, congrArg (kind, ·) (Matching.key_of_covers hcovers)⟩

/-- The table but for the foreign keys that will do. -/
def claimForeignKeys (o desired : CatalogObject) : CatalogObject :=
  { o with
    foreignKeys := CatalogForeignKey.matching.unwanted o.foreignKeys desired.foreignKeys }

/-- The table but for the unique constraints that will do. -/
def claimUniques (o desired : CatalogObject) : CatalogObject :=
  { o with
    uniqueConstraints :=
      CatalogUnique.matching.unwanted o.uniqueConstraints desired.uniqueConstraints }

/-- The table but for the indexes that will do. -/
def claimIndexes (o desired : CatalogObject) : CatalogObject :=
  { o with indexes := CatalogIndex.matching.unwanted o.indexes desired.indexes }

theorem HasDistinctConstraints.claimForeignKeys (h : o.HasDistinctConstraints)
    (desired : CatalogObject) : (o.claimForeignKeys desired).HasDistinctConstraints :=
  ⟨h.foreignKeys.sublist List.filter_sublist, h.uniqueConstraints, h.indexes⟩

theorem HasDistinctConstraints.claimUniques (h : o.HasDistinctConstraints)
    (desired : CatalogObject) : (o.claimUniques desired).HasDistinctConstraints :=
  ⟨h.foreignKeys, h.uniqueConstraints.sublist List.filter_sublist, h.indexes⟩

theorem filter_claimed_foreignKeys (h : o.HasDistinctConstraints) (desired : CatalogObject) :
    (o.constraints.filter fun c => !Reconciliation.isClaimed CatalogForeignKey.matching .foreignKey
      o.foreignKeys desired.foreignKeys c) = (o.claimForeignKeys desired).constraints := by
  simp only [constraints, claimForeignKeys, List.filter_append]
  congr 1
  · congr 1
    · exact Reconciliation.filter_isClaimed h.foreignKeys _ _
    · exact Reconciliation.filter_isClaimed_of_ne (by decide) _ _
  · exact Reconciliation.filter_isClaimed_of_ne (by decide) _ _

theorem filter_claimed_uniqueConstraints (h : o.HasDistinctConstraints)
    (desired : CatalogObject) :
    (o.constraints.filter fun c => !Reconciliation.isClaimed CatalogUnique.matching .unique
      o.uniqueConstraints desired.uniqueConstraints c) =
        (o.claimUniques desired).constraints := by
  simp only [constraints, claimUniques, List.filter_append]
  congr 1
  · congr 1
    · exact Reconciliation.filter_isClaimed_of_ne (by decide) _ _
    · exact Reconciliation.filter_isClaimed h.uniqueConstraints _ _
  · exact Reconciliation.filter_isClaimed_of_ne (by decide) _ _

theorem filter_claimed_indexes (h : o.HasDistinctConstraints) (desired : CatalogObject) :
    (o.constraints.filter fun c => !Reconciliation.isClaimed CatalogIndex.matching .index
      o.indexes desired.indexes c) = (o.claimIndexes desired).constraints := by
  simp only [constraints, claimIndexes, List.filter_append]
  congr 1
  · congr 1
    · exact Reconciliation.filter_isClaimed_of_ne (by decide) _ _
    · exact Reconciliation.filter_isClaimed_of_ne (by decide) _ _
  · exact Reconciliation.filter_isClaimed h.indexes _ _

end CatalogObject

/-! ## What is desired -/

instance : Inhabited CatalogForeignKey := ⟨⟨"", "", []⟩⟩

instance : Inhabited CatalogUnique := ⟨⟨"", []⟩⟩

instance : Inhabited CatalogIndex := ⟨⟨"", [], false⟩⟩

namespace Entity

/-- Fields whose foreign keys the table should have: without `keys`, none. -/
def desiredKeyFields (e : Entity) (keys : Bool) : List (Field × FieldReference) :=
  if keys then e.foreignKeyFields else []

/-- The table as it should be. -/
def desiredTable (e : Entity) (r : Registry) (keys : Bool) : Except Error CatalogObject := do
  let declared ← e.reportedTable r
  return { declared with foreignKeys := if keys then declared.foreignKeys else [] }

/-- What is desired, as functions of what it is desired for. -/
structure Desires (e : Entity) (r : Registry) (keys : Bool) (desired : CatalogObject)
    (key : Field × FieldReference → CatalogForeignKey) (unique : UniqueSpec → CatalogUnique)
    (index : IndexSpec → CatalogIndex) : Prop where
  reportedKey : ∀ p ∈ e.desiredKeyFields keys, e.reportedForeignKey r p.1 p.2 = .ok (key p)
  foreignKeys : desired.foreignKeys = (e.desiredKeyFields keys).map key
  reportedUnique : ∀ u ∈ e.source.uniqueConstraints, e.reportedUnique u = .ok (unique u)
  uniqueConstraints : desired.uniqueConstraints = e.source.uniqueConstraints.map unique
  reportedIndex : ∀ i ∈ e.source.indexes, e.reportedIndex i = .ok (index i)
  indexes : desired.indexes = e.source.indexes.map index

variable {e : Entity} {r : Registry} {keys : Bool} {existing desired : CatalogObject}
  {key : Field × FieldReference → CatalogForeignKey} {unique : UniqueSpec → CatalogUnique}
  {index : IndexSpec → CatalogIndex} {statements : List Statement}

theorem exists_desires (h : e.desiredTable r keys = .ok desired) :
    ∃ key unique index, e.Desires r keys desired key unique index := by
  obtain ⟨declared, hdeclared, h⟩ := bind_eq_ok_iff.1 h
  cases h
  obtain ⟨foreignKeys, hkeys, h⟩ := bind_eq_ok_iff.1 hdeclared
  obtain ⟨uniques, huniques, h⟩ := bind_eq_ok_iff.1 h
  obtain ⟨indexes, hindexes, h⟩ := bind_eq_ok_iff.1 h
  cases h
  obtain ⟨hkey, hkeys⟩ := mapM_eq_ok hkeys
  obtain ⟨hunique, huniques⟩ := mapM_eq_ok huniques
  obtain ⟨hindex, hindexes⟩ := mapM_eq_ok hindexes
  refine ⟨_, _, _, fun p hp => hkey p ?_, ?_, hunique, huniques, hindex, hindexes⟩
  · cases keys with
    | true => exact hp
    | false => cases hp
  · cases keys with
    | true => exact hkeys
    | false => rfl

theorem mem_foreignKeyFields {p : Field × FieldReference} :
    p ∈ e.foreignKeyFields ↔ p.1 ∈ e.tableFields ∧ p.1.foreignKey = some p.2 := by
  obtain ⟨f, reference⟩ := p
  simp only [foreignKeyFields, List.mem_filterMap, Option.map_eq_some_iff, Prod.mk.injEq]
  constructor
  · rintro ⟨g, hg, _, href, rfl, rfl⟩
    exact ⟨hg, href⟩
  · rintro ⟨hf, href⟩
    exact ⟨f, hf, reference, href, rfl, rfl⟩

theorem mem_foreignKeyFields_of_desired {p : Field × FieldReference} (hp : p ∈ e.desiredKeyFields keys) :
    p ∈ e.foreignKeyFields := by
  cases keys with
  | true => exact hp
  | false => cases hp

/-! ## The passes of the planner -/

/-- Fields without a foreign key change nothing. -/
theorem foldlM_reconcileForeignKey_eq (s : Reconciliation) :
    (if keys then e.tableFields.foldlM (e.reconcileForeignKey r existing) s else .ok s) =
      (e.desiredKeyFields keys).foldlM (fun s p => e.reconcileForeignKey r existing s p.1) s := by
  cases keys with
  | false => rfl
  | true =>
    simp only [if_true, desiredKeyFields, foreignKeyFields]
    induction e.tableFields generalizing s with
    | nil => rfl
    | cons f rest ih =>
      rw [List.foldlM_cons]
      cases hf : f.foreignKey with
      | none =>
        rw [List.filterMap_cons_none (by rw [hf, Option.map_none])]
        rw [reconcileForeignKey_of_none hf]
        exact ih s
      | some reference =>
        rw [List.filterMap_cons_some (by rw [hf, Option.map_some]), List.foldlM_cons]
        exact bind_congr fun t => ih t

theorem foldlM_reconcileCheck_eq_ok_iff {d : Dialect} {checks : List CheckSpec}
    {s t : Reconciliation} :
    checks.foldlM (e.reconcileCheck d existing) s = .ok t ↔
      ∃ additions, (checks.filter (lacksCheck existing)).mapM (e.addCheck d) = .ok additions ∧
        t = ⟨s.leftovers, s.additions ++ additions⟩ := by
  induction checks generalizing s with
  | nil =>
    simp only [List.foldlM_nil, List.filter_nil, List.mapM_nil, pure_eq_ok_iff, exists_eq_left',
      List.append_nil]
    exact eq_comm
  | cons c rest ih =>
    rw [List.foldlM_cons]
    cases hlacks : lacksCheck existing c with
    | false =>
      rw [List.filter_cons_of_neg (Bool.eq_false_iff.1 hlacks), reconcileCheck_of_there hlacks]
      exact ih
    | true =>
      rw [List.filter_cons_of_pos hlacks, List.mapM_cons, reconcileCheck_of_lacksCheck hlacks]
      simp only [bind_assoc, pure_bind]
      refine Reconciliation.add_bind_eq_ok_iff fun added => ?_
      exact ih (s := ⟨s.leftovers, s.additions ++ [added]⟩)

theorem foldlM_reconcileForeignKey_eq_ok_iff (h : e.Desires r keys desired key unique index)
    (hd : desired.HasDistinctConstraints) {o : CatalogObject} (ho : o.HasDistinctConstraints)
    (hsame : o.foreignKeys = existing.foreignKeys) {additions : List Statement}
    {t : Reconciliation} :
    (e.desiredKeyFields keys).foldlM (fun s p => e.reconcileForeignKey r existing s p.1)
        ⟨o.constraints, additions⟩ = .ok t ↔
      ∃ foreignKeys, ((e.desiredKeyFields keys).filter fun p =>
          !existing.foreignKeys.any (CatalogForeignKey.matching.covers · (key p))).mapM
            (fun p => e.addForeignKey r p.1.name) = .ok foreignKeys ∧
        t = ⟨(o.claimForeignKeys desired).constraints, additions ++ foreignKeys⟩ := by
  rw [← CatalogObject.filter_claimed_foreignKeys ho, h.foreignKeys,
    hsame]
  have hstep : ∀ p ∈ e.desiredKeyFields keys, ∀ s : Reconciliation,
      e.reconcileForeignKey r existing s p.1 =
        s.claimOrAdd (existing.foreignKeys.any (CatalogForeignKey.matching.covers · (key p)))
          (key p).name .foreignKey (e.addForeignKey r p.1.name) := fun p hp s => by
    rw [reconcileForeignKey_of_some (mem_foreignKeyFields.1 (mem_foreignKeyFields_of_desired hp)).2,
      h.reportedKey p hp]
    rfl
  refine Reconciliation.foldlM_pass hstep (h.foreignKeys ▸ hd.foreignKeys)
    (CatalogObject.nodup_constraints ho) fun p hp hany => ?_
  rw [CatalogObject.map_caseless_constraints, hsame]
  exact List.mem_append_left _ (List.mem_append_left _ (CatalogObject.mem_keysOf_of_any _ hany))

theorem foldlM_reconcileUnique_eq_ok_iff (h : e.Desires r keys desired key unique index)
    (hd : desired.HasDistinctConstraints) {o : CatalogObject} (ho : o.HasDistinctConstraints)
    (hsame : o.uniqueConstraints = existing.uniqueConstraints) {additions : List Statement}
    {t : Reconciliation} :
    e.source.uniqueConstraints.foldlM (e.reconcileUnique r.dialect existing)
        ⟨o.constraints, additions⟩ = .ok t ↔
      ∃ uniques, (e.source.uniqueConstraints.filter fun u =>
          !existing.uniqueConstraints.any (CatalogUnique.matching.covers · (unique u))).mapM
            (e.addUnique r.dialect) = .ok uniques ∧
        t = ⟨(o.claimUniques desired).constraints, additions ++ uniques⟩ := by
  rw [← CatalogObject.filter_claimed_uniqueConstraints ho,
    h.uniqueConstraints, hsame]
  have hstep : ∀ u ∈ e.source.uniqueConstraints, ∀ s : Reconciliation,
      e.reconcileUnique r.dialect existing s u =
        s.claimOrAdd (existing.uniqueConstraints.any (CatalogUnique.matching.covers · (unique u)))
          (unique u).name .unique (e.addUnique r.dialect u) := fun u hu s => by
    rw [reconcileUnique_eq, h.reportedUnique u hu]
    rfl
  refine Reconciliation.foldlM_pass hstep (h.uniqueConstraints ▸ hd.uniqueConstraints)
    (CatalogObject.nodup_constraints ho) fun u hu hany => ?_
  rw [CatalogObject.map_caseless_constraints, hsame]
  exact List.mem_append_left _ (List.mem_append_right _ (CatalogObject.mem_keysOf_of_any _ hany))

theorem foldlM_reconcileIndex_eq_ok_iff (h : e.Desires r keys desired key unique index)
    (hd : desired.HasDistinctConstraints) {o : CatalogObject} (ho : o.HasDistinctConstraints)
    (hsame : o.indexes = existing.indexes) {additions : List Statement} {t : Reconciliation} :
    e.source.indexes.foldlM (e.reconcileIndex r.dialect existing)
        ⟨o.constraints, additions⟩ = .ok t ↔
      ∃ indexes, (e.source.indexes.filter fun i =>
          !existing.indexes.any (CatalogIndex.matching.covers · (index i))).mapM
            (e.createIndex r.dialect) = .ok indexes ∧
        t = ⟨(o.claimIndexes desired).constraints, additions ++ indexes⟩ := by
  rw [← CatalogObject.filter_claimed_indexes ho, h.indexes, hsame]
  have hstep : ∀ i ∈ e.source.indexes, ∀ s : Reconciliation,
      e.reconcileIndex r.dialect existing s i =
        s.claimOrAdd (existing.indexes.any (CatalogIndex.matching.covers · (index i)))
          (index i).name .index (e.createIndex r.dialect i) := fun i hi s => by
    rw [reconcileIndex_eq, h.reportedIndex i hi]
    rfl
  refine Reconciliation.foldlM_pass hstep (h.indexes ▸ hd.indexes)
    (CatalogObject.nodup_constraints ho) fun i hi hany => ?_
  rw [CatalogObject.map_caseless_constraints, hsame]
  exact List.mem_append_right _ (CatalogObject.mem_keysOf_of_any _ hany)

/-- Statements that drop what is not desired. -/
def constraintDrops (e : Entity) (d : Dialect) (existing desired : CatalogObject) :
    List Statement :=
  (CatalogForeignKey.matching.unwanted existing.foreignKeys desired.foreignKeys).map
      (fun o => e.dropForeignKey d o.name)
    ++ (CatalogUnique.matching.unwanted existing.uniqueConstraints desired.uniqueConstraints).map
      (fun o => e.dropUnique d o.name)
    ++ (CatalogIndex.matching.unwanted existing.indexes desired.indexes).map
      (fun o => e.dropIndex d o.name)

theorem map_dropLeftover_constraints (e : Entity) (d : Dialect) (o : CatalogObject) :
    o.constraints.map (Reconciliation.dropLeftover e d) =
      o.foreignKeys.map (fun o => e.dropForeignKey d o.name)
        ++ o.uniqueConstraints.map (fun o => e.dropUnique d o.name)
        ++ o.indexes.map (fun o => e.dropIndex d o.name) := by
  rw [CatalogObject.constraints, List.map_append, List.map_append, List.map_map, List.map_map,
    List.map_map]
  rfl

/-- Constraints can be planned if each one that is missing can be added, and the script drops what is
not desired before it adds that. -/
theorem convergeConstraints_eq_ok_iff (h : e.Desires r keys desired key unique index)
    (hd : desired.HasDistinctConstraints) (ho : existing.HasDistinctConstraints) :
    e.convergeConstraints r keys existing = .ok statements ↔
      ∃ foreignKeys uniques indexes checks,
        ((e.desiredKeyFields keys).filter fun p =>
          !existing.foreignKeys.any (CatalogForeignKey.matching.covers · (key p))).mapM
            (fun p => e.addForeignKey r p.1.name) = .ok foreignKeys ∧
        (e.source.uniqueConstraints.filter fun u =>
          !existing.uniqueConstraints.any (CatalogUnique.matching.covers · (unique u))).mapM
            (e.addUnique r.dialect) = .ok uniques ∧
        (e.source.indexes.filter fun i =>
          !existing.indexes.any (CatalogIndex.matching.covers · (index i))).mapM
            (e.createIndex r.dialect) = .ok indexes ∧
        (e.source.checkConstraints.filter (lacksCheck existing)).mapM (e.addCheck r.dialect) =
          .ok checks ∧
        statements = e.constraintDrops r.dialect existing desired
          ++ (foreignKeys ++ uniques ++ indexes ++ checks) := by
  rw [convergeConstraints_eq, foldlM_reconcileForeignKey_eq]
  -- Each pass leaves what the ones before it left of the other kinds.
  have hoKeys := ho.claimForeignKeys desired
  have hoUniques := hoKeys.claimUniques desired
  simp only [bind_eq_ok_iff, pure_eq_ok_iff]
  constructor
  · rintro ⟨s, hs, t, ht, u, hu, v, hv, rfl⟩
    obtain ⟨foreignKeys, hkeys, rfl⟩ := (foldlM_reconcileForeignKey_eq_ok_iff h hd ho rfl).1 hs
    obtain ⟨uniques, huniques, rfl⟩ := (foldlM_reconcileUnique_eq_ok_iff h hd hoKeys rfl).1 ht
    obtain ⟨indexes, hindexes, rfl⟩ := (foldlM_reconcileIndex_eq_ok_iff h hd hoUniques rfl).1 hu
    obtain ⟨checks, hchecks, rfl⟩ := foldlM_reconcileCheck_eq_ok_iff.1 hv
    refine ⟨foreignKeys, uniques, indexes, checks, hkeys, huniques, hindexes, hchecks, ?_⟩
    rw [map_dropLeftover_constraints, List.nil_append]
    rfl
  · rintro ⟨foreignKeys, uniques, indexes, checks, hkeys, huniques, hindexes, hchecks, rfl⟩
    refine ⟨_, (foldlM_reconcileForeignKey_eq_ok_iff h hd ho rfl).2 ⟨foreignKeys, hkeys, rfl⟩,
      _, (foldlM_reconcileUnique_eq_ok_iff h hd hoKeys rfl).2 ⟨uniques, huniques, rfl⟩,
      _, (foldlM_reconcileIndex_eq_ok_iff h hd hoUniques rfl).2 ⟨indexes, hindexes, rfl⟩,
      _, foldlM_reconcileCheck_eq_ok_iff.2 ⟨checks, hchecks, rfl⟩, ?_⟩
    rw [map_dropLeftover_constraints, List.nil_append]
    rfl

end Entity

end SqlDialects
