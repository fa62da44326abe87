import SqlDialects.Proofs.ConstraintStep

/-!
# Sets of constraints

The constraints of a table are foreign keys, unique constraints and indexes, each kind with names of
its own. What is observed is brought to what is desired by dropping and adding. This module says what
that leaves, for any kind, and what the statements of a script do to the three sets of a table.

Results:
1. `Matching.foldlM_drop_unwanted`, `Matching.foldlM_add_missing`: what is not desired can be dropped,
   and then what is missing can be added.
2. `Matching.realizes_kept_append_missing`: this leaves what is desired.
3. `CatalogObject.runOnConstraints_eq_some_iff`: a script runs on each kind for itself.
-/

namespace SqlDialects

namespace Matching

variable {α : Type} (m : Matching α)

/-- A name as it is compared. -/
def key (a : α) : String := Text.asciiLower (m.name a)

/-- Whether names tell some constraints apart. -/
def IsDistinct (l : List α) : Prop := (l.map m.key).Nodup

instance (l : List α) : Decidable (m.IsDistinct l) :=
  inferInstanceAs (Decidable (l.map m.key).Nodup)

/-- What is observed and will do for something desired. -/
def kept (observed desired : List α) : List α := observed.filter fun o => desired.any (m.covers o)

/-- What is observed and will do for nothing desired. -/
def unwanted (observed desired : List α) : List α :=
  observed.filter fun o => !desired.any (m.covers o)

/-- What is desired and nothing observed will do for. -/
def missing (observed desired : List α) : List α :=
  desired.filter fun d => !observed.any (m.covers · d)

/-- The constraints without the one of a name, which has to be there. -/
def drop (l : List α) (name : String) : Option (List α) :=
  if l.any fun a => Text.sameName (m.name a) name then
    some (l.filter fun a => !Text.sameName (m.name a) name)
  else none

/-- The constraints with one more, whose name must not be there. -/
def add (l : List α) (a : α) : Option (List α) :=
  if l.any fun b => Text.sameName (m.name b) (m.name a) then none else some (l ++ [a])

/-- Whether some constraints are one for each desired one, which will do for it. -/
def Realizes (l desired : List α) : Prop :=
  ∃ ordered, l.Perm ordered ∧ List.Forall₂ (fun a d => m.covers a d = true) ordered desired

variable {m} {l observed desired : List α}

theorem key_eq_iff {a b : α} : m.key a = m.key b ↔ Text.sameName (m.name a) (m.name b) = true :=
  Text.sameName_iff.symm

theorem key_of_covers {o d : α} (h : m.covers o d = true) : m.key o = m.key d :=
  key_eq_iff.2 (m.sameName_of_covers h)

theorem IsDistinct.eq_of_key (h : m.IsDistinct l) {a b : α} (ha : a ∈ l) (hb : b ∈ l)
    (hkey : m.key a = m.key b) : a = b := List.inj_on_of_nodup_map h ha hb hkey

theorem IsDistinct.sublist (h : m.IsDistinct l) {l' : List α} (hs : l'.Sublist l) :
    m.IsDistinct l' := List.Nodup.sublist (hs.map _) h

/-! ## Dropping what is not desired -/

theorem drop_of_mem {a : α} (ha : a ∈ l) :
    m.drop l (m.name a) = some (l.filter fun b => m.key b ≠ m.key a) := by
  have hany : (l.any fun b => Text.sameName (m.name b) (m.name a)) = true :=
    List.any_eq_true.2 ⟨a, ha, Text.sameName_refl _⟩
  rw [drop, if_pos hany]
  congr 1
  refine List.filter_congr fun b _ => ?_
  rw [Bool.eq_iff_iff]
  simp [key_eq_iff]

theorem foldlM_drop {dropped : List α} (hd : m.IsDistinct dropped) (hsub : dropped ⊆ l) :
    (dropped.map m.name).foldlM m.drop l =
      some (l.filter fun a => m.key a ∉ dropped.map m.key) := by
  induction dropped generalizing l with
  | nil => simp
  | cons d rest ih =>
    obtain ⟨hfirst, hrest⟩ := List.nodup_cons.1 hd
    obtain ⟨hmem, hsub⟩ := List.cons_subset.1 hsub
    have hstill : rest ⊆ l.filter fun b => m.key b ≠ m.key d := fun b hb => by
      refine List.mem_filter.2 ⟨hsub hb, ?_⟩
      have hne : m.key b ≠ m.key d := fun heq => hfirst (heq ▸ List.mem_map_of_mem hb)
      simpa using hne
    rw [List.map_cons, List.foldlM_cons, drop_of_mem hmem]
    refine (ih hrest hstill).trans ?_
    rw [List.filter_filter]
    congr 1
    refine List.filter_congr fun a _ => ?_
    rw [List.map_cons, Bool.eq_iff_iff]
    simp [and_comm]

/-- What is not desired can be dropped, and leaves what will do. -/
theorem foldlM_drop_unwanted (ho : m.IsDistinct observed) :
    ((m.unwanted observed desired).map m.name).foldlM m.drop observed =
      some (m.kept observed desired) := by
  have hdropped : m.IsDistinct (m.unwanted observed desired) := ho.sublist List.filter_sublist
  rw [foldlM_drop hdropped List.filter_sublist.subset]
  congr 1
  refine List.filter_congr fun a ha => ?_
  have hmem : m.key a ∈ (m.unwanted observed desired).map m.key ↔ a ∈ m.unwanted observed desired := by
    refine ⟨fun h => ?_, List.mem_map_of_mem⟩
    obtain ⟨b, hb, hkey⟩ := List.mem_map.1 h
    rwa [← ho.eq_of_key (List.mem_filter.1 hb).1 ha hkey]
  rw [Bool.eq_iff_iff, decide_eq_true_iff, hmem, unwanted, List.mem_filter]
  simp [ha]

/-! ## Adding what is missing -/

theorem foldlM_add {added : List α} (h : m.IsDistinct (l ++ added)) :
    added.foldlM m.add l = some (l ++ added) := by
  induction added generalizing l with
  | nil => simp
  | cons a rest ih =>
    have hnew : (l.any fun b => Text.sameName (m.name b) (m.name a)) = false := by
      refine List.any_eq_false.2 fun b hb => ?_
      rw [← key_eq_iff]
      rw [IsDistinct, List.map_append, List.nodup_append] at h
      exact h.2.2 _ (List.mem_map_of_mem hb) _ (List.mem_map_of_mem List.mem_cons_self)
    have hstep : m.add l a = some (l ++ [a]) := by rw [add, hnew]; rfl
    have hassoc : l ++ a :: rest = l ++ [a] ++ rest := by simp
    rw [hassoc] at h ⊢
    rw [List.foldlM_cons, hstep]
    exact ih h

theorem eq_append_of_foldlM_add {added final : List α} (h : added.foldlM m.add l = some final) :
    final = l ++ added := by
  induction added generalizing l with
  | nil => simpa using h.symm
  | cons a rest ih =>
    rw [List.foldlM_cons] at h
    obtain ⟨next, hnext, h⟩ := Option.bind_eq_some_iff.1 h
    unfold add at hnext
    split at hnext
    · cases hnext
    · cases hnext
      rw [ih h, List.append_assoc, List.singleton_append]

/-- Something that will do for a desired constraint does not leave one of its name missing. -/
theorem key_kept_ne_missing (hd : m.IsDistinct desired) {o d : α} (ho : o ∈ m.kept observed desired)
    (hmissing : d ∈ m.missing observed desired) : m.key o ≠ m.key d := by
  intro hkey
  obtain ⟨homem, hany⟩ := List.mem_filter.1 ho
  obtain ⟨hdmem, hnone⟩ := List.mem_filter.1 hmissing
  obtain ⟨d', hd', hcovers⟩ := List.any_eq_true.1 hany
  have hsame : d' = d := hd.eq_of_key hd' hdmem ((key_of_covers hcovers).symm.trans hkey)
  rw [Bool.not_eq_true', List.any_eq_false] at hnone
  exact hnone o homem (hsame ▸ hcovers)

theorem isDistinct_kept_append_missing (ho : m.IsDistinct observed) (hd : m.IsDistinct desired) :
    m.IsDistinct (m.kept observed desired ++ m.missing observed desired) := by
  rw [IsDistinct, List.map_append, List.nodup_append]
  refine ⟨ho.sublist List.filter_sublist, hd.sublist List.filter_sublist, ?_⟩
  rintro _ ha _ hb rfl
  obtain ⟨o, hkept, rfl⟩ := List.mem_map.1 ha
  obtain ⟨d, hmissing, hkey⟩ := List.mem_map.1 hb
  exact key_kept_ne_missing hd hkept hmissing hkey.symm

/-- What is missing can be added to what will do. -/
theorem foldlM_add_missing (ho : m.IsDistinct observed) (hd : m.IsDistinct desired) :
    (m.missing observed desired).foldlM m.add (m.kept observed desired) =
      some (m.kept observed desired ++ m.missing observed desired) :=
  foldlM_add (isDistinct_kept_append_missing ho hd)

/-! ## What that leaves -/

/-- What is observed in place of a desired constraint, or else the desired one. -/
def observedFor (m : Matching α) (observed : List α) (d : α) : α :=
  (observed.find? (m.covers · d)).getD d

theorem covers_observedFor (d : α) : m.covers (m.observedFor observed d) d = true := by
  unfold observedFor
  cases hfind : observed.find? (m.covers · d) with
  | none => exact m.covers_self d
  | some o => simpa using List.find?_some hfind

theorem observedFor_of_missing {d : α} (h : d ∈ m.missing observed desired) :
    m.observedFor observed d = d := by
  obtain ⟨_, hnone⟩ := List.mem_filter.1 h
  have hfind : observed.find? (m.covers · d) = none := by
    rw [Bool.not_eq_true', List.any_eq_false] at hnone
    exact List.find?_eq_none.2 hnone
  rw [observedFor, hfind, Option.getD_none]

theorem perm_map_observedFor (ho : m.IsDistinct observed) (hd : m.IsDistinct desired) :
    ((desired.filter fun d => observed.any (m.covers · d)).map (m.observedFor observed)).Perm
      (m.kept observed desired) := by
  have hfound : ∀ d, observed.any (m.covers · d) = true →
      m.observedFor observed d ∈ observed := fun d hany => by
    unfold observedFor
    cases hfind : observed.find? (m.covers · d) with
    | none =>
      obtain ⟨o, homem, hcovers⟩ := List.any_eq_true.1 hany
      exact absurd hcovers (List.find?_eq_none.1 hfind o homem)
    | some o => exact List.mem_of_find?_eq_some hfind
  -- Neither side has a constraint twice, so it is enough that they have the same ones.
  refine (List.perm_ext_iff_of_nodup ?_ (List.Nodup.of_map _ (ho.sublist List.filter_sublist))).2
    fun o => ?_
  · have hkeys : ((desired.filter fun d => observed.any (m.covers · d)).map
        (m.observedFor observed)).map m.key =
          (desired.filter fun d => observed.any (m.covers · d)).map m.key := by
      rw [List.map_map]
      exact List.map_congr_left fun d _ => key_of_covers (covers_observedFor d)
    refine List.Nodup.of_map m.key ?_
    rw [hkeys]
    exact hd.sublist List.filter_sublist
  · rw [List.mem_map]
    constructor
    · rintro ⟨d, hmem, rfl⟩
      obtain ⟨hdmem, hany⟩ := List.mem_filter.1 hmem
      exact List.mem_filter.2 ⟨hfound d hany, List.any_eq_true.2 ⟨d, hdmem, covers_observedFor d⟩⟩
    · intro hkept
      obtain ⟨homem, hany⟩ := List.mem_filter.1 hkept
      obtain ⟨d, hdmem, hcovers⟩ := List.any_eq_true.1 hany
      have hcovered : observed.any (m.covers · d) = true :=
        List.any_eq_true.2 ⟨o, homem, hcovers⟩
      refine ⟨d, List.mem_filter.2 ⟨hdmem, hcovered⟩, ?_⟩
      exact ho.eq_of_key (hfound d hcovered) homem
        ((key_of_covers (covers_observedFor d)).trans (key_of_covers hcovers).symm)

/-- What will do and what was missing are what is desired. -/
theorem realizes_kept_append_missing (ho : m.IsDistinct observed) (hd : m.IsDistinct desired) :
    m.Realizes (m.kept observed desired ++ m.missing observed desired) desired := by
  refine ⟨desired.map (m.observedFor observed), ?_,
    List.forall₂_map_left_iff.2 (List.forall₂_same.2 fun d _ => covers_observedFor d)⟩
  have hmissing : (m.missing observed desired).map (m.observedFor observed) =
      m.missing observed desired :=
    (List.map_congr_left fun d hm => observedFor_of_missing hm).trans (List.map_id _)
  have hsplit := (List.filter_append_perm (fun d => observed.any (m.covers · d)) desired).map
    (m.observedFor observed)
  rw [List.map_append] at hsplit
  refine List.Perm.trans ?_ hsplit
  exact (perm_map_observedFor ho hd).symm.append (List.Perm.of_eq hmissing.symm)

theorem Realizes.exists_covers {final : List α} (h : m.Realizes final desired) {d : α}
    (hd : d ∈ desired) : ∃ a ∈ final, m.covers a d = true := by
  obtain ⟨ordered, hperm, hall⟩ := h
  obtain ⟨a, ha, hcovers⟩ := exists_mem_of_forall₂ hall.flip hd
  exact ⟨a, hperm.mem_iff.2 ha, hcovers⟩

end Matching

/-- Whether names tell the constraints of each kind apart. -/
structure CatalogObject.HasDistinctConstraints (o : CatalogObject) : Prop where
  foreignKeys : CatalogForeignKey.matching.IsDistinct o.foreignKeys
  uniqueConstraints : CatalogUnique.matching.IsDistinct o.uniqueConstraints
  indexes : CatalogIndex.matching.IsDistinct o.indexes

instance (o : CatalogObject) : Decidable o.HasDistinctConstraints :=
  decidable_of_iff (CatalogForeignKey.matching.IsDistinct o.foreignKeys ∧
      CatalogUnique.matching.IsDistinct o.uniqueConstraints ∧
      CatalogIndex.matching.IsDistinct o.indexes)
    ⟨fun h => ⟨h.1, h.2.1, h.2.2⟩, fun h => ⟨h.foreignKeys, h.uniqueConstraints, h.indexes⟩⟩

/-! ## What statements do to constraints -/

namespace Statement

/-- The foreign key that a statement drops. -/
def droppedForeignKey? : Statement → Option String
  | .dropForeignKey _ name => some name.raw
  | _ => none

/-- The foreign key that a statement adds. -/
def addedForeignKey? : Statement → Option CatalogForeignKey
  | .addForeignKey _ name _ target targetColumn =>
    some { name := name.raw, refTable := target.raw, refColumns := [targetColumn.raw] }
  | _ => none

/-- The unique constraint that a statement drops. -/
def droppedUnique? : Statement → Option String
  | .dropUnique _ name => some name.raw
  | _ => none

/-- The unique constraint that a statement adds. -/
def addedUnique? : Statement → Option CatalogUnique
  | .addUnique _ name columns => some { name := name.raw, columns := columns.map Name.raw }
  | _ => none

/-- The index that a statement drops. -/
def droppedIndex? : Statement → Option String
  | .dropIndex _ name => some name.raw
  | _ => none

/-- The index that a statement adds. -/
def addedIndex? : Statement → Option CatalogIndex
  | .createIndex _ name columns unique =>
    some { name := name.raw, columns := columns.map Name.raw, unique }
  | _ => none

/-- Whether a statement adds or drops a check. -/
def isOnCheck : Statement → Bool
  | .addCheck .. | .dropCheck .. => true
  | _ => false

end Statement

/-- The constraints of a kind after a statement that drops one, adds one or does neither. -/
def Matching.step {α : Type} (m : Matching α) (l : List α) (dropped : Option String)
    (added : Option α) : Option (List α) :=
  match dropped, added with
  | some name, _ => m.drop l name
  | none, some a => m.add l a
  | none, none => some l

/-- The constraints of a kind after a script, by what its statements drop and add. -/
def Matching.run {α : Type} (m : Matching α) (dropped : Statement → Option String)
    (added : Statement → Option α) (script : List Statement) (l : List α) : Option (List α) :=
  script.foldlM (fun l s => m.step l (dropped s) (added s)) l

/-- A table after a statement on its constraints. Nothing is dropped that is not there, and nothing
is added under a name that is there. -/
def Statement.onConstraints (o : CatalogObject) (s : Statement) : Option CatalogObject := do
  let foreignKeys ←
    CatalogForeignKey.matching.step o.foreignKeys s.droppedForeignKey? s.addedForeignKey?
  let uniqueConstraints ←
    CatalogUnique.matching.step o.uniqueConstraints s.droppedUnique? s.addedUnique?
  let indexes ← CatalogIndex.matching.step o.indexes s.droppedIndex? s.addedIndex?
  return { o with foreignKeys, uniqueConstraints, indexes }

/-- A table after the statements of a script on its constraints. -/
def CatalogObject.runOnConstraints (o : CatalogObject) (script : List Statement) :
    Option CatalogObject := script.foldlM Statement.onConstraints o

/-- A script runs on each kind for itself. -/
theorem CatalogObject.runOnConstraints_eq_some_iff {o final : CatalogObject}
    {script : List Statement} :
    o.runOnConstraints script = some final ↔
      ∃ foreignKeys uniqueConstraints indexes,
        CatalogForeignKey.matching.run (·.droppedForeignKey?) (·.addedForeignKey?) script
          o.foreignKeys = some foreignKeys ∧
        CatalogUnique.matching.run (·.droppedUnique?) (·.addedUnique?) script
          o.uniqueConstraints = some uniqueConstraints ∧
        CatalogIndex.matching.run (·.droppedIndex?) (·.addedIndex?) script o.indexes =
          some indexes ∧
        final = { o with foreignKeys, uniqueConstraints, indexes } := by
  induction script generalizing o with
  | nil =>
    constructor
    · intro h
      cases h
      exact ⟨_, _, _, rfl, rfl, rfl, rfl⟩
    · rintro ⟨_, _, _, hf, hu, hi, rfl⟩
      cases hf
      cases hu
      cases hi
      rfl
  | cons s rest ih =>
    simp only [runOnConstraints, Matching.run, List.foldlM_cons, Statement.onConstraints,
      Option.bind_eq_bind, Option.bind_eq_some_iff, Option.pure_def, Option.some.injEq] at ih ⊢
    constructor
    · rintro ⟨next, ⟨keys, hkeys, uniques, huniques, indexes, hindexes, rfl⟩, h⟩
      obtain ⟨keys', uniques', indexes', hk, hu, hi, rfl⟩ := ih.1 h
      exact ⟨keys', uniques', indexes', ⟨keys, hkeys, hk⟩, ⟨uniques, huniques, hu⟩,
        ⟨indexes, hindexes, hi⟩, rfl⟩
    · rintro ⟨keys', uniques', indexes', ⟨keys, hkeys, hk⟩, ⟨uniques, huniques, hu⟩,
        ⟨indexes, hindexes, hi⟩, rfl⟩
      exact ⟨_, ⟨keys, hkeys, uniques, huniques, indexes, hindexes, rfl⟩,
        ih.2 ⟨keys', uniques', indexes', hk, hu, hi, rfl⟩⟩

namespace Matching

variable {α : Type} {m : Matching α} {dropped : Statement → Option String}
  {added : Statement → Option α} {drops additions : List Statement} {l : List α}

theorem run_drops (h : ∀ s ∈ drops, added s = none) :
    m.run dropped added drops l = (drops.filterMap dropped).foldlM m.drop l := by
  induction drops generalizing l with
  | nil => rfl
  | cons s rest ih =>
    obtain ⟨hs, hrest⟩ := List.forall_mem_cons.1 h
    rw [run, List.foldlM_cons, hs]
    cases hd : dropped s with
    | none =>
      rw [List.filterMap_cons_none hd]
      exact ih hrest
    | some name =>
      rw [List.filterMap_cons_some hd, List.foldlM_cons]
      exact bind_congr fun next => ih hrest

theorem run_additions (h : ∀ s ∈ additions, dropped s = none) :
    m.run dropped added additions l = (additions.filterMap added).foldlM m.add l := by
  induction additions generalizing l with
  | nil => rfl
  | cons s rest ih =>
    obtain ⟨hs, hrest⟩ := List.forall_mem_cons.1 h
    rw [run, List.foldlM_cons, hs]
    cases ha : added s with
    | none =>
      rw [List.filterMap_cons_none ha]
      exact ih hrest
    | some a =>
      rw [List.filterMap_cons_some ha, List.foldlM_cons]
      exact bind_congr fun next => ih hrest

/-- A script that drops first and then adds drops and adds what its parts do. -/
theorem run_append (hd : ∀ s ∈ drops, added s = none) (ha : ∀ s ∈ additions, dropped s = none) :
    m.run dropped added (drops ++ additions) l =
      ((drops.filterMap dropped).foldlM m.drop l).bind
        fun l => (additions.filterMap added).foldlM m.add l := by
  rw [← run_drops hd, run, List.foldlM_append]
  exact bind_congr fun next => run_additions ha

/-- A script that drops what is not desired runs on what is left as its additions do. -/
theorem run_of_drops {observed desired : List α} (ho : m.IsDistinct observed)
    (hdrops : drops.filterMap dropped = (m.unwanted observed desired).map m.name)
    (hd : ∀ s ∈ drops, added s = none) (ha : ∀ s ∈ additions, dropped s = none) :
    m.run dropped added (drops ++ additions) observed =
      (additions.filterMap added).foldlM m.add (m.kept observed desired) := by
  rw [run_append hd ha, hdrops, foldlM_drop_unwanted ho]
  rfl

end Matching

end SqlDialects
