import SqlDialects.Proofs.ConstraintScript

/-!
# Indexes that stay

The columns of an index have an order. Before an existing index is left where it is, it is compared
with the one that the entity declares: the name, whether it is unique, and the columns, but these as
if their order did not matter. This module says how many of the existing indexes of a name a script
drops, whatever else the catalog reports, and when the one that stays is not the one declared.

Results:
1. `Reconciliation.Leaves.foldlM`: what a pass over indexes leaves of a name.
2. `Entity.countP_droppedIndexes`: how many indexes of a name a script drops.
3. `Entity.leavesIndex_iff`: which index stays; `restacked_notes_stay`: it may be another one.
-/

namespace SqlDialects

/-! ## The same index -/

/-- Whether columns are others one by one, but for case. -/
def SameColumns (observed desired : List String) : Prop :=
  List.Forall₂ (fun o c => Text.sameName o c = true) observed desired

instance (observed desired : List String) : Decidable (SameColumns observed desired) :=
  inferInstanceAs (Decidable (List.Forall₂ _ _ _))

theorem sameColumnSet_iff {observed desired : List String} :
    sameColumnSet observed desired = true ↔
      observed.length = desired.length ∧
        ∀ c ∈ desired, ∃ o ∈ observed, Text.sameName o c = true := by
  simp only [sameColumnSet, Bool.and_eq_true, beq_iff_eq, List.all_eq_true, List.any_eq_true]

theorem SameColumns.sameColumnSet {observed desired : List String}
    (h : SameColumns observed desired) : sameColumnSet observed desired = true :=
  sameColumnSet_iff.2 ⟨h.length_eq, fun _ hc => exists_mem_of_forall₂ h.flip hc⟩

namespace CatalogIndex

theorem covers_iff {x d : CatalogIndex} :
    matching.covers x d = true ↔ Text.sameName x.name d.name = true ∧ x.unique = d.unique ∧
      sameColumnSet x.columns d.columns = true := by
  simp only [matching, Bool.and_eq_true, beq_iff_eq, and_assoc]

end CatalogIndex

/-! ## What passes leave -/

namespace Reconciliation

variable {s t : Reconciliation} {name : String} {n : Nat}

/-- The kinds and names of what nothing has claimed. -/
def keys (s : Reconciliation) : List (ConstraintKind × String) :=
  s.leftovers.map ExistingConstraint.caseless

/-- Something is claimed by its name, or there is nothing of the name. -/
theorem keys_claimOrAdd {isMatch : Bool} {kind : ConstraintKind}
    {addition : Except Error Statement} (h : s.claimOrAdd isMatch name kind addition = .ok t) :
    t.keys = if isMatch then s.keys.erase (kind, Text.asciiLower name) else s.keys := by
  unfold claimOrAdd at h
  split at h
  · next hclaim =>
    cases h
    rw [if_pos (Bool.and_eq_true_iff.1 hclaim).1, keys, keys, List.erase_eq_eraseP',
      List.eraseP_map, ← isCalled_eq]
  · next hclaim =>
    obtain ⟨a, -, h⟩ := bind_eq_ok_iff.1 h
    cases h
    split
    · next hmatch =>
      refine (List.erase_of_not_mem fun hmem => hclaim ?_).symm
      obtain ⟨c, hc, hkey⟩ := List.mem_map.1 hmem
      exact Bool.and_eq_true_iff.2 ⟨hmatch, List.any_eq_true.2 ⟨c, hc, isCalled_iff.2 hkey⟩⟩
    · rfl

/-- Of the existing indexes of a name, so many are not claimed; no addition drops one. -/
structure Leaves (s : Reconciliation) (name : String) (n : Nat) : Prop where
  unclaimed : s.keys.count (.index, Text.asciiLower name) = n
  additions : ∀ a ∈ s.additions, a.droppedIndex? = none

/-- An index of the name may be claimed. -/
theorem Leaves.claimIndex {isMatch : Bool} {called : String} {addition : Except Error Statement}
    (hs : s.Leaves name n) (hadds : ∀ a, addition = .ok a → a.droppedIndex? = none)
    (h : s.claimOrAdd isMatch called .index addition = .ok t) :
    t.Leaves name (n - if Text.sameName called name && isMatch then 1 else 0) := by
  refine ⟨?_, fun a ha => (mem_additions_claimOrAdd h ha).elim (hs.additions a) (hadds a)⟩
  have hname : ((ConstraintKind.index, Text.asciiLower called) ==
      (ConstraintKind.index, Text.asciiLower name)) = Text.sameName called name := by
    rw [Bool.eq_iff_iff, beq_iff_eq, Prod.mk.injEq, and_iff_right rfl, Text.sameName_iff]
  rw [keys_claimOrAdd h, ← hs.unclaimed]
  cases isMatch with
  | true => rw [if_pos rfl, List.count_erase, hname, Bool.and_true]
  | false => rw [if_neg Bool.false_ne_true, Bool.and_false, if_neg Bool.false_ne_true, Nat.sub_zero]

/-- Constraints of another kind are claimed from among their own. -/
theorem Leaves.claimOther {isMatch : Bool} {called : String} {kind : ConstraintKind}
    {addition : Except Error Statement} (hs : s.Leaves name n) (hkind : kind ≠ .index)
    (hadds : ∀ a, addition = .ok a → a.droppedIndex? = none)
    (h : s.claimOrAdd isMatch called kind addition = .ok t) : t.Leaves name n := by
  refine ⟨?_, fun a ha => (mem_additions_claimOrAdd h ha).elim (hs.additions a) (hadds a)⟩
  rw [keys_claimOrAdd h, ← hs.unclaimed]
  split
  · exact List.count_erase_of_ne fun heq => hkind (Prod.mk.inj heq).1.symm
  · rfl

/-- A pass leaves one fewer of the name for each entry that claims one, while there are any. -/
theorem Leaves.foldlM {β : Type} {step : Reconciliation → β → Except Error Reconciliation}
    {claims : β → Bool} {items : List β}
    (hstep : ∀ a ∈ items, ∀ s t n, s.Leaves name n → step s a = .ok t →
      t.Leaves name (n - if claims a then 1 else 0))
    (hs : s.Leaves name n) (h : items.foldlM step s = .ok t) :
    t.Leaves name (n - items.countP claims) := by
  induction items generalizing s n with
  | nil =>
    cases h
    exact hs
  | cons a rest ih =>
    obtain ⟨ha, hrest⟩ := List.forall_mem_cons.1 hstep
    rw [List.foldlM_cons] at h
    obtain ⟨u, hu, h⟩ := bind_eq_ok_iff.1 h
    have hlast := ih hrest (ha s u n hs hu) h
    rwa [Nat.sub_sub, Nat.add_comm, ← List.countP_cons] at hlast

end Reconciliation

theorem CatalogObject.count_keysOf_of_ne {α : Type} {m : Matching α} {kind other : ConstraintKind}
    (h : other ≠ kind) (l : List α) (name : String) : (keysOf m kind l).count (other, name) = 0 :=
  List.count_eq_zero.2 fun hmem => h (kind_of_mem_keysOf hmem)

/-- At first nothing is claimed. -/
theorem CatalogObject.leaves_constraints (o : CatalogObject) (name : String) :
    Reconciliation.Leaves ⟨o.constraints, []⟩ name
      (o.indexes.countP fun x => Text.sameName x.name name) := by
  refine ⟨?_, fun _ ha => absurd ha List.not_mem_nil⟩
  rw [Reconciliation.keys, map_caseless_constraints, List.count_append, List.count_append,
    count_keysOf_of_ne (by decide), count_keysOf_of_ne (by decide), Nat.zero_add, keysOf,
    List.count_eq_countP, List.countP_map]
  refine List.countP_congr fun x _ => ?_
  rw [Function.comp_apply, beq_iff_eq, Prod.mk.injEq, and_iff_right rfl, Text.sameName_iff]
  rfl

/-- A run that succeeds takes each of its steps. -/
theorem exists_step_of_foldlM {ε σ α : Type} {step : σ → α → Except ε σ} {as : List α} {s t : σ}
    (h : as.foldlM step s = .ok t) {a : α} (ha : a ∈ as) : ∃ u v, step u a = .ok v := by
  induction as generalizing s with
  | nil => cases ha
  | cons b rest ih =>
    rw [List.foldlM_cons] at h
    obtain ⟨u, hu, h⟩ := bind_eq_ok_iff.1 h
    rcases List.mem_cons.1 ha with rfl | ha
    · exact ⟨s, u, hu⟩
    · exact ih h ha

/-- What is counted once is one entry. -/
theorem eq_of_countP_eq_one {α : Type} {p : α → Bool} {l : List α} (h : l.countP p = 1) {a b : α}
    (ha : a ∈ l) (hpa : p a = true) (hb : b ∈ l) (hpb : p b = true) : a = b := by
  rw [List.countP_eq_length_filter] at h
  obtain ⟨c, hc⟩ := List.length_eq_one_iff.1 h
  have hac : a ∈ l.filter p := List.mem_filter.2 ⟨ha, hpa⟩
  have hbc : b ∈ l.filter p := List.mem_filter.2 ⟨hb, hpb⟩
  rw [hc, List.mem_singleton] at hac hbc
  exact hac.trans hbc.symm

/-! ## What a script drops -/

/-- Names of the indexes that a script drops. -/
def droppedIndexes (statements : List Statement) : List String :=
  statements.filterMap (·.droppedIndex?)

/-- Whether a script drops no index of a name. -/
def LeavesIndex (statements : List Statement) (name : String) : Prop :=
  ∀ dropped ∈ droppedIndexes statements, Text.sameName dropped name = false

namespace Entity

variable {e : Entity} {r : Registry} {keys : Bool} {existing : CatalogObject}
  {statements : List Statement} {desired : IndexSpec → CatalogIndex}

theorem droppedIndex?_dropLeftover (e : Entity) (d : Dialect) (c : ExistingConstraint) :
    (Reconciliation.dropLeftover e d c).droppedIndex? =
      if c.kind = .index then some c.name else none := by
  unfold Reconciliation.dropLeftover
  cases c.kind <;> rfl

/-- What was not claimed is dropped. -/
theorem countP_droppedIndexes_of_leaves {s : Reconciliation} {name : String} {n : Nat}
    (h : s.Leaves name n) (e : Entity) (d : Dialect) :
    (droppedIndexes (s.leftovers.map (Reconciliation.dropLeftover e d) ++ s.additions)).countP
      (Text.sameName · name) = n := by
  have hadds : s.additions.filterMap (·.droppedIndex?) = [] :=
    List.filterMap_eq_nil_iff.2 h.additions
  rw [droppedIndexes, List.filterMap_append, hadds, List.append_nil, List.filterMap_map,
    List.countP_filterMap, ← h.unclaimed, Reconciliation.keys, List.count_eq_countP,
    List.countP_map]
  refine List.countP_congr fun c _ => ?_
  rw [Function.comp_apply, droppedIndex?_dropLeftover, Function.comp_apply, beq_iff_eq,
    ExistingConstraint.caseless, Prod.mk.injEq, ← Text.sameName_iff]
  split
  · next hkind => simp [hkind]
  · next hkind => simp [hkind]

theorem droppedIndex?_addForeignKey {name : String} {a : Statement}
    (h : e.addForeignKey r name = .ok a) : a.droppedIndex? = none := by
  obtain ⟨_, _, _, -, -, -, hadds⟩ := adds_addForeignKey h
  exact hadds.drops.2.2

theorem leaves_foreignKeys {s t : Reconciliation} {name : String} {n : Nat}
    (hs : s.Leaves name n)
    (h : (if keys then e.tableFields.foldlM (e.reconcileForeignKey r existing) s else .ok s) =
      .ok t) : t.Leaves name n := by
  split at h
  · refine foldlM_invariant (p := (Reconciliation.Leaves · name n)) (fun f _ s t hs ht => ?_) hs h
    obtain rfl | ⟨_, _, -, -, ht⟩ := reconcileForeignKey_eq_ok ht
    · exact hs
    · exact hs.claimOther (by decide) (fun a ha => droppedIndex?_addForeignKey ha) ht
  · cases h
    exact hs

theorem leaves_uniques {s t : Reconciliation} {name : String} {n : Nat} (hs : s.Leaves name n)
    (h : e.source.uniqueConstraints.foldlM (e.reconcileUnique r.dialect existing) s = .ok t) :
    t.Leaves name n := by
  refine foldlM_invariant (p := (Reconciliation.Leaves · name n)) (fun u _ s t hs ht => ?_) hs h
  rw [reconcileUnique_eq] at ht
  obtain ⟨c, -, ht⟩ := bind_eq_ok_iff.1 ht
  refine hs.claimOther (by decide) (fun a ha => ?_) ht
  obtain ⟨_, -, ha⟩ := bind_eq_ok_iff.1 ha
  cases ha
  rfl

/-- Each declared index that an existing one will do for claims one of its name. -/
theorem leaves_indexes {s t : Reconciliation} {name : String} {n : Nat} (hs : s.Leaves name n)
    (hdesired : ∀ i ∈ e.source.indexes, e.reportedIndex i = .ok (desired i))
    (h : e.source.indexes.foldlM (e.reconcileIndex r.dialect existing) s = .ok t) :
    t.Leaves name (n - e.source.indexes.countP fun i => Text.sameName (desired i).name name &&
      existing.indexes.any (CatalogIndex.matching.covers · (desired i))) := by
  refine Reconciliation.Leaves.foldlM (fun i hi s t n hs ht => ?_) hs h
  rw [reconcileIndex_eq, hdesired i hi] at ht
  exact hs.claimIndex (fun a ha => (adds_createIndex (hdesired i hi) ha).drops.2.2) ht

theorem leaves_checks {s t : Reconciliation} {name : String} {n : Nat} (hs : s.Leaves name n)
    (h : e.source.checkConstraints.foldlM (e.reconcileCheck r.dialect existing) s = .ok t) :
    t.Leaves name n := by
  refine foldlM_invariant (p := (Reconciliation.Leaves · name n)) (fun c _ s t hs ht => ?_) hs h
  obtain rfl | ⟨a, ha, rfl⟩ := reconcileCheck_eq_ok ht
  · exact hs
  · exact ⟨hs.unclaimed, List.forall_mem_append.2
      ⟨hs.additions, List.forall_mem_singleton.2 (adds_addCheck ha).drops.2.2⟩⟩

/-- A script drops as many indexes of a name as there are more than declared ones that an existing
one will do for. -/
theorem countP_droppedIndexes
    (hdesired : ∀ i ∈ e.source.indexes, e.reportedIndex i = .ok (desired i))
    (h : e.convergeConstraints r keys existing = .ok statements) (name : String) :
    (droppedIndexes statements).countP (Text.sameName · name) =
      (existing.indexes.countP fun x => Text.sameName x.name name) -
        e.source.indexes.countP fun i => Text.sameName (desired i).name name &&
          existing.indexes.any (CatalogIndex.matching.covers · (desired i)) := by
  rw [convergeConstraints_eq] at h
  obtain ⟨withKeys, hkeys, h⟩ := bind_eq_ok_iff.1 h
  obtain ⟨withUniques, huniques, h⟩ := bind_eq_ok_iff.1 h
  obtain ⟨withIndexes, hindexes, h⟩ := bind_eq_ok_iff.1 h
  obtain ⟨final, hchecks, h⟩ := bind_eq_ok_iff.1 h
  cases h
  have hstart := existing.leaves_constraints name
  have hothers := leaves_uniques (leaves_foreignKeys hstart hkeys) huniques
  exact countP_droppedIndexes_of_leaves (leaves_checks (leaves_indexes hothers hdesired hindexes)
    hchecks) e r.dialect

/-- Every declared index was looked at, so its columns are known. -/
theorem exists_reportedIndex (h : e.convergeConstraints r keys existing = .ok statements) :
    ∃ desired : IndexSpec → CatalogIndex,
      ∀ i ∈ e.source.indexes, e.reportedIndex i = .ok (desired i) := by
  rw [convergeConstraints_eq] at h
  obtain ⟨withKeys, -, h⟩ := bind_eq_ok_iff.1 h
  obtain ⟨withUniques, -, h⟩ := bind_eq_ok_iff.1 h
  obtain ⟨withIndexes, hindexes, -⟩ := bind_eq_ok_iff.1 h
  have hall : ∀ i ∈ e.source.indexes, ∃ c, e.reportedIndex i = .ok c := fun i hi => by
    obtain ⟨s, t, ht⟩ := exists_step_of_foldlM hindexes hi
    rw [reconcileIndex_eq] at ht
    obtain ⟨c, hc, -⟩ := bind_eq_ok_iff.1 ht
    exact ⟨c, hc⟩
  choose! desired hdesired using hall
  exact ⟨desired, hdesired⟩

theorem leavesIndex_iff_countP_eq_zero {name : String} :
    LeavesIndex statements name ↔
      (droppedIndexes statements).countP (Text.sameName · name) = 0 := by
  rw [List.countP_eq_zero]
  exact forall₂_congr fun dropped _ => Bool.eq_false_iff

/-- Where a name is that of one existing and one declared index, the one stays exactly if it will do
for the other. -/
theorem leavesIndex_iff_covers
    (hdesired : ∀ i ∈ e.source.indexes, e.reportedIndex i = .ok (desired i))
    (h : e.convergeConstraints r keys existing = .ok statements) {x : CatalogIndex}
    (hx : x ∈ existing.indexes) {i : IndexSpec} (hi : i ∈ e.source.indexes)
    (hname : Text.sameName x.name i.name = true)
    (hexisting : (existing.indexes.countP fun y => Text.sameName y.name i.name) = 1)
    (hdeclared : (e.source.indexes.countP fun j => Text.sameName j.name i.name) = 1) :
    LeavesIndex statements i.name ↔ CatalogIndex.matching.covers x (desired i) = true := by
  have hcalled : ∀ j ∈ e.source.indexes, (desired j).name = j.name := fun j hj =>
    (name_reportedIndex (hdesired j hj)).1
  rw [leavesIndex_iff_countP_eq_zero, countP_droppedIndexes hdesired h, hexisting,
    Nat.sub_eq_zero_iff_le, Nat.one_le_iff_ne_zero, ← Nat.pos_iff_ne_zero, List.countP_pos_iff]
  constructor
  · rintro ⟨j, hj, hclaims⟩
    rw [Bool.and_eq_true, List.any_eq_true, hcalled j hj] at hclaims
    obtain ⟨hsame, y, hy, hcovers⟩ := hclaims
    obtain rfl : j = i := eq_of_countP_eq_one hdeclared hj hsame hi (Text.sameName_refl i.name)
    have hyname : Text.sameName y.name j.name = true := by
      rw [← hcalled j hj]
      exact (CatalogIndex.covers_iff.1 hcovers).1
    obtain rfl : y = x := eq_of_countP_eq_one hexisting hy hyname hx hname
    exact hcovers
  · intro hcovers
    refine ⟨i, hi, Bool.and_eq_true_iff.2 ⟨?_, List.any_eq_true.2 ⟨x, hx, hcovers⟩⟩⟩
    rw [hcalled i hi]
    exact Text.sameName_refl i.name

/-- Of the existing indexes of a name, a script drops as many as there are more than declared ones
that an existing one will do for. Where the name is that of one existing and one declared index, the
index stays exactly if both or none are unique, and the one has as many columns as the other, with
each of the declared ones among them. So the declared index stays, and nothing but the declared one
does unless another one has these columns in some other order. -/
theorem leavesIndex_iff (h : e.convergeConstraints r keys existing = .ok statements) :
    ∃ desired : IndexSpec → CatalogIndex,
      (∀ i ∈ e.source.indexes, e.reportedIndex i = .ok (desired i)) ∧
      (∀ name, (droppedIndexes statements).countP (Text.sameName · name) =
        (existing.indexes.countP fun x => Text.sameName x.name name) -
          e.source.indexes.countP fun i => Text.sameName (desired i).name name &&
            existing.indexes.any (CatalogIndex.matching.covers · (desired i))) ∧
      ∀ x ∈ existing.indexes, ∀ i ∈ e.source.indexes, Text.sameName x.name i.name = true →
        (existing.indexes.countP fun y => Text.sameName y.name i.name) = 1 →
        (e.source.indexes.countP fun j => Text.sameName j.name i.name) = 1 →
        (LeavesIndex statements i.name ↔ x.unique = i.unique ∧
          x.columns.length = (desired i).columns.length ∧
            ∀ c ∈ (desired i).columns, ∃ o ∈ x.columns, Text.sameName o c = true) ∧
        ((LeavesIndex statements i.name ↔
            x.unique = i.unique ∧ SameColumns x.columns (desired i).columns) ↔
          ¬(x.unique = i.unique ∧ sameColumnSet x.columns (desired i).columns = true ∧
            ¬SameColumns x.columns (desired i).columns)) := by
  obtain ⟨desired, hdesired⟩ := exists_reportedIndex h
  refine ⟨desired, hdesired, countP_droppedIndexes hdesired h, ?_⟩
  intro x hx i hi hname hexisting hdeclared
  obtain ⟨hcalled, hunique⟩ := name_reportedIndex (hdesired i hi)
  have hstays : LeavesIndex statements i.name ↔ x.unique = i.unique ∧
      sameColumnSet x.columns (desired i).columns = true := by
    rw [leavesIndex_iff_covers hdesired h hx hi hname hexisting hdeclared,
      CatalogIndex.covers_iff, hcalled, hunique, and_iff_right hname]
  refine ⟨hstays.trans (and_congr_right fun _ => sameColumnSet_iff), ?_⟩
  rw [hstays]
  constructor
  · rintro hsame ⟨hunique, hset, hother⟩
    exact hother (hsame.1 ⟨hunique, hset⟩).2
  · intro hnone
    refine ⟨fun ⟨hunique, hset⟩ => ⟨hunique, ?_⟩, fun ⟨hunique, hsame⟩ =>
      ⟨hunique, hsame.sameColumnSet⟩⟩
    by_contra hother
    exact hnone ⟨hunique, hset, hother⟩

end Entity

/-! ## Notes by author and state -/

/-- A note with an index by author and state. -/
def indexedNoteSpec : EntitySpec :=
  { EntitySpec.named "Note" with
    fields := [(FieldSpec.named "id" .long).asPrimaryKey, FieldSpec.named "author" .long,
      { FieldSpec.named "state" .string with length := 16 }]
    indexes := [{ name := "ix_note", fieldNames := ["author", "state"] }] }

/-- A registry of notes. -/
def indexedNotes : Registry :=
  Registry.ofSpecs (Dialect.builtin .hsqldb) [indexedNoteSpec]

/-- The table of notes as reported, with an index of such columns. -/
def reportedNotes (columns : List String) : CatalogObject :=
  { name := "NOTE", indexes := [⟨"IX_NOTE", columns, false⟩] }

/-- The declared index stays, though its name and columns are reported in capitals. -/
theorem stacked_notes_stay :
    ∃ (note : Entity) (statements : List Statement) (desired : IndexSpec → CatalogIndex),
      indexedNotes.get "Note" = .ok note ∧
      note.convergeConstraints indexedNotes false (reportedNotes ["AUTHOR", "STATE"]) =
        .ok statements ∧
      (∀ i ∈ note.source.indexes, note.reportedIndex i = .ok (desired i)) ∧
      ∃ i ∈ note.source.indexes, SameColumns ["AUTHOR", "STATE"] (desired i).columns ∧
        LeavesIndex statements i.name := by
  obtain ⟨note, hnote, htest⟩ : ∃ note, indexedNotes.get "Note" = .ok note ∧
      ((note.convergeConstraints indexedNotes false
          (reportedNotes ["AUTHOR", "STATE"])).toOption.isSome &&
        note.source.indexes.any fun i =>
          decide (Text.sameName "IX_NOTE" i.name = true ∧ i.unique = false ∧
            (note.source.indexes.countP fun j => Text.sameName j.name i.name) = 1) &&
          (note.reportedIndex i).toOption.any fun d =>
            decide (SameColumns ["AUTHOR", "STATE"] d.columns)) = true :=
    exists_ok_of_any (by decide +kernel)
  obtain ⟨hplan, hindex⟩ := Bool.and_eq_true_iff.1 htest
  obtain ⟨statements, hs, -⟩ := exists_ok_of_any (p := fun _ => true) (by simpa using hplan)
  obtain ⟨i, hi, hindex⟩ := List.any_eq_true.1 hindex
  obtain ⟨hdeclared, hreported⟩ := Bool.and_eq_true_iff.1 hindex
  obtain ⟨hname, hunique, hdeclared⟩ := of_decide_eq_true hdeclared
  obtain ⟨d, hd, hcolumns⟩ := exists_ok_of_any hreported
  have hcolumns := of_decide_eq_true hcolumns
  obtain ⟨desired, hdesired, -, hstays⟩ := Entity.leavesIndex_iff hs
  obtain rfl : d = desired i := Except.ok.inj (hd.symm.trans (hdesired i hi))
  have hexisting : ((reportedNotes ["AUTHOR", "STATE"]).indexes.countP fun y =>
      Text.sameName y.name i.name) = 1 := by
    rw [reportedNotes, List.countP_singleton, if_pos hname]
  obtain ⟨-, hexact⟩ := hstays _ (List.mem_singleton_self _) i hi hname hexisting hdeclared
  exact ⟨note, statements, desired, hnote, hs, hdesired, i, hi, hcolumns,
    (hexact.2 fun hother => hother.2.2 hcolumns).2 ⟨hunique.symm, hcolumns⟩⟩

/-- An index by state and author stays where one by author and state is declared. -/
theorem restacked_notes_stay :
    indexedNotes.IsReachable ∧
      ∃ note, indexedNotes.get "Note" = .ok note ∧
        note.convergeConstraints indexedNotes false (reportedNotes ["STATE", "AUTHOR"]) = .ok [] ∧
        ∃ i ∈ note.source.indexes, ∃ d, note.reportedIndex i = .ok d ∧
          Text.sameName "IX_NOTE" i.name = true ∧ d.columns = ["AUTHOR", "STATE"] ∧
          ¬SameColumns ["STATE", "AUTHOR"] d.columns ∧ LeavesIndex [] i.name := by
  have hr : indexedNotes.IsReachable :=
    Registry.isReachable_ofSpecs (List.forall_mem_singleton.2
      (EntitySpec.isFinished_of_build (by decide)))
  obtain ⟨note, hnote, htest⟩ : ∃ note, indexedNotes.get "Note" = .ok note ∧
      ((note.convergeConstraints indexedNotes false
          (reportedNotes ["STATE", "AUTHOR"])).toOption.any (fun statements =>
            decide (statements = [])) &&
        note.source.indexes.any fun i =>
          (note.reportedIndex i).toOption.any fun d =>
            decide (Text.sameName "IX_NOTE" i.name = true ∧ d.columns = ["AUTHOR", "STATE"] ∧
              ¬SameColumns ["STATE", "AUTHOR"] d.columns)) = true :=
    exists_ok_of_any (by decide +kernel)
  obtain ⟨hplan, hindex⟩ := Bool.and_eq_true_iff.1 htest
  obtain ⟨statements, hs, hnone⟩ := exists_ok_of_any hplan
  obtain rfl := of_decide_eq_true hnone
  obtain ⟨i, hi, hindex⟩ := List.any_eq_true.1 hindex
  obtain ⟨d, hd, hindex⟩ := exists_ok_of_any hindex
  obtain ⟨hname, hcolumns, hother⟩ := of_decide_eq_true hindex
  exact ⟨hr, note, hnote, hs, i, hi, d, hd, hname, hcolumns, hother,
    fun _ h => absurd h List.not_mem_nil⟩

end SqlDialects
