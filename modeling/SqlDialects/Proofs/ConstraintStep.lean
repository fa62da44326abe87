import SqlDialects.Proofs.Reported

/-!
# One constraint

To look at a declared constraint is to say what the catalog would report of it, and then to claim an
observed constraint that will do for it or to add it. This module says so of each kind, and what will
do, so that nothing later opens the planner for it.

Results:
1. `Entity.reconcileForeignKey_of_some`, `Entity.reconcileUnique_eq`, `Entity.reconcileIndex_eq`: how
   each kind is looked at.
2. `Entity.reconcileForeignKey_eq_ok`, `Entity.reconcileCheck_eq_ok`: what comes of a field and of a
   check.
-/

namespace SqlDialects

/-! ## What will do -/

theorem sameColumnSet_refl (columns : List String) : sameColumnSet columns columns = true := by
  rw [sameColumnSet, beq_self_eq_true, Bool.true_and, List.all_eq_true]
  exact fun column hc => List.any_eq_true.2 ⟨column, hc, Text.sameName_refl column⟩

/-- A kind of constraint: what one is called, and whether an observed one will do for a desired
one. -/
structure Matching (α : Type) where
  name : α → String
  covers : α → α → Bool
  sameName_of_covers {observed desired : α} :
    covers observed desired = true → Text.sameName (name observed) (name desired) = true
  covers_self (desired : α) : covers desired desired = true

/-- A foreign key will do for one of the same name, to the same table and column. -/
def CatalogForeignKey.matching : Matching CatalogForeignKey where
  name := CatalogForeignKey.name
  covers o d := Text.sameName o.name d.name && Text.sameName o.refTable d.refTable &&
    d.refColumns.all fun column => o.refColumns.any fun c => Text.sameName c column
  sameName_of_covers h := by
    simp only [Bool.and_eq_true] at h
    exact h.1.1
  covers_self d := by
    rw [Text.sameName_refl, Text.sameName_refl, Bool.true_and, Bool.true_and, List.all_eq_true]
    exact fun column hc => List.any_eq_true.2 ⟨column, hc, Text.sameName_refl column⟩

/-- A unique constraint will do for one of the same name and columns. -/
def CatalogUnique.matching : Matching CatalogUnique where
  name := CatalogUnique.name
  covers o d := Text.sameName o.name d.name && sameColumnSet o.columns d.columns
  sameName_of_covers h := (Bool.and_eq_true_iff.1 h).1
  covers_self d := by rw [Text.sameName_refl, sameColumnSet_refl]; rfl

/-- An index will do for one of the same name and columns, if both or none are unique. -/
def CatalogIndex.matching : Matching CatalogIndex where
  name := CatalogIndex.name
  covers o d := Text.sameName o.name d.name && o.unique == d.unique &&
    sameColumnSet o.columns d.columns
  sameName_of_covers h := by
    simp only [Bool.and_eq_true] at h
    exact h.1.1
  covers_self d := by rw [Text.sameName_refl, sameColumnSet_refl, beq_self_eq_true]; rfl

/-! ## How it is looked at -/

/-- What constraints are told apart by. -/
def ExistingConstraint.caseless (c : ExistingConstraint) : ConstraintKind × String :=
  (c.kind, Text.asciiLower c.name)

namespace Reconciliation

theorem isCalled_eq (name : String) (kind : ConstraintKind) :
    isCalled name kind = (· == (kind, Text.asciiLower name)) ∘ ExistingConstraint.caseless := by
  funext c
  rw [Bool.eq_iff_iff, isCalled, Bool.and_eq_true, Text.sameName_iff, beq_iff_eq,
    Function.comp_apply, beq_iff_eq, ExistingConstraint.caseless, Prod.mk.injEq]

theorem isCalled_iff {name : String} {kind : ConstraintKind} {c : ExistingConstraint} :
    isCalled name kind c = true ↔ c.caseless = (kind, Text.asciiLower name) := by
  rw [isCalled_eq, Function.comp_apply, beq_iff_eq]

theorem mem_additions_claimOrAdd {s t : Reconciliation} {isMatch : Bool}
    {name : String} {kind : ConstraintKind} {addition : Except Error Statement}
    (h : s.claimOrAdd isMatch name kind addition = .ok t) {a : Statement} (ha : a ∈ t.additions) :
    a ∈ s.additions ∨ addition = .ok a := by
  unfold claimOrAdd at h
  split at h
  · cases h
    exact .inl ha
  · obtain ⟨added, hadded, h⟩ := bind_eq_ok_iff.1 h
    cases h
    rcases List.mem_append.1 ha with ha | ha
    · exact .inl ha
    · exact .inr (List.mem_singleton.1 ha ▸ hadded)

end Reconciliation

namespace Entity

variable {e : Entity} {r : Registry} {d : Dialect} {existing : CatalogObject} {s t : Reconciliation}

theorem name_reportedForeignKey {f : Field} {reference : FieldReference} {c : CatalogForeignKey}
    (h : e.reportedForeignKey r f reference = .ok c) : c.name = e.foreignKeyName f := by
  obtain ⟨target, -, h⟩ := bind_eq_ok_iff.1 h
  obtain ⟨g, -, h⟩ := bind_eq_ok_iff.1 h
  cases h
  rfl

theorem name_reportedUnique {u : UniqueSpec} {c : CatalogUnique} (h : e.reportedUnique u = .ok c) :
    c.name = u.name := by
  obtain ⟨columns, -, h⟩ := bind_eq_ok_iff.1 h
  cases h
  rfl

theorem name_reportedIndex {i : IndexSpec} {c : CatalogIndex} (h : e.reportedIndex i = .ok c) :
    c.name = i.name ∧ c.unique = i.unique := by
  obtain ⟨columns, -, h⟩ := bind_eq_ok_iff.1 h
  cases h
  exact ⟨rfl, rfl⟩

theorem reconcileForeignKey_of_none {f : Field} (hf : f.foreignKey = none) :
    e.reconcileForeignKey r existing s f = .ok s := by
  rw [reconcileForeignKey, hf]

theorem reconcileForeignKey_of_some {f : Field} {reference : FieldReference}
    (hf : f.foreignKey = some reference) :
    e.reconcileForeignKey r existing s f = (do
      let c ← e.reportedForeignKey r f reference
      s.claimOrAdd (existing.foreignKeys.any (CatalogForeignKey.matching.covers · c)) c.name
        .foreignKey (e.addForeignKey r f.name)) := by
  rw [reconcileForeignKey, hf, reportedForeignKey]
  simp only [bind_assoc, pure_bind, CatalogForeignKey.matching, List.all_cons, List.all_nil,
    Bool.and_true]

/-- A field without a foreign key changes nothing. -/
theorem reconcileForeignKey_eq_ok {f : Field} (h : e.reconcileForeignKey r existing s f = .ok t) :
    t = s ∨ ∃ reference c, f.foreignKey = some reference ∧
      e.reportedForeignKey r f reference = .ok c ∧
      s.claimOrAdd (existing.foreignKeys.any (CatalogForeignKey.matching.covers · c)) c.name
        .foreignKey (e.addForeignKey r f.name) = .ok t := by
  cases hf : f.foreignKey with
  | none =>
    rw [reconcileForeignKey_of_none hf] at h
    cases h
    exact .inl rfl
  | some reference =>
    rw [reconcileForeignKey_of_some hf] at h
    obtain ⟨c, hc, h⟩ := bind_eq_ok_iff.1 h
    exact .inr ⟨reference, c, rfl, hc, h⟩

theorem reconcileUnique_eq {u : UniqueSpec} :
    e.reconcileUnique d existing s u = (do
      let c ← e.reportedUnique u
      s.claimOrAdd (existing.uniqueConstraints.any (CatalogUnique.matching.covers · c)) c.name
        .unique (e.addUnique d u)) := by
  rw [reconcileUnique, reportedUnique]
  simp only [bind_assoc, pure_bind, CatalogUnique.matching]

theorem reconcileIndex_eq {i : IndexSpec} :
    e.reconcileIndex d existing s i = (do
      let c ← e.reportedIndex i
      s.claimOrAdd (existing.indexes.any (CatalogIndex.matching.covers · c)) c.name
        .index (e.createIndex d i)) := by
  rw [reconcileIndex, reportedIndex]
  simp only [bind_assoc, pure_bind, CatalogIndex.matching]

/-- Whether no check of the name is there. -/
def lacksCheck (existing : CatalogObject) (c : CheckSpec) : Bool :=
  !existing.checkConstraints.any fun name => Text.sameName name c.name

theorem reconcileCheck_of_there {c : CheckSpec} (h : lacksCheck existing c = false) :
    e.reconcileCheck d existing s c = .ok s := by
  rw [lacksCheck, Bool.not_eq_false'] at h
  rw [reconcileCheck, if_pos h]

theorem reconcileCheck_of_lacksCheck {c : CheckSpec} (h : lacksCheck existing c = true) :
    e.reconcileCheck d existing s c =
      (do return { s with additions := s.additions ++ [← e.addCheck d c] }) := by
  rw [lacksCheck, Bool.not_eq_true'] at h
  rw [reconcileCheck, h, if_neg Bool.false_ne_true]

theorem reconcileCheck_eq_ok {c : CheckSpec} (h : e.reconcileCheck d existing s c = .ok t) :
    t = s ∨ ∃ a, e.addCheck d c = .ok a ∧ t = { s with additions := s.additions ++ [a] } := by
  cases hlacks : lacksCheck existing c with
  | false =>
    rw [reconcileCheck_of_there hlacks] at h
    cases h
    exact .inl rfl
  | true =>
    rw [reconcileCheck_of_lacksCheck hlacks] at h
    obtain ⟨a, ha, h⟩ := bind_eq_ok_iff.1 h
    cases h
    exact .inr ⟨a, ha, rfl⟩

end Entity

end SqlDialects
