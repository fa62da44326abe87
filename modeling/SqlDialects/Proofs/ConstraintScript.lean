import SqlDialects.Proofs.ConstraintPass
import SqlDialects.Proofs.UpToDate

/-!
# Bringing constraints to what an entity declares

The script for the constraints of a table drops what is not desired, and adds what is missing.
Foreign keys are compared field by field, but added by the name of the field. Where several fields
have one name, the key of another field may be added instead.

Results:
1. `Entity.isReconciliation_of_convergeConstraints`: what the script drops and adds.
2. `Entity.runOnConstraints_iff`: when it runs and leaves what is desired.
3. `Entity.convergeConstraints_reconciles`: both for any entity, and when constraints can be planned.
-/

namespace SqlDialects

namespace Entity

variable {e : Entity} {r : Registry} {keys : Bool} {existing desired : CatalogObject}
  {key : Field × FieldReference → CatalogForeignKey} {unique : UniqueSpec → CatalogUnique}
  {index : IndexSpec → CatalogIndex} {statements : List Statement}

/-! ## What the script drops and adds -/

/-- A statement that adds a constraint, and what it adds. -/
structure Adds (s : Statement) (key? : Option CatalogForeignKey) (unique? : Option CatalogUnique)
    (index? : Option CatalogIndex) (check : Bool) : Prop where
  foreignKey : s.addedForeignKey? = key?
  unique : s.addedUnique? = unique?
  index : s.addedIndex? = index?
  check : s.isOnCheck = check
  drops : s.droppedForeignKey? = none ∧ s.droppedUnique? = none ∧ s.droppedIndex? = none

theorem adds_addForeignKey {name : String} {s : Statement} (h : e.addForeignKey r name = .ok s) :
    ∃ f reference c, e.tableField name = .ok f ∧ f.foreignKey = some reference ∧
      e.reportedForeignKey r f reference = .ok c ∧ Adds s (some c) none none false := by
  obtain ⟨f, hf, h⟩ := bind_eq_ok_iff.1 h
  split at h
  · cases h
  · next reference href =>
    obtain ⟨target, htarget, h⟩ := bind_eq_ok_iff.1 h
    obtain ⟨g, hg, h⟩ := bind_eq_ok_iff.1 h
    cases h
    exact ⟨f, reference, _, hf, href,
      bind_eq_ok_iff.2 ⟨target, htarget, bind_eq_ok_iff.2 ⟨g, hg, rfl⟩⟩,
      ⟨rfl, rfl, rfl, rfl, ⟨rfl, rfl, rfl⟩⟩⟩

theorem rawColumns_eq {names : List String} {columns : List Name}
    (h : e.columns names = .ok columns) : e.rawColumns names = .ok (columns.map Name.raw) := by
  rw [rawColumns, h]
  rfl

theorem adds_addUnique {d : Dialect} {u : UniqueSpec} {c : CatalogUnique} {s : Statement}
    (hc : e.reportedUnique u = .ok c) (h : e.addUnique d u = .ok s) :
    Adds s none (some c) none false := by
  obtain ⟨columns, hcolumns, h⟩ := bind_eq_ok_iff.1 h
  obtain ⟨raw, hraw, hc⟩ := bind_eq_ok_iff.1 hc
  cases (rawColumns_eq hcolumns).symm.trans hraw
  cases hc
  cases h
  exact ⟨rfl, rfl, rfl, rfl, ⟨rfl, rfl, rfl⟩⟩

theorem adds_createIndex {d : Dialect} {i : IndexSpec} {c : CatalogIndex} {s : Statement}
    (hc : e.reportedIndex i = .ok c) (h : e.createIndex d i = .ok s) :
    Adds s none none (some c) false := by
  obtain ⟨columns, hcolumns, h⟩ := bind_eq_ok_iff.1 h
  obtain ⟨raw, hraw, hc⟩ := bind_eq_ok_iff.1 hc
  cases (rawColumns_eq hcolumns).symm.trans hraw
  cases hc
  cases h
  exact ⟨rfl, rfl, rfl, rfl, ⟨rfl, rfl, rfl⟩⟩

theorem adds_addCheck {d : Dialect} {c : CheckSpec} {s : Statement} (h : e.addCheck d c = .ok s) :
    Adds s none none none true := by
  obtain ⟨f, _, h⟩ := bind_eq_ok_iff.1 h
  obtain ⟨literals, _, h⟩ := bind_eq_ok_iff.1 h
  cases h
  exact ⟨rfl, rfl, rfl, rfl, ⟨rfl, rfl, rfl⟩⟩

/-- The statements that drop constraints say what they drop, and add nothing. -/
theorem filterMap_constraintDrops (e : Entity) (d : Dialect) (existing desired : CatalogObject) :
    (e.constraintDrops d existing desired).filterMap (·.droppedForeignKey?) =
        (CatalogForeignKey.matching.unwanted existing.foreignKeys desired.foreignKeys).map (·.name) ∧
      (e.constraintDrops d existing desired).filterMap (·.droppedUnique?) =
        (CatalogUnique.matching.unwanted existing.uniqueConstraints
          desired.uniqueConstraints).map (·.name) ∧
      (e.constraintDrops d existing desired).filterMap (·.droppedIndex?) =
        (CatalogIndex.matching.unwanted existing.indexes desired.indexes).map (·.name) := by
  simp only [constraintDrops, List.filterMap_append, List.filterMap_map, Function.comp_def]
  simp [dropForeignKey, dropUnique, dropIndex, Naming.name, Statement.droppedForeignKey?,
    Statement.droppedUnique?, Statement.droppedIndex?, List.filterMap_eq_map']

theorem adds_none_of_mem_constraintDrops {d : Dialect} {s : Statement}
    (h : s ∈ e.constraintDrops d existing desired) :
    s.addedForeignKey? = none ∧ s.addedUnique? = none ∧ s.addedIndex? = none ∧
      s.isOnCheck = false := by
  simp only [constraintDrops, List.mem_append, List.mem_map] at h
  rcases h with (⟨o, _, rfl⟩ | ⟨o, _, rfl⟩) | ⟨o, _, rfl⟩
  · exact ⟨rfl, rfl, rfl, rfl⟩
  · exact ⟨rfl, rfl, rfl, rfl⟩
  · exact ⟨rfl, rfl, rfl, rfl⟩

/-- The parts of a script that adds constraints. -/
structure AddsParts (e : Entity) (r : Registry) (existing : CatalogObject)
    (additions foreignKeys : List Statement) (uniques : List CatalogUnique)
    (indexes : List CatalogIndex) : Prop where
  foreignKeys : additions.filterMap (·.addedForeignKey?) = foreignKeys.filterMap (·.addedForeignKey?)
  uniques : additions.filterMap (·.addedUnique?) = uniques
  indexes : additions.filterMap (·.addedIndex?) = indexes
  checks : (e.source.checkConstraints.filter (lacksCheck existing)).mapM (e.addCheck r.dialect) =
    .ok (additions.filter (·.isOnCheck))
  drops : ∀ s ∈ additions,
    s.droppedForeignKey? = none ∧ s.droppedUnique? = none ∧ s.droppedIndex? = none

theorem Desires.missing_foreignKeys (h : e.Desires r keys desired key unique index) :
    CatalogForeignKey.matching.missing existing.foreignKeys desired.foreignKeys =
      ((e.desiredKeyFields keys).filter fun p =>
        !existing.foreignKeys.any (CatalogForeignKey.matching.covers · (key p))).map key := by
  rw [Matching.missing, h.foreignKeys, List.filter_map]
  rfl

theorem Desires.missing_uniques (h : e.Desires r keys desired key unique index) :
    CatalogUnique.matching.missing existing.uniqueConstraints desired.uniqueConstraints =
      (e.source.uniqueConstraints.filter fun u =>
        !existing.uniqueConstraints.any (CatalogUnique.matching.covers · (unique u))).map unique := by
  rw [Matching.missing, h.uniqueConstraints, List.filter_map]
  rfl

theorem Desires.missing_indexes (h : e.Desires r keys desired key unique index) :
    CatalogIndex.matching.missing existing.indexes desired.indexes =
      (e.source.indexes.filter fun i =>
        !existing.indexes.any (CatalogIndex.matching.covers · (index i))).map index := by
  rw [Matching.missing, h.indexes, List.filter_map]
  rfl

theorem addsParts (h : e.Desires r keys desired key unique index)
    {items : List (Field × FieldReference)} {foreignKeys uniques indexes checks : List Statement}
    (hkeys : items.mapM (fun p => e.addForeignKey r p.1.name) = .ok foreignKeys)
    (huniques : (e.source.uniqueConstraints.filter fun u =>
      !existing.uniqueConstraints.any (CatalogUnique.matching.covers · (unique u))).mapM
        (e.addUnique r.dialect) = .ok uniques)
    (hindexes : (e.source.indexes.filter fun i =>
      !existing.indexes.any (CatalogIndex.matching.covers · (index i))).mapM
        (e.createIndex r.dialect) = .ok indexes)
    (hchecks : (e.source.checkConstraints.filter (lacksCheck existing)).mapM
      (e.addCheck r.dialect) = .ok checks) :
    e.AddsParts r existing (foreignKeys ++ uniques ++ indexes ++ checks) foreignKeys
      (CatalogUnique.matching.missing existing.uniqueConstraints desired.uniqueConstraints)
      (CatalogIndex.matching.missing existing.indexes desired.indexes) := by
  have haddsUnique : ∀ u ∈ e.source.uniqueConstraints.filter (fun u =>
      !existing.uniqueConstraints.any (CatalogUnique.matching.covers · (unique u))),
      ∀ s, e.addUnique r.dialect u = .ok s → Adds s none (some (unique u)) none false :=
    fun u hu s hs => adds_addUnique (h.reportedUnique u (List.mem_of_mem_filter hu)) hs
  have haddsIndex : ∀ i ∈ e.source.indexes.filter (fun i =>
      !existing.indexes.any (CatalogIndex.matching.covers · (index i))),
      ∀ s, e.createIndex r.dialect i = .ok s → Adds s none none (some (index i)) false :=
    fun i hi s hs => adds_createIndex (h.reportedIndex i (List.mem_of_mem_filter hi)) hs
  have hk : ∀ s ∈ foreignKeys, ∃ c, Adds s (some c) none none false :=
    forall_of_mapM (fun p _ s hs => by
      obtain ⟨_, _, c, _, _, _, hadds⟩ := adds_addForeignKey hs
      exact ⟨c, hadds⟩) hkeys
  have hu : ∀ s ∈ uniques, ∃ c, Adds s none (some c) none false :=
    forall_of_mapM (fun u hu s hs => ⟨_, haddsUnique u hu s hs⟩) huniques
  have hi : ∀ s ∈ indexes, ∃ c, Adds s none none (some c) false :=
    forall_of_mapM (fun i hi s hs => ⟨_, haddsIndex i hi s hs⟩) hindexes
  have hc : ∀ s ∈ checks, Adds s none none none true :=
    forall_of_mapM (fun _ _ _ hs => adds_addCheck hs) hchecks
  refine ⟨?_, ?_, ?_, ?_, ?_⟩
  · have hu' := List.filterMap_eq_nil_iff.2 fun s hs => (hu s hs).choose_spec.foreignKey
    have hi' := List.filterMap_eq_nil_iff.2 fun s hs => (hi s hs).choose_spec.foreignKey
    have hc' := List.filterMap_eq_nil_iff.2 fun s hs => (hc s hs).foreignKey
    simp only [List.filterMap_append, hu', hi', hc', List.append_nil]
  · have hk' := List.filterMap_eq_nil_iff.2 fun s hs => (hk s hs).choose_spec.unique
    have hi' := List.filterMap_eq_nil_iff.2 fun s hs => (hi s hs).choose_spec.unique
    have hc' := List.filterMap_eq_nil_iff.2 fun s hs => (hc s hs).unique
    have hread := filterMap_of_mapM (fun u hu s hs => (haddsUnique u hu s hs).unique) huniques
    simp only [List.filterMap_append, hk', hi', hc', hread, List.append_nil, List.nil_append]
    exact h.missing_uniques.symm
  · have hk' := List.filterMap_eq_nil_iff.2 fun s hs => (hk s hs).choose_spec.index
    have hu' := List.filterMap_eq_nil_iff.2 fun s hs => (hu s hs).choose_spec.index
    have hc' := List.filterMap_eq_nil_iff.2 fun s hs => (hc s hs).index
    have hread := filterMap_of_mapM (fun i hi s hs => (haddsIndex i hi s hs).index) hindexes
    simp only [List.filterMap_append, hk', hu', hc', hread, List.append_nil, List.nil_append]
    exact h.missing_indexes.symm
  · have hk' := List.filter_eq_nil_iff.2 fun s hs => Bool.eq_false_iff.1 (hk s hs).choose_spec.check
    have hu' := List.filter_eq_nil_iff.2 fun s hs => Bool.eq_false_iff.1 (hu s hs).choose_spec.check
    have hi' := List.filter_eq_nil_iff.2 fun s hs => Bool.eq_false_iff.1 (hi s hs).choose_spec.check
    have hc' := List.filter_eq_self.2 fun s hs => (hc s hs).check
    simp only [List.filter_append, hk', hu', hi', hc', List.nil_append, hchecks]
  · simp only [List.forall_mem_append]
    exact ⟨⟨⟨fun s hs => (hk s hs).choose_spec.drops, fun s hs => (hu s hs).choose_spec.drops⟩,
      fun s hs => (hi s hs).choose_spec.drops⟩, fun s hs => (hc s hs).drops⟩

/-! ## What the script leaves -/

/-- What a script on the constraints of a table drops and adds: everything but which foreign keys are
added. -/
structure IsReconciliation (e : Entity) (r : Registry) (existing desired : CatalogObject)
    (statements : List Statement) : Prop where
  droppedForeignKeys : statements.filterMap (·.droppedForeignKey?) =
    (CatalogForeignKey.matching.unwanted existing.foreignKeys desired.foreignKeys).map (·.name)
  droppedUniques : statements.filterMap (·.droppedUnique?) =
    (CatalogUnique.matching.unwanted existing.uniqueConstraints
      desired.uniqueConstraints).map (·.name)
  droppedIndexes : statements.filterMap (·.droppedIndex?) =
    (CatalogIndex.matching.unwanted existing.indexes desired.indexes).map (·.name)
  addedUniques : statements.filterMap (·.addedUnique?) =
    CatalogUnique.matching.missing existing.uniqueConstraints desired.uniqueConstraints
  addedIndexes : statements.filterMap (·.addedIndex?) =
    CatalogIndex.matching.missing existing.indexes desired.indexes
  checks : (e.source.checkConstraints.filter (lacksCheck existing)).mapM (e.addCheck r.dialect) =
    .ok (statements.filter (·.isOnCheck))

/-- Whether each field whose foreign key is missing is the one that its name finds. -/
def FindsMissingKeys (e : Entity) (r : Registry) (keys : Bool) (existing : CatalogObject) : Prop :=
  ∀ p ∈ e.desiredKeyFields keys, ∀ c, e.reportedForeignKey r p.1 p.2 = .ok c →
    existing.foreignKeys.any (CatalogForeignKey.matching.covers · c) = false →
      e.tableField p.1.name = .ok p.1

/-- A script drops first and adds then, and what its parts drop and add is known. -/
theorem exists_parts (h : e.Desires r keys desired key unique index)
    (hd : desired.HasDistinctConstraints) (ho : existing.HasDistinctConstraints)
    (hs : e.convergeConstraints r keys existing = .ok statements) :
    ∃ foreignKeys additions,
      ((e.desiredKeyFields keys).filter fun p =>
        !existing.foreignKeys.any (CatalogForeignKey.matching.covers · (key p))).mapM
          (fun p => e.addForeignKey r p.1.name) = .ok foreignKeys ∧
      statements = e.constraintDrops r.dialect existing desired ++ additions ∧
      e.AddsParts r existing additions foreignKeys
        (CatalogUnique.matching.missing existing.uniqueConstraints desired.uniqueConstraints)
        (CatalogIndex.matching.missing existing.indexes desired.indexes) := by
  obtain ⟨foreignKeys, uniques, indexes, checks, hkeys, huniques, hindexes, hchecks, rfl⟩ :=
    (convergeConstraints_eq_ok_iff h hd ho).1 hs
  exact ⟨foreignKeys, _, hkeys, rfl, addsParts h hkeys huniques hindexes hchecks⟩

theorem isReconciliation_of_convergeConstraints (h : e.Desires r keys desired key unique index)
    (hd : desired.HasDistinctConstraints) (ho : existing.HasDistinctConstraints)
    (hs : e.convergeConstraints r keys existing = .ok statements) :
    e.IsReconciliation r existing desired statements := by
  obtain ⟨foreignKeys, additions, _, rfl, hparts⟩ := exists_parts h hd ho hs
  obtain ⟨hdropKeys, hdropUniques, hdropIndexes⟩ :=
    filterMap_constraintDrops e r.dialect existing desired
  have hnoKey := List.filterMap_eq_nil_iff.2 fun s hs => (hparts.drops s hs).1
  have hnoUnique := List.filterMap_eq_nil_iff.2 fun s hs => (hparts.drops s hs).2.1
  have hnoIndex := List.filterMap_eq_nil_iff.2 fun s hs => (hparts.drops s hs).2.2
  have haddNoUnique := List.filterMap_eq_nil_iff.2 fun s
    (hs : s ∈ e.constraintDrops r.dialect existing desired) =>
      (adds_none_of_mem_constraintDrops hs).2.1
  have haddNoIndex := List.filterMap_eq_nil_iff.2 fun s
    (hs : s ∈ e.constraintDrops r.dialect existing desired) =>
      (adds_none_of_mem_constraintDrops hs).2.2.1
  have hnoCheck := List.filter_eq_nil_iff.2 fun s
    (hs : s ∈ e.constraintDrops r.dialect existing desired) =>
      Bool.eq_false_iff.1 (adds_none_of_mem_constraintDrops hs).2.2.2
  constructor
  · rw [List.filterMap_append, hdropKeys, hnoKey, List.append_nil]
  · rw [List.filterMap_append, hdropUniques, hnoUnique, List.append_nil]
  · rw [List.filterMap_append, hdropIndexes, hnoIndex, List.append_nil]
  · rw [List.filterMap_append, haddNoUnique, List.nil_append, hparts.uniques]
  · rw [List.filterMap_append, haddNoIndex, List.nil_append, hparts.indexes]
  · rw [List.filter_append, hnoCheck, List.nil_append, hparts.checks]

/-! ## Foreign keys by name -/

/-- A field that its name finds gets its own foreign key. -/
theorem filterMap_addedForeignKey? (h : e.Desires r keys desired key unique index)
    (hfinds : e.FindsMissingKeys r keys existing) {foreignKeys : List Statement}
    (hkeys : ((e.desiredKeyFields keys).filter fun p =>
      !existing.foreignKeys.any (CatalogForeignKey.matching.covers · (key p))).mapM
        (fun p => e.addForeignKey r p.1.name) = .ok foreignKeys) :
    foreignKeys.filterMap (·.addedForeignKey?) =
      CatalogForeignKey.matching.missing existing.foreignKeys desired.foreignKeys := by
  rw [h.missing_foreignKeys]
  refine filterMap_of_mapM (fun p hp s hs => ?_) hkeys
  obtain ⟨hmem, hmissing⟩ := List.mem_filter.1 hp
  obtain ⟨f, reference, c, hf, href, hc, hadds⟩ := adds_addForeignKey hs
  obtain rfl : f = p.1 := Except.ok.inj
    (hf.symm.trans (hfinds p hmem (key p) (h.reportedKey p hmem) (by simpa using hmissing)))
  obtain rfl : reference = p.2 := Option.some.inj
    (href.symm.trans (mem_foreignKeyFields.1 (mem_foreignKeyFields_of_desired hmem)).2)
  obtain rfl : c = key p := Except.ok.inj (hc.symm.trans (h.reportedKey p hmem))
  exact hadds.foreignKey

/-- Where names tell the desired foreign keys apart, only the field that its name finds gets its
own. -/
theorem findsMissingKeys_of_covers (h : e.Desires r keys desired key unique index)
    (hd : desired.HasDistinctConstraints) {foreignKeys : List Statement}
    (hkeys : ((e.desiredKeyFields keys).filter fun p =>
      !existing.foreignKeys.any (CatalogForeignKey.matching.covers · (key p))).mapM
        (fun p => e.addForeignKey r p.1.name) = .ok foreignKeys)
    (hcovers : ∀ c ∈ CatalogForeignKey.matching.missing existing.foreignKeys desired.foreignKeys,
      ∃ a ∈ foreignKeys.filterMap (·.addedForeignKey?),
        CatalogForeignKey.matching.covers a c = true) :
    e.FindsMissingKeys r keys existing := by
  intro p hp c hc hmissing
  obtain rfl : c = key p := Except.ok.inj (hc.symm.trans (h.reportedKey p hp))
  have hdesired : key p ∈
      CatalogForeignKey.matching.missing existing.foreignKeys desired.foreignKeys := by
    rw [h.missing_foreignKeys]
    exact List.mem_map_of_mem (List.mem_filter.2 ⟨hp, by simpa using hmissing⟩)
  obtain ⟨a, ha, hcover⟩ := hcovers (key p) hdesired
  obtain ⟨s, hs, hadded⟩ := List.mem_filterMap.1 ha
  obtain ⟨q, _, hq⟩ := exists_mem_of_forall₂ (mapM_eq_ok_iff.1 hkeys).flip hs
  -- The foreign key that was added for `q` is that of `f`, which has to be the field of `p`.
  obtain ⟨f, reference, c, hf, href, hc, hadds⟩ := adds_addForeignKey hq
  obtain rfl : c = a := Option.some.inj (hadds.foreignKey.symm.trans hadded)
  have hmem : (f, reference) ∈ e.desiredKeyFields keys := by
    cases keys with
    | true => exact mem_foreignKeyFields.2 ⟨(mem_tableFields_of_tableField hf).1, href⟩
    | false => cases hp
  have hkey : key (f, reference) = c := Except.ok.inj ((h.reportedKey _ hmem).symm.trans hc)
  have hnodup := hd.foreignKeys
  rw [h.foreignKeys, Matching.IsDistinct, List.map_map] at hnodup
  have hsame : (f, reference) = p := List.inj_on_of_nodup_map hnodup hmem hp
    (by rw [Function.comp_apply, hkey]; exact Matching.key_of_covers hcover)
  subst hsame
  rw [(mem_tableFields_of_tableField hf).2]
  exact hf

/-- With one field for each name, each field is the one that its name finds. -/
theorem findsMissingKeys_of_nodup (h : (e.fields.map (·.name)).Nodup) (r : Registry) (keys : Bool)
    (existing : CatalogObject) : e.FindsMissingKeys r keys existing := fun _ hp _ _ _ =>
  tableField_of_mem h (mem_foreignKeyFields.1 (mem_foreignKeyFields_of_desired hp)).1

end Entity

/-- Whether a table has the foreign keys, unique constraints and indexes of another one. -/
structure CatalogObject.Realizes (o desired : CatalogObject) : Prop where
  foreignKeys : CatalogForeignKey.matching.Realizes o.foreignKeys desired.foreignKeys
  uniqueConstraints : CatalogUnique.matching.Realizes o.uniqueConstraints desired.uniqueConstraints
  indexes : CatalogIndex.matching.Realizes o.indexes desired.indexes

namespace Entity

variable {e : Entity} {r : Registry} {keys : Bool} {existing desired : CatalogObject}
  {key : Field × FieldReference → CatalogForeignKey} {unique : UniqueSpec → CatalogUnique}
  {index : IndexSpec → CatalogIndex} {statements : List Statement}

/-- The script runs on the observed constraints and leaves what is desired exactly if each missing
foreign key is added for its own field. -/
theorem runOnConstraints_iff (h : e.Desires r keys desired key unique index)
    (hd : desired.HasDistinctConstraints) (ho : existing.HasDistinctConstraints)
    (hs : e.convergeConstraints r keys existing = .ok statements) :
    e.FindsMissingKeys r keys existing ↔
      ∃ final, existing.runOnConstraints statements = some final ∧ final.Realizes desired := by
  obtain ⟨foreignKeys, additions, hkeys, rfl, hparts⟩ := exists_parts h hd ho hs
  obtain ⟨hdropKeys, hdropUniques, hdropIndexes⟩ :=
    filterMap_constraintDrops e r.dialect existing desired
  have hrunKeys := Matching.run_of_drops ho.foreignKeys hdropKeys
    (fun s hs => (adds_none_of_mem_constraintDrops hs).1) (fun s hs => (hparts.drops s hs).1)
  have hrunUniques := Matching.run_of_drops ho.uniqueConstraints hdropUniques
    (fun s hs => (adds_none_of_mem_constraintDrops hs).2.1) (fun s hs => (hparts.drops s hs).2.1)
  have hrunIndexes := Matching.run_of_drops ho.indexes hdropIndexes
    (fun s hs => (adds_none_of_mem_constraintDrops hs).2.2.1)
    (fun s hs => (hparts.drops s hs).2.2)
  rw [hparts.foreignKeys] at hrunKeys
  rw [hparts.uniques, Matching.foldlM_add_missing ho.uniqueConstraints hd.uniqueConstraints]
    at hrunUniques
  rw [hparts.indexes, Matching.foldlM_add_missing ho.indexes hd.indexes] at hrunIndexes
  constructor
  · intro hfinds
    rw [filterMap_addedForeignKey? h hfinds hkeys,
      Matching.foldlM_add_missing ho.foreignKeys hd.foreignKeys] at hrunKeys
    refine ⟨_, CatalogObject.runOnConstraints_eq_some_iff.2
      ⟨_, _, _, hrunKeys, hrunUniques, hrunIndexes, rfl⟩, ?_, ?_, ?_⟩
    · exact Matching.realizes_kept_append_missing ho.foreignKeys hd.foreignKeys
    · exact Matching.realizes_kept_append_missing ho.uniqueConstraints hd.uniqueConstraints
    · exact Matching.realizes_kept_append_missing ho.indexes hd.indexes
  · rintro ⟨final, hfinal, hrealizes⟩
    obtain ⟨l, _, _, hl, _, _, rfl⟩ := CatalogObject.runOnConstraints_eq_some_iff.1 hfinal
    have hl := Matching.eq_append_of_foldlM_add (hrunKeys.symm.trans hl)
    refine findsMissingKeys_of_covers h hd hkeys fun c hc => ?_
    obtain ⟨a, ha, hcover⟩ := hrealizes.foreignKeys.exists_covers (List.mem_filter.1 hc).1
    rcases List.mem_append.1 (hl ▸ ha) with hkept | hadded
    · exact absurd (Matching.key_of_covers hcover)
        (Matching.key_kept_ne_missing hd.foreignKeys hkept hc)
    · exact ⟨a, hadded, hcover⟩

/-- The missing foreign keys are added exactly if each is added for its own field. -/
theorem addedForeignKeys_iff (h : e.Desires r keys desired key unique index)
    (hd : desired.HasDistinctConstraints) (ho : existing.HasDistinctConstraints)
    (hs : e.convergeConstraints r keys existing = .ok statements) :
    e.FindsMissingKeys r keys existing ↔ statements.filterMap (·.addedForeignKey?) =
      CatalogForeignKey.matching.missing existing.foreignKeys desired.foreignKeys := by
  obtain ⟨foreignKeys, additions, hkeys, rfl, hparts⟩ := exists_parts h hd ho hs
  have hnone := List.filterMap_eq_nil_iff.2 fun s
    (hs : s ∈ e.constraintDrops r.dialect existing desired) =>
      (adds_none_of_mem_constraintDrops hs).1
  rw [List.filterMap_append, hnone, List.nil_append, hparts.foreignKeys]
  refine ⟨fun hfinds => filterMap_addedForeignKey? h hfinds hkeys, fun hadded => ?_⟩
  refine findsMissingKeys_of_covers h hd hkeys fun c hc => ⟨c, hadded ▸ hc, ?_⟩
  exact CatalogForeignKey.matching.covers_self c

theorem exists_addForeignKey {p : Field × FieldReference} (hp : p ∈ e.foreignKeyFields)
    {c : CatalogForeignKey} (hc : e.reportedForeignKey r p.1 p.2 = .ok c)
    (hf : e.tableField p.1.name = .ok p.1) : ∃ s, e.addForeignKey r p.1.name = .ok s := by
  obtain ⟨target, htarget, hc⟩ := bind_eq_ok_iff.1 hc
  obtain ⟨g, hg, _⟩ := bind_eq_ok_iff.1 hc
  simp only [addForeignKey, hf, (mem_foreignKeyFields.1 hp).2, htarget, hg, bind, Except.bind]
  exact ⟨_, rfl⟩

theorem exists_columns {names : List String} {columns : List String}
    (h : e.rawColumns names = .ok columns) : ∃ columns, e.columns names = .ok columns := by
  obtain ⟨found, hfound, _⟩ := bind_eq_ok_iff.1 h
  exact ⟨found, hfound⟩

/-- Constraints can be planned if the missing foreign keys are found and the missing checks can be
added. -/
theorem exists_convergeConstraints (h : e.Desires r keys desired key unique index)
    (hd : desired.HasDistinctConstraints) (ho : existing.HasDistinctConstraints)
    (hfinds : e.FindsMissingKeys r keys existing)
    (hchecks : ∀ c ∈ e.source.checkConstraints.filter (lacksCheck existing),
      ∃ s, e.addCheck r.dialect c = .ok s) :
    ∃ statements, e.convergeConstraints r keys existing = .ok statements := by
  obtain ⟨foreignKeys, hforeignKeys⟩ : ∃ foreignKeys, ((e.desiredKeyFields keys).filter fun p =>
      !existing.foreignKeys.any (CatalogForeignKey.matching.covers · (key p))).mapM
        (fun p => e.addForeignKey r p.1.name) = .ok foreignKeys := by
    refine exists_mapM_eq_ok fun p hp => ?_
    obtain ⟨hmem, hmissing⟩ := List.mem_filter.1 hp
    exact exists_addForeignKey (mem_foreignKeyFields_of_desired hmem) (h.reportedKey p hmem)
      (hfinds p hmem _ (h.reportedKey p hmem) (by simpa using hmissing))
  obtain ⟨uniques, huniques⟩ : ∃ uniques, (e.source.uniqueConstraints.filter fun u =>
      !existing.uniqueConstraints.any (CatalogUnique.matching.covers · (unique u))).mapM
        (e.addUnique r.dialect) = .ok uniques := by
    refine exists_mapM_eq_ok fun u hu => ?_
    obtain ⟨_, hraw, _⟩ := bind_eq_ok_iff.1 (h.reportedUnique u (List.mem_of_mem_filter hu))
    obtain ⟨columns, hcolumns⟩ := exists_columns hraw
    exact ⟨_, bind_eq_ok_iff.2 ⟨columns, hcolumns, rfl⟩⟩
  obtain ⟨indexes, hindexes⟩ : ∃ indexes, (e.source.indexes.filter fun i =>
      !existing.indexes.any (CatalogIndex.matching.covers · (index i))).mapM
        (e.createIndex r.dialect) = .ok indexes := by
    refine exists_mapM_eq_ok fun i hi => ?_
    obtain ⟨_, hraw, _⟩ := bind_eq_ok_iff.1 (h.reportedIndex i (List.mem_of_mem_filter hi))
    obtain ⟨columns, hcolumns⟩ := exists_columns hraw
    exact ⟨_, bind_eq_ok_iff.2 ⟨columns, hcolumns, rfl⟩⟩
  obtain ⟨checks, hchecks⟩ := exists_mapM_eq_ok hchecks
  exact ⟨_, (convergeConstraints_eq_ok_iff h hd ho).2
    ⟨foreignKeys, uniques, indexes, checks, hforeignKeys, huniques, hindexes, hchecks, rfl⟩⟩

/-- Bringing constraints to what an entity declares. The script drops what is not desired, adds the
unique constraints, indexes and checks that are missing, and drops no check. It adds the missing
foreign keys, and runs and leaves what is desired, exactly if each field whose foreign key is missing
is the one that its name finds. -/
theorem convergeConstraints_reconciles {spec : EntitySpec} (hspec : e.IsOfSpec r.dialect spec)
    (hfin : spec.IsFinished)
    (ht : ∀ p ∈ e.foreignKeyFields, ∃ target g,
      r.get p.2.entity = .ok target ∧ target.field p.2.field = .ok g)
    (keys : Bool) (existing : CatalogObject) :
    ∃ desired, e.desiredTable r keys = .ok desired ∧
      (desired.HasDistinctConstraints → existing.HasDistinctConstraints →
        (e.FindsMissingKeys r keys existing →
          (∀ c ∈ e.source.checkConstraints.filter (lacksCheck existing),
            ∃ s, e.addCheck r.dialect c = .ok s) →
          ∃ statements, e.convergeConstraints r keys existing = .ok statements) ∧
        ∀ statements, e.convergeConstraints r keys existing = .ok statements →
          e.IsReconciliation r existing desired statements ∧
          (e.FindsMissingKeys r keys existing ↔
            statements.filterMap (·.addedForeignKey?) =
              CatalogForeignKey.matching.missing existing.foreignKeys desired.foreignKeys) ∧
          (e.FindsMissingKeys r keys existing ↔
            ∃ final, existing.runOnConstraints statements = some final ∧
              final.Realizes desired)) := by
  have hreported : ∀ p ∈ e.foreignKeyFields, ∃ c, e.reportedForeignKey r p.1 p.2 = .ok c :=
    fun p hp => by
      obtain ⟨target, g, htarget, hg⟩ := ht p hp
      exact ⟨_, bind_eq_ok_iff.2 ⟨target, htarget, bind_eq_ok_iff.2 ⟨g, hg, rfl⟩⟩⟩
  obtain ⟨declared, hdeclared⟩ := exists_reportedTable_of_fields
    (fun name hn => exists_field_of_constrained hspec hfin (hspec.source ▸ hn)) hreported
  have hdesired : e.desiredTable r keys = .ok _ := bind_eq_ok_iff.2 ⟨declared, hdeclared, rfl⟩
  refine ⟨_, hdesired, fun hd ho => ?_⟩
  obtain ⟨key, unique, index, h⟩ := exists_desires hdesired
  refine ⟨fun hfinds hchecks => ?_, fun statements hs => ⟨?_, ?_, runOnConstraints_iff h hd ho hs⟩⟩
  · exact exists_convergeConstraints h hd ho hfinds hchecks
  · exact isReconciliation_of_convergeConstraints h hd ho hs
  · exact addedForeignKeys_iff h hd ho hs

end Entity

/-! ## Posts with constraints from before -/

/-- A table of posts whose foreign key has another target, whose unique constraint nothing declares
and whose index has other columns. -/
def stalePosts : CatalogObject :=
  { name := "POST"
    foreignKeys := [⟨"fk_post_author", "WRITER", ["ID"]⟩]
    uniqueConstraints := [⟨"uq_post", ["STATE"]⟩]
    indexes := [{ name := "IX_POST", columns := ["STATE"] }] }

/-- Constraints from before are dropped, also those whose names are added again. -/
theorem stale_posts_reconcile :
    ∃ post desired statements final, (blogRegistry .mysql).get "Post" = .ok post ∧
      post.desiredTable (blogRegistry .mysql) true = .ok desired ∧
      post.convergeConstraints (blogRegistry .mysql) true stalePosts = .ok statements ∧
      statements.filterMap (·.droppedForeignKey?) = ["fk_post_author"] ∧
      statements.filterMap (·.droppedUnique?) = ["uq_post"] ∧
      statements.filterMap (·.droppedIndex?) = ["IX_POST"] ∧
      stalePosts.runOnConstraints statements = some final ∧ final.Realizes desired := by
  have horder := referenceOrder_blogRegistry .mysql
  obtain ⟨post, hpost, htest⟩ : ∃ post, (blogRegistry .mysql).get "Post" = .ok post ∧
      (decide (post.fields.map (·.name)).Nodup &&
        ((post.desiredTable (blogRegistry .mysql) true).toOption.any fun o =>
          decide (o.HasDistinctConstraints ∧
            CatalogForeignKey.matching.unwanted stalePosts.foreignKeys o.foreignKeys =
              stalePosts.foreignKeys ∧
            CatalogUnique.matching.unwanted stalePosts.uniqueConstraints o.uniqueConstraints =
              stalePosts.uniqueConstraints ∧
            CatalogIndex.matching.unwanted stalePosts.indexes o.indexes = stalePosts.indexes)) &&
        post.source.checkConstraints.all fun c =>
          (post.addCheck (blogRegistry .mysql).dialect c).isOk) = true :=
    exists_ok_of_any (by decide +kernel)
  simp only [Bool.and_eq_true, decide_eq_true_eq, List.all_eq_true] at htest
  obtain ⟨⟨hnames, hdesired⟩, hchecks⟩ := htest
  obtain ⟨desired, hdesired, hd⟩ := exists_ok_of_any hdesired
  obtain ⟨hd, hkeys, huniques, hindexes⟩ := of_decide_eq_true hd
  have hmem : post ∈ (blogRegistry .mysql).entities := Registry.mem_of_get hpost
  obtain ⟨spec, hfin, hspec⟩ := (isReachable_blogRegistry .mysql).exists_finished hmem
  have htargets : ∀ p ∈ post.foreignKeyFields, ∃ target g,
      (blogRegistry .mysql).get p.2.entity = .ok target ∧ target.field p.2.field = .ok g := by
    intro p hp
    obtain ⟨hf, href⟩ := Entity.mem_foreignKeyFields.1 hp
    obtain ⟨target, htarget⟩ := Registry.exists_target_of_referenceOrder horder hmem hf href
    obtain ⟨g, hg⟩ := isComparable_blogRegistry.targets post hmem p hp target htarget
    exact ⟨target, g, htarget, hg⟩
  obtain ⟨desired', hdesired', hall⟩ :=
    Entity.convergeConstraints_reconciles hspec hfin htargets true stalePosts
  cases hdesired.symm.trans hdesired'
  obtain ⟨hplan, hscript⟩ := hall hd (by decide)
  have hfinds := Entity.findsMissingKeys_of_nodup hnames (blogRegistry .mysql) true stalePosts
  obtain ⟨statements, hs⟩ := hplan hfinds fun c hc => by
    have hok := hchecks c (List.mem_of_mem_filter hc)
    cases hadd : post.addCheck (blogRegistry .mysql).dialect c with
    | error _ =>
      rw [hadd] at hok
      cases hok
    | ok s => exact ⟨s, rfl⟩
  obtain ⟨hdrops, _, hfinal⟩ := hscript statements hs
  obtain ⟨final, hrun, hrealizes⟩ := hfinal.1 hfinds
  refine ⟨post, desired, statements, final, hpost, hdesired, hs, ?_, ?_, ?_, hrun, hrealizes⟩
  · rw [hdrops.droppedForeignKeys, hkeys]
    rfl
  · rw [hdrops.droppedUniques, huniques]
    rfl
  · rw [hdrops.droppedIndexes, hindexes]
    rfl

/-! ## Notes with two owners -/

/-- A person. -/
def personSpec : EntitySpec :=
  { EntitySpec.named "Person" with fields := [(FieldSpec.named "id" .long).asPrimaryKey] }

/-- A note with an author and an editor, which have one name. -/
def ownedNoteSpec : EntitySpec :=
  { EntitySpec.named "Note" with
    fields := [(FieldSpec.named "id" .long).asPrimaryKey,
      { FieldSpec.named "owner" .long with
        column := "AUTHOR", givenMarker := some "m1", foreignKey := some ⟨"Person", "id"⟩ },
      { FieldSpec.named "owner" .long with
        column := "EDITOR", givenMarker := some "m2", foreignKey := some ⟨"Person", "id"⟩ }] }

/-- A registry of persons and notes. -/
def ownedNotes : Registry :=
  Registry.ofSpecs (Dialect.builtin .hsqldb) [personSpec, ownedNoteSpec]

theorem isReachable_ownedNotes : ownedNotes.IsReachable := by
  refine Registry.isReachable_ofSpecs ?_
  simp only [List.forall_mem_cons]
  exact ⟨EntitySpec.isFinished_of_build (by decide), EntitySpec.isFinished_of_build (by decide),
    fun _ h => absurd h List.not_mem_nil⟩

/-- The foreign key of the editor is added twice, and that of the author never. -/
theorem owned_notes_do_not_reconcile :
    ownedNotes.IsReachable ∧
      ∃ note desired statements, ownedNotes.get "Note" = .ok note ∧
        note.desiredTable ownedNotes true = .ok desired ∧ desired.HasDistinctConstraints ∧
        note.convergeConstraints ownedNotes true { name := "NOTE" } = .ok statements ∧
        statements.filterMap (·.addedForeignKey?) =
          [⟨"FK_NOTE_EDITOR", "PERSON", ["ID"]⟩, ⟨"FK_NOTE_EDITOR", "PERSON", ["ID"]⟩] ∧
        CatalogObject.runOnConstraints { name := "NOTE" } statements = none := by
  obtain ⟨note, hnote, htest⟩ : ∃ note, ownedNotes.get "Note" = .ok note ∧
      (((note.desiredTable ownedNotes true).toOption.any fun o =>
          decide o.HasDistinctConstraints) &&
        (note.convergeConstraints ownedNotes true { name := "NOTE" }).toOption.any fun statements =>
          decide (statements.filterMap (·.addedForeignKey?) =
              [⟨"FK_NOTE_EDITOR", "PERSON", ["ID"]⟩, ⟨"FK_NOTE_EDITOR", "PERSON", ["ID"]⟩] ∧
            CatalogObject.runOnConstraints { name := "NOTE" } statements = none)) = true :=
    exists_ok_of_any (by decide +kernel)
  obtain ⟨hdesired, hplan⟩ := Bool.and_eq_true_iff.1 htest
  obtain ⟨desired, hdesired, hd⟩ := exists_ok_of_any hdesired
  obtain ⟨statements, hs, hadded⟩ := exists_ok_of_any hplan
  obtain ⟨hadded, hrun⟩ := of_decide_eq_true hadded
  exact ⟨isReachable_ownedNotes, note, desired, statements, hnote, hdesired, of_decide_eq_true hd,
    hs, hadded, hrun⟩

end SqlDialects
