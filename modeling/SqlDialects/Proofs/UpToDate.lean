import SqlDialects.Proofs.ConstraintStep

/-!
# A database that is up to date

The planner compares what the catalog reports with what entities declare: types, sizes, defaults,
nullability, constraints and the columns of views. Here the catalog reports exactly what entities
declare, in any order, and no statement comes of it.

Results:
1. `Field.difference_asReported`: a declared column does not differ from its field.
2. `Entity.convergeColumns_of_isTable`, `Entity.convergeConstraints_of_isTable`: neither columns nor
   constraints of a declared table need a statement.
3. `Registry.upgrade_reported`: the upgrade of a database that has what is declared is empty.
-/

namespace SqlDialects

/-! ## Constraints -/

namespace Reconciliation

/-- Nothing was added, and what nothing has claimed yet is what is to be claimed. -/
structure Owes (s : Reconciliation) (keys : List (ConstraintKind × String)) : Prop where
  leftovers : (s.leftovers.map ExistingConstraint.caseless).Perm keys
  additions : s.additions = []

theorem Owes.claim {s : Reconciliation} {name : String} {kind : ConstraintKind}
    {keys : List (ConstraintKind × String)} (h : s.Owes ((kind, Text.asciiLower name) :: keys))
    (addition : Except Error Statement) :
    ∃ t, s.claimOrAdd true name kind addition = .ok t ∧ t.Owes keys := by
  have hmem : (kind, Text.asciiLower name) ∈ s.leftovers.map ExistingConstraint.caseless :=
    h.leftovers.mem_iff.2 List.mem_cons_self
  have hany : s.leftovers.any (isCalled name kind) = true := by
    obtain ⟨c, hc, hkey⟩ := List.mem_map.1 hmem
    refine List.any_eq_true.2 ⟨c, hc, ?_⟩
    rw [isCalled_eq, Function.comp_apply, hkey, beq_self_eq_true]
  refine ⟨{ s with leftovers := s.leftovers.eraseP (isCalled name kind) }, ?_, ?_, h.additions⟩
  · rw [claimOrAdd, hany]
    rfl
  · -- Another leftover may have the name in another case, which is why only keys are kept track of.
    have herase := h.leftovers.erase (kind, Text.asciiLower name)
    rw [List.erase_cons_head, List.erase_eq_eraseP', List.eraseP_map, ← isCalled_eq] at herase
    exact herase

/-- What is observed will do for itself. -/
theorem Owes.claim_mem {α : Type} (m : Matching α) {observed : List α} {c : α} (hc : c ∈ observed)
    {s : Reconciliation} {kind : ConstraintKind} {keys : List (ConstraintKind × String)}
    (h : s.Owes ((kind, Text.asciiLower (m.name c)) :: keys)) (addition : Except Error Statement) :
    ∃ t, s.claimOrAdd (observed.any (m.covers · c)) (m.name c) kind addition = .ok t ∧
      t.Owes keys := by
  have hmatch : observed.any (m.covers · c) = true :=
    List.any_eq_true.2 ⟨c, hc, m.covers_self c⟩
  rw [hmatch]
  exact h.claim addition

/-- A pass in which every entry finds what it is owed. -/
theorem Owes.pass {α : Type} {step : Reconciliation → α → Except Error Reconciliation}
    {owed : α → List (ConstraintKind × String)} {items : List α}
    {keys : List (ConstraintKind × String)}
    (hstep : ∀ a ∈ items, ∀ (s : Reconciliation) (keys : List (ConstraintKind × String)),
      s.Owes (owed a ++ keys) → ∃ t, step s a = .ok t ∧ t.Owes keys)
    {s : Reconciliation} (h : s.Owes (items.flatMap owed ++ keys)) :
    ∃ t, items.foldlM step s = .ok t ∧ t.Owes keys := by
  induction items generalizing s with
  | nil => exact ⟨s, rfl, h⟩
  | cons a rest ih =>
    rw [List.flatMap_cons, List.append_assoc] at h
    obtain ⟨ha, hrest⟩ := List.forall_mem_cons.1 hstep
    obtain ⟨t, ht, howes⟩ := ha s _ h
    obtain ⟨u, hu, hdone⟩ := ih hrest howes
    exact ⟨u, by rw [List.foldlM_cons, ht]; exact hu, hdone⟩

end Reconciliation

namespace Entity

variable {e : Entity} {r : Registry} {d : Dialect} {existing : CatalogObject} {s : Reconciliation}
  {keys : List (ConstraintKind × String)}

theorem reconcileForeignKey_reported {f : Field} {reference : FieldReference}
    {key : CatalogForeignKey} (hf : f.foreignKey = some reference)
    (hkey : e.reportedForeignKey r f reference = .ok key) (hmem : key ∈ existing.foreignKeys)
    (h : s.Owes ((.foreignKey, Text.asciiLower (e.foreignKeyName f)) :: keys)) :
    ∃ t, e.reconcileForeignKey r existing s f = .ok t ∧ t.Owes keys := by
  rw [reconcileForeignKey_of_some hf, hkey]
  rw [← name_reportedForeignKey hkey] at h
  exact h.claim_mem CatalogForeignKey.matching hmem _

theorem reconcileUnique_reported {u : UniqueSpec} {c : CatalogUnique}
    (hc : e.reportedUnique u = .ok c) (hmem : c ∈ existing.uniqueConstraints)
    (h : s.Owes ((.unique, Text.asciiLower u.name) :: keys)) :
    ∃ t, e.reconcileUnique d existing s u = .ok t ∧ t.Owes keys := by
  rw [reconcileUnique_eq, hc]
  rw [← name_reportedUnique hc] at h
  exact h.claim_mem CatalogUnique.matching hmem _

theorem reconcileIndex_reported {i : IndexSpec} {c : CatalogIndex}
    (hc : e.reportedIndex i = .ok c) (hmem : c ∈ existing.indexes)
    (h : s.Owes ((.index, Text.asciiLower i.name) :: keys)) :
    ∃ t, e.reconcileIndex d existing s i = .ok t ∧ t.Owes keys := by
  rw [reconcileIndex_eq, hc]
  rw [← (name_reportedIndex hc).1] at h
  exact h.claim_mem CatalogIndex.matching hmem _

theorem reconcileCheck_reported {c : CheckSpec} (hmem : c.name ∈ existing.checkConstraints) :
    e.reconcileCheck d existing s c = .ok s := by
  refine reconcileCheck_of_there ?_
  rw [lacksCheck, Bool.not_eq_false']
  exact List.any_eq_true.2 ⟨c.name, hmem, Text.sameName_refl c.name⟩

/-- The foreign key that a field is owed, if it refers to another. -/
def owedForeignKey (e : Entity) (f : Field) : List (ConstraintKind × String) :=
  (f.foreignKey.map fun _ => (.foreignKey, Text.asciiLower (e.foreignKeyName f))).toList

theorem foreignKeys_owed {o : CatalogObject} (h : e.IsTable r o) :
    o.foreignKeys.map (fun c => (ConstraintKind.foreignKey, Text.asciiLower c.name)) =
      e.tableFields.flatMap e.owedForeignKey := by
  have hnames := map_eq_of_forall₂
    (f := fun p : Field × FieldReference =>
      (ConstraintKind.foreignKey, Text.asciiLower (e.foreignKeyName p.1)))
    (g := fun c : CatalogForeignKey => (ConstraintKind.foreignKey, Text.asciiLower c.name))
    h.foreignKeys fun p c hc => by rw [name_reportedForeignKey hc]
  rw [← hnames, foreignKeyFields, List.map_filterMap, List.filterMap_eq_flatMap_toList]
  simp only [Option.map_map, Function.comp_def]
  rfl

theorem uniqueConstraints_owed {o : CatalogObject} (h : e.IsTable r o) :
    o.uniqueConstraints.map (fun c => (ConstraintKind.unique, Text.asciiLower c.name)) =
      e.source.uniqueConstraints.flatMap fun u => [(.unique, Text.asciiLower u.name)] := by
  rw [← List.map_eq_flatMap]
  exact (map_eq_of_forall₂ h.uniqueConstraints fun u c hc => by rw [name_reportedUnique hc]).symm

theorem indexes_owed {o : CatalogObject} (h : e.IsTable r o) :
    o.indexes.map (fun c => (ConstraintKind.index, Text.asciiLower c.name)) =
      e.source.indexes.flatMap fun i => [(.index, Text.asciiLower i.name)] := by
  rw [← List.map_eq_flatMap]
  exact (map_eq_of_forall₂ h.indexes fun i c hc => by rw [(name_reportedIndex hc).1]).symm

theorem owes_start {o : CatalogObject} (h : e.IsTable r o) (ho : existing.IsListingOf o) :
    Reconciliation.Owes ⟨existing.constraints, []⟩
      (e.tableFields.flatMap e.owedForeignKey
        ++ ((e.source.uniqueConstraints.flatMap fun u => [(.unique, Text.asciiLower u.name)])
        ++ ((e.source.indexes.flatMap fun i => [(.index, Text.asciiLower i.name)]) ++ []))) where
  leftovers := by
    rw [← foreignKeys_owed h, ← uniqueConstraints_owed h, ← indexes_owed h, List.append_nil,
      ← List.append_assoc, CatalogObject.constraints, List.map_append, List.map_append,
      List.map_map, List.map_map, List.map_map]
    exact ((ho.foreignKeys.map _).append (ho.uniqueConstraints.map _)).append (ho.indexes.map _)
  additions := rfl

theorem foldlM_reconcileForeignKey {o : CatalogObject} (h : e.IsTable r o)
    (ho : existing.IsListingOf o) (hs : s.Owes (e.tableFields.flatMap e.owedForeignKey ++ keys)) :
    ∃ t, e.tableFields.foldlM (e.reconcileForeignKey r existing) s = .ok t ∧ t.Owes keys := by
  refine Reconciliation.Owes.pass (fun f hf s keys hs => ?_) hs
  cases href : f.foreignKey with
  | none =>
    rw [owedForeignKey, href] at hs
    exact ⟨s, reconcileForeignKey_of_none href, hs⟩
  | some reference =>
    have hmem : (f, reference) ∈ e.foreignKeyFields :=
      List.mem_filterMap.2 ⟨f, hf, by rw [href, Option.map_some]⟩
    obtain ⟨c, hc, hreported⟩ := exists_mem_of_forall₂ h.foreignKeys hmem
    rw [owedForeignKey, href] at hs
    exact reconcileForeignKey_reported href hreported (ho.foreignKeys.mem_iff.2 hc) hs

theorem foldlM_reconcileUnique {o : CatalogObject} (h : e.IsTable r o)
    (ho : existing.IsListingOf o)
    (hs : s.Owes
      ((e.source.uniqueConstraints.flatMap fun u => [(.unique, Text.asciiLower u.name)]) ++ keys)) :
    ∃ t, e.source.uniqueConstraints.foldlM (e.reconcileUnique r.dialect existing) s = .ok t ∧
      t.Owes keys := by
  refine Reconciliation.Owes.pass (fun u hu s keys hs => ?_) hs
  obtain ⟨c, hc, hreported⟩ := exists_mem_of_forall₂ h.uniqueConstraints hu
  exact reconcileUnique_reported hreported (ho.uniqueConstraints.mem_iff.2 hc) hs

theorem foldlM_reconcileIndex {o : CatalogObject} (h : e.IsTable r o)
    (ho : existing.IsListingOf o)
    (hs : s.Owes ((e.source.indexes.flatMap fun i => [(.index, Text.asciiLower i.name)]) ++ keys)) :
    ∃ t, e.source.indexes.foldlM (e.reconcileIndex r.dialect existing) s = .ok t ∧ t.Owes keys := by
  refine Reconciliation.Owes.pass (fun i hi s keys hs => ?_) hs
  obtain ⟨c, hc, hreported⟩ := exists_mem_of_forall₂ h.indexes hi
  exact reconcileIndex_reported hreported (ho.indexes.mem_iff.2 hc) hs

theorem foldlM_reconcileCheck {checks : List CheckSpec}
    (h : ∀ c ∈ checks, c.name ∈ existing.checkConstraints) :
    checks.foldlM (e.reconcileCheck d existing) s = .ok s := by
  induction checks with
  | nil => rfl
  | cons c rest ih =>
    obtain ⟨hc, hrest⟩ := List.forall_mem_cons.1 h
    rw [List.foldlM_cons, reconcileCheck_reported hc]
    exact ih hrest

/-- The constraints of a declared table need no statement. -/
theorem convergeConstraints_of_isTable {o : CatalogObject} (h : e.IsTable r o)
    (ho : existing.IsListingOf o) : e.convergeConstraints r true existing = .ok [] := by
  -- Each pass claims the constraints of its kind, so that none is left after the last one.
  obtain ⟨withKeys, hkeys, howes⟩ := foldlM_reconcileForeignKey h ho (owes_start h ho)
  obtain ⟨withUniques, huniques, howes⟩ := foldlM_reconcileUnique h ho howes
  obtain ⟨withIndexes, hindexes, howes⟩ := foldlM_reconcileIndex h ho howes
  have hchecks : e.source.checkConstraints.foldlM (e.reconcileCheck r.dialect existing) withIndexes
      = .ok withIndexes := by
    refine foldlM_reconcileCheck fun c hc => ?_
    rw [ho.checkConstraints.mem_iff, h.checkConstraints]
    exact List.mem_map_of_mem hc
  have hleft : withIndexes.leftovers = [] := List.map_eq_nil_iff.1 (List.perm_nil.1 howes.leftovers)
  refine bind_eq_ok_iff.2 ⟨withKeys, hkeys, bind_eq_ok_iff.2 ⟨withUniques, huniques,
    bind_eq_ok_iff.2 ⟨withIndexes, hindexes, bind_eq_ok_iff.2 ⟨withIndexes, hchecks, ?_⟩⟩⟩⟩
  rw [hleft, howes.additions, List.map_nil, List.append_nil, pure_eq_ok_iff]

end Entity

/-! ## Columns -/

theorem perm_cons_eraseP {α : Type} {p : α → Bool} {l : List α} {a : α} (h : l.find? p = some a) :
    l.Perm (a :: l.eraseP p) := by
  obtain ⟨ha, before, after, rfl, hbefore⟩ := List.find?_eq_some_iff_append.1 h
  have hnone : ∀ b ∈ before, ¬p b = true := fun b hb => by simpa using hbefore b hb
  rw [List.eraseP_append_right _ hnone, List.eraseP_cons_of_pos ha]
  exact List.perm_middle

/-- A field with a default that reads back, or none, does not differ from the column that it
declares. -/
theorem Field.difference_asReported {f : Field} {d : Dialect}
    (h : d.defaults.isMatch f.defaultLiteral f.defaultValue (d.columnRule f.columnType) = true) :
    (f.difference d (f.asReported d)).isAny = false := by
  have htype : (f.difference d (f.asReported d)).typeChange = false := by
    cases hs : (d.columnRule f.columnType).reportedSize? f.length f.precision f.scale with
    | none => simp [difference, asReported, TypeCode.sharesStorageWith, hs]
    | some size => simp [difference, asReported, TypeCode.sharesStorageWith, hs]
  have hdefault : (f.difference d (f.asReported d)).defaultChange = false := by
    simp [difference, asReported, h]
  have hnullable : (f.difference d (f.asReported d)).nullableChange = false := bne_self_eq_false _
  rw [ColumnDifference.isAny, htype, hdefault, hnullable]
  rfl

namespace Entity

variable {e : Entity} {d : Dialect}

theorem takeColumn_of_perm {c : CatalogColumn} {columns rest : List CatalogColumn}
    (hp : columns.Perm (c :: rest))
    (hd : ((c :: rest).map fun x => Text.asciiLower x.name).Nodup) :
    ∃ left, takeColumn c.name columns = (some c, left) ∧ left.Perm rest := by
  have hfind : columns.find? (fun x => Text.sameName x.name c.name) = some c :=
    Text.find?_sameName ((hp.map _).nodup_iff.2 hd) (hp.mem_iff.2 List.mem_cons_self)
      (Text.sameName_refl c.name)
  refine ⟨columns.eraseP fun x => Text.sameName x.name c.name, ?_, ?_⟩
  · rw [takeColumn, hfind]
  · exact ((perm_cons_eraseP hfind).symm.trans hp).cons_inv

theorem convergeColumn_asReported {f : Field}
    (h : d.defaults.isMatch f.defaultLiteral f.defaultValue (d.columnRule f.columnType) = true) :
    e.convergeColumn d f (f.asReported d) = .ok [] := by
  rw [convergeColumn, Field.difference_asReported h]
  rfl

theorem convergeFields_of_perm {fields : List Field} {columns : List CatalogColumn}
    (hsame : ∀ f ∈ fields, e.alterColumn d f.name (f.asReported d) = .ok [])
    (hd : (fields.map (·.column.caseless)).Nodup)
    (hp : columns.Perm (fields.map (·.asReported d))) :
    e.convergeFields d columns fields = .ok ([], []) := by
  induction fields generalizing columns with
  | nil =>
    rw [List.perm_nil.1 hp]
    rfl
  | cons f rest ih =>
    obtain ⟨hf, hrest⟩ := List.forall_mem_cons.1 hsame
    have hnames : ((f.asReported d :: rest.map (·.asReported d)).map
        fun x => Text.asciiLower x.name).Nodup := by
      rw [List.map_cons, List.map_map]
      exact hd
    -- No other column has the name, so the one that is taken out is the one declared.
    obtain ⟨left, htake, hleft⟩ := takeColumn_of_perm hp hnames
    have htake : takeColumn f.column.raw columns = (some (f.asReported d), left) := htake
    have hmore := ih hrest (List.nodup_cons.1 hd).2 hleft
    rw [convergeFields, htake]
    exact bind_eq_ok_iff.2 ⟨[], hf, bind_eq_ok_iff.2 ⟨([], []), hmore, rfl⟩⟩

/-- A field without a default has no literal either, so nothing is to be read back. -/
theorem IsOfSpec.isMatch {spec : EntitySpec} (hs : e.IsOfSpec d spec) {f : Field}
    (hf : f ∈ e.fields)
    (hr : f.defaultValue.isSome →
      d.defaults.isMatch f.defaultLiteral f.defaultValue (d.columnRule f.columnType) = true) :
    d.defaults.isMatch f.defaultLiteral f.defaultValue (d.columnRule f.columnType) = true := by
  cases hv : f.defaultValue with
  | some raw =>
    rw [← hv]
    exact hr (by rw [hv, Option.isSome_some])
  | none =>
    obtain ⟨fspec, _, hof⟩ := exists_mem_of_forall₂ hs.fields.flip hf
    have hliteral := hof.defaultLiteral
    rw [hv] at hliteral
    have hnone : f.defaultLiteral = none := (Except.ok.inj hliteral).symm
    rw [hnone]
    rfl

/-- The columns of a declared table need no statement. -/
theorem convergeColumns_of_isTable {spec : EntitySpec} {r : Registry} {existing o : CatalogObject}
    (h : e.IsTable r o) (ho : existing.IsListingOf o) (hs : e.IsOfSpec r.dialect spec)
    (hd : e.IsDistinct) (hr : e.HasReadableDefaults r.dialect) :
    e.convergeColumns r.dialect existing = .ok [] := by
  have hsame : ∀ f ∈ e.tableFields,
      e.alterColumn r.dialect f.name (f.asReported r.dialect) = .ok [] := fun f hf =>
    bind_eq_ok_iff.2 ⟨f, tableField_of_mem hd.fields hf,
      convergeColumn_asReported (hs.isMatch (mem_tableFields.1 hf).1 (hr f hf))⟩
  have hp := ho.tableColumns h.kind
  rw [h.columns] at hp
  exact bind_eq_ok_iff.2 ⟨_, convergeFields_of_perm hsame hd.columns hp, rfl⟩

end Entity

/-! ## Tables and views -/

namespace Entity

variable {e : Entity} {r : Registry} {spec : EntitySpec} {catalog : Catalog}
  {existing o : CatalogObject}

theorem upgradeTable_of_isTable (h : e.IsTable r o) (ho : existing.IsListingOf o)
    (hfind : catalog.find? o.name = some existing) (hs : e.IsOfSpec r.dialect spec)
    (hd : e.IsDistinct) (hr : e.HasReadableDefaults r.dialect) :
    e.upgradeTable r true catalog = .ok [] := by
  rw [h.name] at hfind
  have hkind : existing.kind = .table := ho.kind.trans h.kind
  have hcolumns : planning (e.convergeColumns r.dialect existing) = .ok [] := by
    rw [convergeColumns_of_isTable h ho hs hd hr]
    rfl
  have hconstraints : planning (e.convergeConstraints r true existing) = .ok [] := by
    rw [convergeConstraints_of_isTable h ho]
    rfl
  rw [upgradeTable, hfind]
  simp only [if_pos hkind]
  exact bind_eq_ok_iff.2 ⟨[], hcolumns, bind_eq_ok_iff.2 ⟨[], hconstraints, rfl⟩⟩

theorem lacksViewField_of_isListingOf (ho : existing.IsListingOf o) {d : Dialect}
    (hview : e.reportedView? d = some o) : e.lacksViewField existing = false := by
  obtain ⟨view, _, rfl⟩ := Option.map_eq_some_iff.1 hview
  refine List.any_eq_false.2 fun f hf => ?_
  have hmem : f.asReported d ∈ existing.columns := ho.columns (List.mem_map_of_mem hf)
  have hsome : (existing.column? f.column.raw).isSome :=
    List.find?_isSome.2 ⟨_, hmem, Text.sameName_refl f.column.raw⟩
  simp [Option.isSome_iff_ne_none.1 hsome]

theorem upgradeView_of_isListingOf
    (h : ∀ o, e.reportedView? r.dialect = some o →
      ∃ existing, catalog.find? o.name = some existing ∧ existing.IsListingOf o) :
    e.upgradeView r catalog false false = .ok [] := by
  cases hview : e.view with
  | none => rw [upgradeView, hview]
  | some view =>
    have hreported : e.reportedView? r.dialect = some
        { name := view.raw, kind := .view
          columns := e.viewFields.map (·.asReported r.dialect) } := by
      rw [reportedView?, hview, Option.map_some]
    obtain ⟨existing, hfind, ho⟩ := h _ hreported
    have hexisting : existingView catalog view = .ok (some existing) := by
      rw [existingView, hfind]
      exact if_pos ho.kind
    have hlacks := lacksViewField_of_isListingOf ho hreported
    rw [upgradeView, hview]
    refine bind_eq_ok_iff.2 ⟨some existing, hexisting, ?_⟩
    simp only [hlacks]
    rfl

end Entity

namespace Registry

variable {r : Registry} {names : List String} {entities : List Entity}

theorem upgradeTable_reported (hr : r.IsReachable) (horder : r.referenceOrder names = .ok entities)
    (h : r.IsComparable entities) {declared catalog : Catalog}
    (hdeclared : r.reported entities = .ok declared) (hlisting : catalog.IsListingOf declared)
    {e : Entity} (he : e ∈ entities) : e.upgradeTable r true catalog = .ok [] := by
  obtain ⟨spec, _, hs⟩ := hr.exists_finished (mem_of_referenceOrder horder he)
  obtain ⟨tables, hobjects, htables⟩ := objects_reported hdeclared
  obtain ⟨o, ho, htable⟩ := exists_mem_of_forall₂ htables he
  have hmem : o ∈ declared.objects := hobjects ▸ List.mem_append_left _ ho
  have hnames := (objectNames_reported hdeclared).symm ▸ h.objects
  obtain ⟨existing, hfind, hexisting⟩ := hlisting.find? hnames hmem
  exact Entity.upgradeTable_of_isTable htable hexisting hfind hs (h.distinct e he) (h.defaults e he)

theorem upgradeView_reported (h : r.IsComparable entities) {declared catalog : Catalog}
    (hdeclared : r.reported entities = .ok declared) (hlisting : catalog.IsListingOf declared)
    {e : Entity} (he : e ∈ entities) : e.upgradeView r catalog false false = .ok [] := by
  obtain ⟨tables, hobjects, _⟩ := objects_reported hdeclared
  refine Entity.upgradeView_of_isListingOf fun o ho => ?_
  have hmem : o ∈ declared.objects :=
    hobjects ▸ List.mem_append_right _ (List.mem_filterMap.2 ⟨e, he, ho⟩)
  exact hlisting.find? ((objectNames_reported hdeclared).symm ▸ h.objects) hmem

/-- The upgrade of a database that has exactly what the entities declare succeeds, and holds no
statement. Names of constraints need not tell them apart. -/
theorem upgrade_reported (hr : r.IsReachable) (horder : r.referenceOrder names = .ok entities)
    (h : r.IsComparable entities) :
    ∃ declared, r.reported entities = .ok declared ∧
      ∀ catalog : Catalog, catalog.IsListingOf declared →
        ∃ plan, r.upgrade true names catalog = .ok plan ∧ plan.statements = [] := by
  obtain ⟨declared, hdeclared⟩ := exists_reported hr horder h
  refine ⟨declared, hdeclared, fun catalog hlisting => ?_⟩
  have htables : (entities.mapM fun e => return (e, ← e.upgradeTable r true catalog)) =
      (.ok (entities.map (·, [])) : Except UpgradeError (List (Entity × List Statement))) := by
    refine mapM_eq_ok_iff.2 (List.forall₂_map_right_iff.2 (List.forall₂_same.2 fun e he => ?_))
    exact bind_eq_ok_iff.2
      ⟨[], upgradeTable_reported hr horder h hdeclared hlisting he, rfl⟩
  -- No table changes, so no view goes for the sake of one, and each is compared as it is.
  have hunchanged : (r.dialect.rebuildsViews &&
      (entities.map (·, ([] : List Statement))).any fun t => !t.2.isEmpty) = false := by
    simp
  have hscripts : ((entities.map (·, ([] : List Statement))).mapM fun t => do
      let view ← t.1.upgradeView r catalog (!t.2.isEmpty) false
      return Script.mk t.1.name (t.2 ++ view)) =
        .ok (entities.map fun e => Script.mk e.name []) := by
    refine mapM_eq_ok_iff.2 (List.forall₂_map_left_iff.2 (List.forall₂_map_right_iff.2
      (List.forall₂_same.2 fun e he => ?_)))
    exact bind_eq_ok_iff.2 ⟨[], upgradeView_reported h hdeclared hlisting he, rfl⟩
  refine ⟨⟨[], entities.map fun e => Script.mk e.name []⟩, ?_, ?_⟩
  · have hentities : planning (r.referenceOrder names) = .ok entities := by
      rw [horder]
      rfl
    refine bind_eq_ok_iff.2 ⟨entities, hentities, bind_eq_ok_iff.2 ⟨_, htables, ?_⟩⟩
    simp only [hunchanged]
    exact bind_eq_ok_iff.2 ⟨[], rfl, bind_eq_ok_iff.2 ⟨_, hscripts, rfl⟩⟩
  · simp [Upgrade.statements]

end Registry

/-! ## A blog -/

/-- Authors, each with a name of their own. -/
def authorSpec : EntitySpec :=
  { EntitySpec.named "Author" with
    fields := [(FieldSpec.named "id" .long).asPrimaryKey, FieldSpec.named "name" .string]
    uniqueConstraints := [⟨"uq_author", ["name"]⟩] }

/-- Posts with their authors, listed with the authors' names. -/
def postSpec : EntitySpec :=
  { EntitySpec.named "Post" with
    view := some "V_POST"
    fields := [(FieldSpec.named "id" .long).asPrimaryKey,
      (FieldSpec.named "state" .string).withDefault "draft",
      { FieldSpec.named "author" .long with foreignKey := some ⟨"Author", "id"⟩ },
      { FieldSpec.named "authorName" .string with viewSource := some ⟨"author", "name"⟩ }]
    indexes := [{ name := "ix_post", fieldNames := ["author", "state"] }]
    checkConstraints := [⟨"ck_post", "state", ["draft", "done"]⟩] }

/-- A registry of authors and posts. -/
def blogRegistry (db : Database) : Registry :=
  Registry.ofSpecs (Dialect.builtin db) [authorSpec, postSpec]

theorem isReachable_blogRegistry (db : Database) : (blogRegistry db).IsReachable := by
  refine Registry.isReachable_ofSpecs ?_
  simp only [List.forall_mem_cons]
  exact ⟨EntitySpec.isFinished_of_build (by decide), EntitySpec.isFinished_of_build (by decide),
    fun _ h => absurd h List.not_mem_nil⟩

theorem referenceOrder_blogRegistry (db : Database) :
    (blogRegistry db).referenceOrder ["Post"] = .ok (blogRegistry db).entities := by
  obtain ⟨author, post, he⟩ : ∃ author post, (blogRegistry db).entities = [author, post] := by
    cases db <;> exact ⟨_, _, rfl⟩
  have hnames : (blogRegistry db).entities.map (fun e => (e.name, e.references)) =
      [("Author", []), ("Post", ["Author"])] := by
    cases db <;> rfl
  simp only [he, List.map_cons, List.map_nil, List.cons.injEq, Prod.mk.injEq, and_true] at hnames
  obtain ⟨⟨hauthor, hnone⟩, hpost, href⟩ := hnames
  have hpost : (blogRegistry db).get "Post" = .ok post := by
    simp [Registry.get, Registry.get?, he, hauthor, hpost]
  have hauthor : (blogRegistry db).get "Author" = .ok author := by
    simp [Registry.get, Registry.get?, he, hauthor]
  simp [Registry.referenceOrder_eq_run, ReferenceOrder.run_cons, ReferenceOrder.run_nil, hpost,
    href, hauthor, hnone, bind, Except.bind, he, Except.map]

theorem isComparable_blogRegistry :
    (blogRegistry .mysql).IsComparable (blogRegistry .mysql).entities where
  distinct := List.forall_mem_cons.2 ⟨⟨by decide, by decide⟩, List.forall_mem_cons.2
    ⟨⟨by decide, by decide⟩, fun _ h => absurd h List.not_mem_nil⟩⟩
  objects := by decide
  targets := by
    refine List.forall_mem_cons.2 ⟨fun p hp => absurd hp List.not_mem_nil, List.forall_mem_cons.2
      ⟨List.forall_mem_cons.2 ⟨fun target htarget => ?_, fun p hp => absurd hp List.not_mem_nil⟩,
        fun _ h => absurd h List.not_mem_nil⟩⟩
    obtain rfl := Except.ok.inj htarget
    exact ⟨_, rfl⟩
  defaults := by
    unfold Entity.HasReadableDefaults
    decide

/-- The upgrade of a blog that is up to date is empty. -/
theorem upgrade_blog :
    (blogRegistry .mysql).IsReachable ∧
    (blogRegistry .mysql).referenceOrder ["Post"] = .ok (blogRegistry .mysql).entities ∧
    (blogRegistry .mysql).IsComparable (blogRegistry .mysql).entities ∧
    ∃ declared, (blogRegistry .mysql).reported (blogRegistry .mysql).entities = .ok declared ∧
      ∃ plan, (blogRegistry .mysql).upgrade true ["Post"] declared = .ok plan ∧
        plan.statements = [] := by
  have hr := isReachable_blogRegistry .mysql
  have horder := referenceOrder_blogRegistry .mysql
  have h := isComparable_blogRegistry
  obtain ⟨declared, hdeclared, hempty⟩ := Registry.upgrade_reported hr horder h
  exact ⟨hr, horder, h, declared, hdeclared, hempty declared (.refl declared)⟩

end SqlDialects
