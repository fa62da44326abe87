import SqlDialects.Proofs.ColumnStep
import SqlDialects.Proofs.VersionScript

/-!
# When the column statements of an upgrade run

The planner puts new names first, then changes, additions and drops. That order runs on the columns
of the earlier table iff no column gets the name of one that is still there when its statement
comes, and every field that gets a column or a new name is the one that its name stands for:
`Entity.IsOrderly`.

Results:
1. `Entity.filterMap_columnStatements`: the steps of a script on columns.
2. `Registry.versionUpgrade_runs_iff`: the script of an upgrade takes the earlier columns to those
   of the entity iff the upgrade is orderly.
-/

namespace SqlDialects

/-! ## The steps of a script -/

/-- The step of a statement on a column. -/
def Statement.columnStep? : Statement → Option ColumnStep
  | .addColumn d => some (.add d.target.column.caseless)
  | .fillNulls _ column _ => some (.change column.caseless)
  | .alterType t | .setDefault t _ | .dropDefault t | .setNullable t =>
    some (.change t.column.caseless)
  | .renameColumn t newName => some (.rename t.column.caseless newName.caseless)
  | .dropColumn _ column => some (.drop column.caseless)
  | _ => none

/-- The steps of a script on the columns of the table, in order. -/
def Script.columnSteps (s : Script) : List ColumnStep :=
  s.statements.filterMap Statement.columnStep?

theorem Statement.columnStep?_of_isOnWhole {s : Statement} (h : s.isOnWhole = true) :
    s.columnStep? = none := by
  cases s <;> first | rfl | cases h

theorem Statement.columnStep?_of_changedColumn? {s : Statement} {column : Name}
    (h : s.changedColumn? = some column) : s.columnStep? = some (.change column.caseless) := by
  cases s <;> first | (cases h; rfl) | cases h

namespace Entity

/-- The field that the name of a field stands for: the last one with it. -/
def namesake (e : Entity) (f : Field) : Field := (e.tableField f.name).toOption.getD f

theorem namesake_eq {e : Entity} {f g : Field} (h : e.tableField f.name = .ok g) :
    e.namesake f = g := by
  simp [namesake, h, Except.toOption]

variable {e previous : Entity} {d : Dialect} {steps : Field → FieldSteps}

theorem filterMap_convergeColumn {f : Field} {observed : CatalogColumn}
    {statements : List Statement} (h : e.convergeColumn d f observed = .ok statements) :
    statements.filterMap Statement.columnStep? =
      (List.replicate statements.length f.column.caseless).map .change := by
  have hall : ∀ s ∈ statements, s.columnStep? = some (.change f.column.caseless) := fun s hs =>
    Statement.columnStep?_of_changedColumn? (changedColumn?_of_mem_convergeColumn h hs)
  clear h
  induction statements with
  | nil => rfl
  | cons s rest ih =>
    rw [List.forall_mem_cons] at hall
    rw [List.filterMap_cons_some hall.1, ih hall.2]
    rfl

theorem filterMap_addColumn {f : Field} {statements : List Statement}
    (h : e.addColumn d f.name = .ok statements) :
    statements.filterMap Statement.columnStep? =
      .add (e.namesake f).column.caseless ::
        (List.replicate (statements.length - 1) (e.namesake f).column.caseless).map .change := by
  obtain ⟨g, hg, ⟨_, rfl⟩ | ⟨_, literal, _, rfl⟩⟩ := addColumn_eq_ok h
  · rw [namesake_eq hg]
    rfl
  · rw [namesake_eq hg]
    rfl

section Fields

variable (h : ∀ f ∈ e.upgradableFields, e.fieldSteps previous d f = .ok (steps f))
include h

theorem filterMap_renames {p : Field × Field} (hp : p ∈ e.renamedFields previous) :
    (steps p.2).renames.filterMap Statement.columnStep? =
      [.rename p.1.column.caseless (e.namesake p.2).column.caseless] := by
  obtain ⟨hpaired, hdiffers⟩ := mem_renamedFields.1 hp
  obtain ⟨hf, hb⟩ := mem_pairedFields.1 hpaired
  obtain ⟨g, hg, hrenames, -, -⟩ := fieldSteps_of_paired hb (h p.2 hf)
  rw [hrenames, if_neg fun hsame => hdiffers (Name.caseless_eq_iff.2 hsame), namesake_eq hg]
  rfl

theorem filterMap_alterations {p : Field × Field} (hp : p ∈ e.pairedFields previous) :
    (steps p.2).alterations.filterMap Statement.columnStep? =
      (List.replicate (steps p.2).alterations.length
        (e.namesake p.2).column.caseless).map .change := by
  obtain ⟨hf, hb⟩ := mem_pairedFields.1 hp
  obtain ⟨g, hg, -, halterations, -⟩ := fieldSteps_of_paired hb (h p.2 hf)
  rw [filterMap_convergeColumn halterations, namesake_eq hg]

theorem filterMap_additions {f : Field} (hf : f ∈ e.addedFields previous) :
    (steps f).additions.filterMap Statement.columnStep? =
      .add (e.namesake f).column.caseless ::
        (List.replicate ((steps f).additions.length - 1)
          (e.namesake f).column.caseless).map .change := by
  obtain ⟨hup, hb⟩ := mem_addedFields.1 hf
  exact filterMap_addColumn (fieldSteps_of_added hb (h f hup)).2.2

end Fields

/-- Columns that get a new name, each with it. -/
def renamedColumns (e previous : Entity) : List (String × String) :=
  (e.renamedFields previous).map fun p => (p.1.column.caseless, p.2.column.caseless)

/-- Columns that are changed, as often as they are. -/
def changedColumns (e previous : Entity) (steps : Field → FieldSteps) : List String :=
  (e.pairedFields previous).flatMap fun p =>
    List.replicate (steps p.2).alterations.length (e.namesake p.2).column.caseless

/-- Columns that are added, each with how often it is changed then. -/
def addedColumns (e previous : Entity) (steps : Field → FieldSteps) : List (String × Nat) :=
  (e.addedFields previous).map fun f => (f.column.caseless, (steps f).additions.length - 1)

/-- The steps on columns: new names, changes, additions with the changes that complete them, and
drops. -/
theorem filterMap_columnStatements
    (h : ∀ f ∈ e.upgradableFields, e.fieldSteps previous d f = .ok (steps f)) :
    (e.columnStatements previous d steps).filterMap Statement.columnStep? =
      ((e.renamedFields previous).map
          fun p => (p.1.column.caseless, (e.namesake p.2).column.caseless)).map
        (fun p => .rename p.1 p.2)
      ++ (e.changedColumns previous steps).map .change
      ++ ((e.addedFields previous).map
          fun f => ((e.namesake f).column.caseless, (steps f).additions.length - 1)).flatMap
        (fun a => .add a.1 :: (List.replicate a.2 a.1).map .change)
      ++ ((e.abandonedFields previous).map (·.column.caseless)).map .drop := by
  have hdrops : ((e.abandonedFields previous).map fun f => e.dropColumn d f.column.raw).filterMap
      Statement.columnStep? =
        ((e.abandonedFields previous).map (·.column.caseless)).map .drop := by
    rw [List.filterMap_map, List.map_map, ← List.filterMap_eq_map]
    rfl
  rw [columnStatements_eq_parts h, List.filterMap_append, List.filterMap_append,
    List.filterMap_append, List.filterMap_flatMap, List.filterMap_flatMap, List.filterMap_flatMap,
    List.flatMap_congr fun p hp => filterMap_renames h hp,
    List.flatMap_congr fun p hp => filterMap_alterations h hp,
    List.flatMap_congr fun f hf => filterMap_additions h hf, hdrops, ← List.map_eq_flatMap,
    changedColumns, List.map_flatMap, List.flatMap_map, List.map_map, List.map_map]
  rfl

/-- The steps of an upgrade whose fields are those that their names stand for. -/
theorem filterMap_of_found
    (hsteps : ∀ f ∈ e.upgradableFields, e.fieldSteps previous d f = .ok (steps f))
    (hrenamed : ∀ p ∈ e.renamedFields previous, e.tableField p.2.name = .ok p.2)
    (hadded : ∀ f ∈ e.addedFields previous, e.tableField f.name = .ok f) :
    (e.columnStatements previous d steps).filterMap Statement.columnStep? =
      (e.renamedColumns previous).map (fun p => .rename p.1 p.2)
      ++ (e.changedColumns previous steps).map .change
      ++ (e.addedColumns previous steps).flatMap
        (fun a => .add a.1 :: (List.replicate a.2 a.1).map .change)
      ++ ((e.abandonedFields previous).map (·.column.caseless)).map .drop := by
  have hrenames : ((e.renamedFields previous).map
      fun p => (p.1.column.caseless, (e.namesake p.2).column.caseless)) =
        e.renamedColumns previous :=
    List.map_congr_left fun p hp => by rw [namesake_eq (hrenamed p hp)]
  have hadditions : ((e.addedFields previous).map
      fun f => ((e.namesake f).column.caseless, (steps f).additions.length - 1)) =
        e.addedColumns previous steps :=
    List.map_congr_left fun f hf => by rw [namesake_eq (hadded f hf)]
  rw [filterMap_columnStatements hsteps, hrenames, hadditions]

/-! ## The columns of two versions -/

/-- Columns of some fields. -/
def columnNames (fields : List Field) : List String := fields.map (·.column.caseless)

theorem mem_columnNames {fields : List Field} {f : Field} (h : f ∈ fields) :
    f.column.caseless ∈ columnNames fields :=
  List.mem_map_of_mem (f := fun f : Field => f.column.caseless) h

/-- Columns of the table. -/
def columnSet (e : Entity) : Finset String := (columnNames e.tableFields).toFinset

/-- Whether no two columns of the table have one name. -/
def HasDistinctColumns (e : Entity) : Prop := (columnNames e.tableFields).Nodup

instance (e : Entity) : Decidable e.HasDistinctColumns := inferInstanceAs (Decidable (List.Nodup _))

/-- The fields of the primary key. -/
def keyFields (e : Entity) : List Field := e.tableFields.filter (·.primaryKey)

/-- Whether the key has the same markers and columns as it had. -/
def HasSameKey (e previous : Entity) : Prop :=
  ∀ marker column, (∃ f ∈ e.keyFields, f.marker = marker ∧ f.column.caseless = column) ↔
    ∃ f ∈ previous.keyFields, f.marker = marker ∧ f.column.caseless = column

theorem perm_tableFields (e : Entity) :
    e.tableFields.Perm (e.keyFields ++ e.upgradableFields) := by
  have hup : e.upgradableFields = e.tableFields.filter fun f => !f.primaryKey := by
    refine List.filter_congr fun f hf => ?_
    rw [Field.isUpgradable, (mem_tableFields.1 hf).2]
    simp
  rw [hup]
  exact (List.filter_append_perm _ _).symm

/-- Columns that keep their names. -/
def keptColumns (e previous : Entity) : List String :=
  columnNames (((e.pairedFields previous).filter
    fun p => Text.sameName p.1.column.raw p.2.column.raw).map Prod.snd)

/-- The columns of a version are those of its key, and those that are kept, renamed or added. -/
theorem columnNames_perm (e previous : Entity) :
    (columnNames e.tableFields).Perm (columnNames e.keyFields ++ (e.keptColumns previous
      ++ columnNames ((e.renamedFields previous).map Prod.snd)
      ++ columnNames (e.addedFields previous))) := by
  have hpaired := ((perm_pairedFields e previous).map Prod.snd).map (·.column.caseless)
  have hupgradable := (perm_upgradableFields e previous).map (·.column.caseless)
  have htable := (perm_tableFields e).map (·.column.caseless)
  simp only [List.map_append] at hpaired hupgradable htable
  exact htable.trans (.append_left _
    (hupgradable.trans (.append_right _ (hpaired.trans List.perm_append_comm))))

/-- A key that stays the same has the same columns. -/
theorem HasSameKey.columnNames_perm (hkey : e.HasSameKey previous)
    (hnew : (e.fields.map (·.marker)).Nodup) (hold : (previous.fields.map (·.marker)).Nodup) :
    (columnNames previous.keyFields).Perm (columnNames e.keyFields) := by
  have hnodup : ∀ x : Entity, (x.fields.map (·.marker)).Nodup →
      (x.keyFields.map fun f => (f.marker, f.column.caseless)).Nodup := by
    intro x hx
    refine List.Nodup.of_map Prod.fst ?_
    rw [List.map_map]
    exact hx.sublist (List.Sublist.map _ (List.filter_sublist.trans List.filter_sublist))
  have hperm : (previous.keyFields.map fun f => (f.marker, f.column.caseless)).Perm
      (e.keyFields.map fun f => (f.marker, f.column.caseless)) := by
    refine (List.perm_ext_iff_of_nodup (hnodup previous hold) (hnodup e hnew)).2 fun k => ?_
    simpa [List.mem_map, Prod.ext_iff] using (hkey k.1 k.2).symm
  simpa [columnNames, Function.comp_def] using hperm.map Prod.snd

/-- The columns of the version before are those of the key, and those that are kept, renamed or
abandoned. -/
theorem columnNames_previous_perm (hkey : e.HasSameKey previous)
    (hnew : (e.fields.map (·.marker)).Nodup) (hold : (previous.fields.map (·.marker)).Nodup) :
    (columnNames previous.tableFields).Perm (columnNames e.keyFields ++ (e.keptColumns previous
      ++ columnNames ((e.renamedFields previous).map Prod.fst)
      ++ columnNames (e.abandonedFields previous))) := by
  have hkept : columnNames (((e.pairedFields previous).filter
      fun p => Text.sameName p.1.column.raw p.2.column.raw).map Prod.fst) =
        e.keptColumns previous := by
    rw [keptColumns, columnNames, columnNames, List.map_map, List.map_map]
    exact List.map_congr_left fun p hp => Name.caseless_eq_iff.2 (List.mem_filter.1 hp).2
  have hpaired := ((perm_pairedFields e previous).map Prod.fst).map (·.column.caseless)
  have hupgradable := (perm_previous_upgradableFields hnew hold).map (·.column.caseless)
  have htable := (perm_tableFields previous).map (·.column.caseless)
  simp only [List.map_append] at hpaired hupgradable htable
  rw [← hkept]
  exact htable.trans ((hkey.columnNames_perm hnew hold).append
    (hupgradable.trans (.append_right _ (hpaired.trans List.perm_append_comm))))

/-- Whether the order of an upgrade's statements suits its columns. -/
structure IsOrderly (e previous : Entity) (d : Dialect) : Prop where
  /-- Columns go last, so that their names are not free before. -/
  apart : ∀ f ∈ e.upgradableFields, ∀ q ∈ e.abandonedFields previous,
    f.column.caseless ≠ q.column.caseless
  /-- A new name is not one that a later column still has. -/
  renamesInOrder : (e.renamedFields previous).Pairwise fun p q =>
    p.2.column.caseless ≠ q.1.column.caseless
  /-- A field that gets a new name is the one that its name stands for. -/
  renamed : ∀ p ∈ e.renamedFields previous, e.tableField p.2.name = .ok p.2
  /-- A field that is added is the one that its name stands for. -/
  added : ∀ f ∈ e.addedFields previous, e.tableField f.name = .ok f
  /-- A field whose name stands for an added one has nothing to change. -/
  unchanged : ∀ p ∈ e.pairedFields previous, ∀ g ∈ e.addedFields previous,
    e.tableField p.2.name = .ok g → e.alterColumn d p.2.name (p.1.asReported d) = .ok []

theorem IsOrderly.count_abandoned (ho : e.IsOrderly previous d) {f : Field}
    (hf : f ∈ e.upgradableFields) :
    (columnNames (e.abandonedFields previous)).count f.column.caseless = 0 := by
  refine List.count_eq_zero.2 fun hm => ?_
  obtain ⟨q, hq, hqf⟩ := List.mem_map.1 hm
  exact ho.apart f hf q hq hqf.symm

theorem eq_of_caseless (h : e.HasDistinctColumns) {f g : Field} (hf : f ∈ e.tableFields)
    (hg : g ∈ e.tableFields) (hfg : f.column.caseless = g.column.caseless) : f = g :=
  List.inj_on_of_nodup_map h hf hg hfg

theorem HasDistinctColumns.columnSet_val (h : e.HasDistinctColumns) :
    e.columnSet.val = (columnNames e.tableFields : Multiset String) := by
  rw [columnSet, List.toFinset_val, List.dedup_eq_self.2 h]

theorem mem_upgradableFields_of_changed {f : Field}
    (h : f ∈ (e.renamedFields previous).map Prod.snd ++ e.addedFields previous) :
    f ∈ e.upgradableFields := by
  rcases List.mem_append.1 h with h | h
  · obtain ⟨p, hp, rfl⟩ := List.mem_map.1 h
    exact (mem_pairedFields.1 (mem_renamedFields.1 hp).1).1
  · exact (mem_addedFields.1 h).1

section Steps

variable (hsteps : ∀ f ∈ e.upgradableFields, e.fieldSteps previous d f = .ok (steps f))
include hsteps

theorem tableField_namesake {f : Field} (hf : f ∈ e.upgradableFields) :
    e.tableField f.name = .ok (e.namesake f) := by
  have hok : ∃ g, e.tableField f.name = .ok g := by
    cases hb : previous.upgradableField? f.marker with
    | none =>
      obtain ⟨_, _, ha⟩ := fieldSteps_of_added hb (hsteps f hf)
      obtain ⟨g, hg, _⟩ := addColumn_eq_ok ha
      exact ⟨g, hg⟩
    | some before =>
      obtain ⟨g, hg, _⟩ := fieldSteps_of_paired hb (hsteps f hf)
      exact ⟨g, hg⟩
  obtain ⟨g, hg⟩ := hok
  rw [hg, namesake_eq hg]

theorem alterColumn_eq_alterations {p : Field × Field} (hp : p ∈ e.pairedFields previous) :
    e.alterColumn d p.2.name (p.1.asReported d) = .ok (steps p.2).alterations := by
  obtain ⟨hf, hb⟩ := mem_pairedFields.1 hp
  obtain ⟨g, hg, _, halter, _⟩ := fieldSteps_of_paired hb (hsteps p.2 hf)
  exact bind_eq_ok_iff.2 ⟨g, hg, halter⟩

/-- If the columns that are given are those of the fields, each field is the one that its name
stands for: its column comes from a field of its name. -/
theorem found_of_given (hdistinct : e.HasDistinctColumns)
    (hgiven : (columnNames (((e.renamedFields previous).map Prod.snd
        ++ e.addedFields previous).map e.namesake)).Perm
      (columnNames ((e.renamedFields previous).map Prod.snd ++ e.addedFields previous)))
    {f : Field} (hf : f ∈ (e.renamedFields previous).map Prod.snd ++ e.addedFields previous) :
    e.tableField f.name = .ok f := by
  have hfield := mem_upgradableFields.1 (mem_upgradableFields_of_changed hf)
  have hmem := hgiven.symm.subset (List.mem_map_of_mem hf)
  rw [columnNames, List.map_map, List.mem_map] at hmem
  obtain ⟨x, hx, hxf⟩ := hmem
  have hfound := tableField_namesake hsteps (mem_upgradableFields_of_changed hx)
  obtain ⟨htable, hname⟩ := mem_tableFields_of_tableField hfound
  have he : e.namesake x = f := eq_of_caseless hdistinct htable hfield.1 hxf
  rw [he] at hfound hname
  rw [hname, hfound]

end Steps

/-- Two versions of a table: markers tell the fields of each apart, names the columns of each, and
the key is the same. -/
structure AreVersions (e previous : Entity) : Prop where
  markers : (e.fields.map (·.marker)).Nodup
  previousMarkers : (previous.fields.map (·.marker)).Nodup
  columns : e.HasDistinctColumns
  previousColumns : previous.HasDistinctColumns
  sameKey : e.HasSameKey previous

namespace AreVersions

variable (h : e.AreVersions previous)
include h

theorem columnSet_val :
    e.columnSet.val = columnNames e.keyFields + (e.keptColumns previous
      + columnNames ((e.renamedFields previous).map Prod.snd)
      + columnNames (e.addedFields previous) : Multiset String) := by
  rw [h.columns.columnSet_val, Multiset.coe_eq_coe.2 (columnNames_perm e previous)]
  rfl

theorem previous_columnSet_val :
    previous.columnSet.val = columnNames e.keyFields + (e.keptColumns previous
      + columnNames ((e.renamedFields previous).map Prod.fst)
      + columnNames (e.abandonedFields previous) : Multiset String) := by
  rw [h.previousColumns.columnSet_val, Multiset.coe_eq_coe.2
    (columnNames_previous_perm h.sameKey h.markers h.previousMarkers)]
  rfl

theorem nodup_columns :
    (columnNames e.keyFields + (e.keptColumns previous
      + columnNames ((e.renamedFields previous).map Prod.snd)
      + columnNames (e.addedFields previous) : Multiset String)).Nodup :=
  h.columnSet_val ▸ e.columnSet.nodup

theorem nodup_previousColumns :
    (columnNames e.keyFields + (e.keptColumns previous
      + columnNames ((e.renamedFields previous).map Prod.fst)
      + columnNames (e.abandonedFields previous) : Multiset String)).Nodup :=
  h.previous_columnSet_val ▸ previous.columnSet.nodup

/-- New names run iff none of them is a name that is still there. -/
theorem exists_run_renamedFields_iff :
    (∃ S', ColumnStep.run previous.columnSet
        ((e.renamedColumns previous).map fun p => .rename p.1 p.2) = some S') ↔
    ((e.renamedFields previous).Pairwise fun p q => p.2.column.caseless ≠ q.1.column.caseless) ∧
      ∀ p ∈ e.renamedFields previous, p.2.column.caseless ∈ previous.columnSet →
        p.2.column.caseless ∈ columnNames ((e.renamedFields previous).map Prod.fst) := by
  have hO := h.nodup_previousColumns
  have hN := h.nodup_columns
  rw [Multiset.nodup_add, Multiset.nodup_add, Multiset.nodup_add] at hO hN
  rw [renamedColumns, ColumnStep.exists_run_renames_iff]
  · simp only [List.pairwise_map, List.forall_mem_map, columnNames, List.map_map]
    rfl
  · rw [List.forall_mem_map]
    intro p hp
    rw [← Finset.mem_val, h.previous_columnSet_val]
    have : p.1.column.caseless ∈ columnNames ((e.renamedFields previous).map Prod.fst) :=
      List.mem_map_of_mem (List.mem_map_of_mem hp)
    simp [this]
  · rw [List.map_map]
    have := hO.2.1.1.2.1
    simpa [columnNames, Function.comp_def] using this
  · rw [List.map_map]
    have := hN.2.1.1.2.1
    simpa [columnNames, Function.comp_def] using this
  · rw [List.forall_mem_map]
    exact fun p hp => (mem_renamedFields.1 hp).2

/-- A run that ends with the columns of the entity finds every field by its name: it gives as many
of each name as it has to. -/
theorem found_of_run
    (hsteps : ∀ f ∈ e.upgradableFields, e.fieldSteps previous d f = .ok (steps f))
    (hrun : ColumnStep.run previous.columnSet
      ((e.columnStatements previous d steps).filterMap Statement.columnStep?) = some e.columnSet)
    {f : Field} (hf : f ∈ (e.renamedFields previous).map Prod.snd ++ e.addedFields previous) :
    e.tableField f.name = .ok f := by
  refine found_of_given hsteps h.columns ?_ hf
  have hbalance := ColumnStep.run_balance hrun
  rw [filterMap_columnStatements hsteps, h.columnSet_val, h.previous_columnSet_val] at hbalance
  simp only [ColumnStep.given_append, ColumnStep.taken_append, ColumnStep.given_renames,
    ColumnStep.taken_renames, ColumnStep.given_changes, ColumnStep.taken_changes,
    ColumnStep.given_additions, ColumnStep.taken_additions, ColumnStep.given_drops,
    ColumnStep.taken_drops] at hbalance
  rw [← Multiset.coe_eq_coe]
  ext x
  have hx := congrArg (Multiset.count x) hbalance
  simp only [columnNames, List.map_append, List.map_map, Function.comp_def, Multiset.count_add,
    Multiset.coe_count, Multiset.count_zero, List.count_append] at hx ⊢
  omega

/-- A run that ends with the columns of the entity is one of an orderly upgrade. -/
theorem isOrderly_of_run
    (hsteps : ∀ f ∈ e.upgradableFields, e.fieldSteps previous d f = .ok (steps f))
    (hrun : ColumnStep.run previous.columnSet
      ((e.columnStatements previous d steps).filterMap Statement.columnStep?) =
        some e.columnSet) :
    e.IsOrderly previous d := by
  have hrenamed : ∀ p ∈ e.renamedFields previous, e.tableField p.2.name = .ok p.2 := fun p hp =>
    h.found_of_run hsteps hrun (List.mem_append_left _ (List.mem_map_of_mem hp))
  have hadded : ∀ f ∈ e.addedFields previous, e.tableField f.name = .ok f := fun f hf =>
    h.found_of_run hsteps hrun (List.mem_append_right _ hf)
  rw [filterMap_of_found hsteps hrenamed hadded] at hrun
  obtain ⟨S2, hrun, hdrops⟩ := ColumnStep.run_append_eq_some_iff.1 hrun
  obtain ⟨S1, hrun, hadditions⟩ := ColumnStep.run_append_eq_some_iff.1 hrun
  obtain ⟨S1', hrenames, hchanges⟩ := ColumnStep.run_append_eq_some_iff.1 hrun
  obtain ⟨rfl, hchanged⟩ := ColumnStep.run_changes_iff.1 hchanges
  -- Before the drops there are the columns of the entity and those that go.
  have hlast := ColumnStep.run_balance hdrops
  rw [ColumnStep.given_drops, ColumnStep.taken_drops, add_zero] at hlast
  have hapart := Multiset.disjoint_of_nodup_add (hlast ▸ S2.nodup)
  have hmid := ColumnStep.run_balance hadditions
  rw [ColumnStep.given_additions, ColumnStep.taken_additions, add_zero] at hmid
  have hnotYet := Multiset.disjoint_of_nodup_add (hmid ▸ S2.nodup)
  refine ⟨fun f hf q hq he => ?_, (h.exists_run_renamedFields_iff.1 ⟨_, hrenames⟩).1, hrenamed,
    hadded, fun p hp g hg hpg => ?_⟩
  · refine Multiset.disjoint_left.1 hapart (?_ : f.column.caseless ∈ _) ?_
    · rw [h.columns.columnSet_val]
      exact Multiset.mem_coe.2 (mem_columnNames (mem_upgradableFields.1 hf).1)
    · exact he ▸ Multiset.mem_coe.2 (mem_columnNames hq)
  · rw [alterColumn_eq_alterations hsteps hp]
    congr 1
    by_contra hne
    refine Multiset.disjoint_right.1 hnotYet (?_ : g.column.caseless ∈ _) (hchanged _ ?_)
    · rw [addedColumns, List.map_map]
      exact Multiset.mem_coe.2 (mem_columnNames hg)
    · refine List.mem_flatMap.2 ⟨p, hp, ?_⟩
      rw [namesake_eq hpg, List.mem_replicate]
      exact ⟨fun hz => hne (List.length_eq_zero_iff.1 hz), rfl⟩

/-- How often a name is in the columns of the entity. -/
theorem count_columns_le_one (x : String) :
    (columnNames e.keyFields).count x + ((e.keptColumns previous).count x
      + (columnNames ((e.renamedFields previous).map Prod.snd)).count x
      + (columnNames (e.addedFields previous)).count x) ≤ 1 := by
  have := Multiset.nodup_iff_count_le_one.1 h.nodup_columns x
  simpa only [Multiset.count_add, Multiset.coe_count] using this

theorem exists_run_renames_of_isOrderly (ho : e.IsOrderly previous d) :
    ∃ S', ColumnStep.run previous.columnSet
      ((e.renamedColumns previous).map fun p => .rename p.1 p.2) = some S' := by
  refine h.exists_run_renamedFields_iff.2 ⟨ho.renamesInOrder, fun p hp hm => ?_⟩
  have hcount := h.count_columns_le_one p.2.column.caseless
  have hrenamed := List.count_pos_iff.2 (mem_columnNames (List.mem_map_of_mem (f := Prod.snd) hp))
  have hapart : (columnNames (e.abandonedFields previous)).count p.2.column.caseless = 0 :=
    ho.count_abandoned (mem_pairedFields.1 (mem_renamedFields.1 hp).1).1
  have hthere := Multiset.count_pos.2 (Finset.mem_def.1 hm)
  rw [h.previous_columnSet_val] at hthere
  simp only [Multiset.count_add, Multiset.coe_count] at hthere
  exact List.count_pos_iff.1 (by omega)

section Orderly

variable (ho : e.IsOrderly previous d) {S S' : Finset String}
  (hrenames : ColumnStep.run previous.columnSet
    ((e.renamedColumns previous).map fun p => .rename p.1 p.2) = some S)
include hrenames

/-- How often a name is there once columns have their new names. -/
theorem count_renamed (x : String) :
    Multiset.count x S.val = (columnNames e.keyFields).count x
      + (e.keptColumns previous).count x
      + (columnNames ((e.renamedFields previous).map Prod.snd)).count x
      + (columnNames (e.abandonedFields previous)).count x := by
  have hbalance := congrArg (Multiset.count x) (ColumnStep.run_balance hrenames)
  rw [h.previous_columnSet_val, ColumnStep.given_renames, ColumnStep.taken_renames,
    renamedColumns] at hbalance
  simp only [columnNames, List.map_map, Function.comp_def, Multiset.count_add,
    Multiset.coe_count] at hbalance ⊢
  omega

include ho in
theorem run_changes_of_isOrderly
    (hsteps : ∀ f ∈ e.upgradableFields, e.fieldSteps previous d f = .ok (steps f)) :
    ColumnStep.run S ((e.changedColumns previous steps).map .change) = some S := by
  refine ColumnStep.run_changes_iff.2 ⟨rfl, fun c hc => ?_⟩
  obtain ⟨p, hp, hc⟩ := List.mem_flatMap.1 hc
  obtain ⟨hlength, rfl⟩ := List.mem_replicate.1 hc
  have hfound := tableField_namesake hsteps (mem_pairedFields.1 hp).1
  obtain ⟨htable, _⟩ := mem_tableFields_of_tableField hfound
  -- The column of an added field is not there yet, but then there is nothing to change.
  have hadded : (columnNames (e.addedFields previous)).count (e.namesake p.2).column.caseless =
      0 := by
    refine List.count_eq_zero.2 fun hm => ?_
    obtain ⟨f, hf, hcol⟩ := List.mem_map.1 hm
    have he := eq_of_caseless h.columns
      (mem_upgradableFields.1 (mem_addedFields.1 hf).1).1 htable hcol
    have hnone := ho.unchanged p hp f hf (he ▸ hfound)
    rw [alterColumn_eq_alterations hsteps hp] at hnone
    exact hlength (congrArg List.length (Except.ok.inj hnone))
  have hpos := List.count_pos_iff.2 (mem_columnNames htable)
  rw [(columnNames_perm e previous).count_eq] at hpos
  simp only [List.count_append] at hpos
  refine Finset.mem_def.2 (Multiset.count_pos.1 ?_)
  rw [h.count_renamed hrenames]
  omega

include ho in
theorem exists_run_additions_of_isOrderly :
    ∃ S', ColumnStep.run S ((e.addedColumns previous steps).flatMap
      fun a => .add a.1 :: (List.replicate a.2 a.1).map .change) = some S' := by
  refine ColumnStep.exists_run_additions ?_ ?_
  · have hnodup := h.nodup_columns
    rw [Multiset.nodup_add, Multiset.nodup_add] at hnodup
    simpa [addedColumns, columnNames, Function.comp_def] using hnodup.2.1.2.1
  · rw [addedColumns, List.forall_mem_map]
    intro f hf (hm : f.column.caseless ∈ S)
    have hcount := h.count_columns_le_one f.column.caseless
    have hpos := List.count_pos_iff.2 (mem_columnNames hf)
    have hthere := Multiset.count_pos.2 (Finset.mem_def.1 hm)
    rw [h.count_renamed hrenames, ho.count_abandoned (mem_addedFields.1 hf).1] at hthere
    omega

/-- Drops leave the columns of the entity. -/
theorem run_drops
    (hadditions : ColumnStep.run S ((e.addedColumns previous steps).flatMap
      fun a => .add a.1 :: (List.replicate a.2 a.1).map .change) = some S') :
    ColumnStep.run S' (((e.abandonedFields previous).map (·.column.caseless)).map .drop) =
      some e.columnSet := by
  have hS' := ColumnStep.run_balance hadditions
  rw [ColumnStep.given_additions, ColumnStep.taken_additions, add_zero, addedColumns,
    List.map_map] at hS'
  have hdrops : ∃ S'', ColumnStep.run S'
      (((e.abandonedFields previous).map (·.column.caseless)).map .drop) = some S'' := by
    refine ColumnStep.exists_run_drops ?_ fun c hc => ?_
    · have hnodup := h.nodup_previousColumns
      rw [Multiset.nodup_add, Multiset.nodup_add] at hnodup
      exact hnodup.2.1.2.1
    · rw [Finset.mem_def, ← hS']
      refine Multiset.mem_add.2 (.inl (Multiset.count_pos.1 ?_))
      have hpos := List.count_pos_iff.2 hc
      rw [h.count_renamed hrenames]
      unfold columnNames
      omega
  obtain ⟨S'', hdrops⟩ := hdrops
  have hlast := ColumnStep.run_balance hdrops
  rw [ColumnStep.given_drops, ColumnStep.taken_drops, add_zero, ← hS'] at hlast
  have hS'' : S'' = e.columnSet := by
    refine Finset.val_inj.1 ?_
    rw [h.columnSet_val]
    ext x
    have hx := congrArg (Multiset.count x) hlast
    simp only [Multiset.count_add, Multiset.coe_count, h.count_renamed hrenames] at hx ⊢
    simp only [columnNames, Function.comp_def] at hx ⊢
    omega
  rw [hdrops, hS'']

end Orderly

/-- An orderly upgrade runs, and ends with the columns of the entity. -/
theorem run_of_isOrderly
    (hsteps : ∀ f ∈ e.upgradableFields, e.fieldSteps previous d f = .ok (steps f))
    (ho : e.IsOrderly previous d) :
    ColumnStep.run previous.columnSet
      ((e.columnStatements previous d steps).filterMap Statement.columnStep?) =
        some e.columnSet := by
  rw [filterMap_of_found hsteps ho.renamed ho.added]
  obtain ⟨S, hrenames⟩ := h.exists_run_renames_of_isOrderly ho
  have hchanges := h.run_changes_of_isOrderly ho hrenames hsteps
  obtain ⟨S', hadditions⟩ := h.exists_run_additions_of_isOrderly ho hrenames
  have hdrops := h.run_drops hrenames hadditions
  exact ColumnStep.run_append_eq_some_iff.2 ⟨S', ColumnStep.run_append_eq_some_iff.2 ⟨S,
    ColumnStep.run_append_eq_some_iff.2 ⟨S, hrenames, hchanges⟩, hadditions⟩, hdrops⟩

end AreVersions

end Entity

/-- The script of an upgrade takes the columns of the earlier table to those of the entity, without
failing on the way, iff the upgrade is orderly. -/
theorem Registry.versionUpgrade_runs_iff {r : Registry} {old : EntitySpec} {name : String}
    {script : Script} {e previous : Entity} (hr : r.IsReachable) (hold : old.IsFinished)
    (hscript : r.versionUpgrade old name = .ok script) (he : r.get name = .ok e)
    (hp : Entity.ofSpec r.dialect old = .ok previous) (hkey : e.HasSameKey previous)
    (hcolumns : e.HasDistinctColumns) (hprevious : previous.HasDistinctColumns) :
    ColumnStep.run previous.columnSet script.columnSteps = some e.columnSet ↔
      e.IsOrderly previous r.dialect := by
  have hversions : e.AreVersions previous :=
    ⟨hr.markers_nodup (Registry.mem_of_get he), (Entity.isOfSpec hp).markers_nodup hold, hcolumns,
      hprevious, hkey⟩
  obtain ⟨steps, opening, closing, hsteps, hwhole, hstatements⟩ :=
    Registry.versionUpgrade_eq_ok he hp hscript
  have hcolumnSteps : script.columnSteps =
      (e.columnStatements previous r.dialect steps).filterMap Statement.columnStep? := by
    have hnone : ∀ ss : List Statement, (∀ s ∈ ss, s.isOnWhole = true) →
        ss.filterMap Statement.columnStep? = [] := fun ss hss =>
      List.filterMap_eq_nil_iff.2 fun s hs => Statement.columnStep?_of_isOnWhole (hss s hs)
    rw [List.forall_mem_append] at hwhole
    rw [Script.columnSteps, hstatements, List.filterMap_append, List.filterMap_append,
      hnone opening hwhole.1, hnone closing hwhole.2, List.nil_append, List.append_nil]
  rw [hcolumnSteps]
  exact ⟨hversions.isOrderly_of_run hsteps, hversions.run_of_isOrderly hsteps⟩

theorem Entity.hasSameKey_of_eq {e previous : Entity}
    (h : e.keyFields.map (fun f => (f.marker, f.column.caseless)) =
      previous.keyFields.map fun f => (f.marker, f.column.caseless)) : e.HasSameKey previous := by
  intro marker column
  have hmem := congrArg (fun l => (marker, column) ∈ l) h
  simpa [List.mem_map, Prod.ext_iff] using hmem

/-- A text that gets a new name runs. -/
theorem renamed_note_runs :
    (noteRegistry .hsqldb "body" "m1" true).IsReachable ∧ (noteSpec "text" "m1" true).IsFinished ∧
    ∃ script e previous,
      (noteRegistry .hsqldb "body" "m1" true).versionUpgrade (noteSpec "text" "m1" true) "Note" =
        .ok script ∧
      (noteRegistry .hsqldb "body" "m1" true).get "Note" = .ok e ∧
      Entity.ofSpec (noteRegistry .hsqldb "body" "m1" true).dialect (noteSpec "text" "m1" true) =
        .ok previous ∧
      e.HasSameKey previous ∧ e.HasDistinctColumns ∧ previous.HasDistinctColumns ∧
      ColumnStep.run previous.columnSet script.columnSteps = some e.columnSet := by
  have hr : (noteRegistry .hsqldb "body" "m1" true).IsReachable :=
    isReachable_noteRegistry (EntitySpec.isFinished_of_build (by decide))
  have hold : (noteSpec "text" "m1" true).IsFinished := EntitySpec.isFinished_of_build (by decide)
  have hscript : (noteRegistry .hsqldb "body" "m1" true).versionUpgrade (noteSpec "text" "m1" true)
    "Note" = .ok _ := rfl
  have he : (noteRegistry .hsqldb "body" "m1" true).get "Note" = .ok _ := rfl
  refine ⟨hr, hold, _, _, _, hscript, he, rfl, Entity.hasSameKey_of_eq (by decide), by decide,
    by decide, (Registry.versionUpgrade_runs_iff hr hold hscript he rfl
      (Entity.hasSameKey_of_eq (by decide)) (by decide) (by decide)).2 ?_⟩
  exact ⟨by decide, by decide, by decide, by decide, by decide⟩

/-- A text in place of another of its name does not: its column is added before the other one is
dropped. -/
theorem replaced_note_fails :
    (noteRegistry .hsqldb "text" "m2" true).IsReachable ∧ (noteSpec "text" "m1" true).IsFinished ∧
    ∃ script e previous,
      (noteRegistry .hsqldb "text" "m2" true).versionUpgrade (noteSpec "text" "m1" true) "Note" =
        .ok script ∧
      (noteRegistry .hsqldb "text" "m2" true).get "Note" = .ok e ∧
      Entity.ofSpec (noteRegistry .hsqldb "text" "m2" true).dialect (noteSpec "text" "m1" true) =
        .ok previous ∧
      e.HasSameKey previous ∧ e.HasDistinctColumns ∧ previous.HasDistinctColumns ∧
      ColumnStep.run previous.columnSet script.columnSteps = none := by
  have hr : (noteRegistry .hsqldb "text" "m2" true).IsReachable :=
    isReachable_noteRegistry (EntitySpec.isFinished_of_build (by decide))
  have hold : (noteSpec "text" "m1" true).IsFinished := EntitySpec.isFinished_of_build (by decide)
  exact ⟨hr, hold, _, _, _, rfl, rfl, rfl, Entity.hasSameKey_of_eq (by decide), by decide,
    by decide, by decide⟩

end SqlDialects
