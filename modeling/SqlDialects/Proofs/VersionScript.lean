import SqlDialects.Proofs.Entities
import SqlDialects.Upgrade.Version

/-!
# The script of a version upgrade, part by part

An upgrade from an earlier description pairs fields by marker. Its script has four parts between
what is done to the table and the view as wholes: new names, changes, additions and drops. This
module says which statements each part has, so that nothing later opens the planner again.

Results:
1. `Registry.versionUpgrade_eq_nil_or`, `Registry.versionUpgrade_eq_ok`: the parts of a script.
2. `Entity.fieldSteps_of_paired`, `Entity.fieldSteps_of_added`: the statements of one field;
   `Entity.columnStatements_eq_parts`: which fields each part comes from.
3. `Entity.convergeColumn_eq_ok`, `Entity.addColumn_eq_ok`: what changing and adding a column takes.
-/

namespace SqlDialects

/-! ## Statements and what they are on -/

/-- A name as catalogs compare it. -/
def Name.caseless (n : Name) : String := Text.asciiLower n.raw

theorem Name.caseless_eq_iff {a b : Name} :
    a.caseless = b.caseless ↔ Text.sameName a.raw b.raw = true := Text.sameName_iff.symm

namespace Statement

/-- Whether a statement is on a table or view as a whole. -/
def isOnWhole : Statement → Bool
  | .renameTable .. | .createView .. | .dropView .. => true
  | _ => false

/-- The column that a statement changes and leaves in its place. -/
def changedColumn? : Statement → Option Name
  | .fillNulls _ column _ => some column
  | .alterType t | .setDefault t _ | .dropDefault t | .setNullable t => some t.column
  | _ => none

end Statement

namespace Entity

/-! ## Paired fields -/

/-- Fields with the earlier ones of their markers, in the order of the fields. -/
def pairedFields (e previous : Entity) : List (Field × Field) :=
  e.upgradableFields.filterMap fun f => (previous.upgradableField? f.marker).map (·, f)

/-- Fields without an earlier one. -/
def addedFields (e previous : Entity) : List Field :=
  e.upgradableFields.filter fun f => (previous.upgradableField? f.marker).isNone

/-- Paired fields whose columns differ by more than case. -/
def renamedFields (e previous : Entity) : List (Field × Field) :=
  (e.pairedFields previous).filter fun p => !Text.sameName p.1.column.raw p.2.column.raw

theorem mem_upgradableFields {e : Entity} {f : Field} :
    f ∈ e.upgradableFields ↔ f ∈ e.tableFields ∧ f.primaryKey = false := by
  simp only [upgradableFields, List.mem_filter, Field.isUpgradable, mem_tableFields]
  grind

/-- Only a key has its values generated. -/
theorem isIdentity_of_upgradable {e : Entity} {f : Field} (hf : f ∈ e.upgradableFields) :
    f.isIdentity = false := by
  rw [Field.isIdentity, (mem_upgradableFields.1 hf).2, Bool.false_and]

theorem mem_of_upgradableField? {e : Entity} {marker : String} {f : Field}
    (h : e.upgradableField? marker = some f) : f ∈ e.upgradableFields := by
  obtain ⟨hfound, hup⟩ := Option.filter_eq_some_iff.1 h
  have hview : f.isViewOnly = false := by
    rw [Field.isUpgradable, Bool.and_eq_true, Bool.not_eq_true', Bool.not_eq_true'] at hup
    exact hup.2
  exact List.mem_filter.2 ⟨mem_tableFields.2 ⟨List.mem_of_find?_eq_some hfound, hview⟩, hup⟩

theorem upgradableField?_eq_some_iff {e : Entity} (h : (e.fields.map (·.marker)).Nodup)
    {marker : String} {f : Field} :
    e.upgradableField? marker = some f ↔ f ∈ e.upgradableFields ∧ f.marker = marker := by
  rw [upgradableField?, Option.filter_eq_some_iff, fieldOfMarker?_eq_some_iff h, upgradableFields,
    List.mem_filter, mem_tableFields, Field.isUpgradable]
  grind

theorem mem_pairedFields {e previous : Entity} {p : Field × Field} :
    p ∈ e.pairedFields previous ↔
      p.2 ∈ e.upgradableFields ∧ previous.upgradableField? p.2.marker = some p.1 := by
  obtain ⟨before, f⟩ := p
  simp only [pairedFields, List.mem_filterMap, Option.map_eq_some_iff, Prod.mk.injEq]
  constructor
  · rintro ⟨g, hg, b, hb, rfl, rfl⟩
    exact ⟨hg, hb⟩
  · rintro ⟨hf, hb⟩
    exact ⟨f, hf, before, hb, rfl, rfl⟩

theorem mem_renamedFields {e previous : Entity} {p : Field × Field} :
    p ∈ e.renamedFields previous ↔
      p ∈ e.pairedFields previous ∧ p.1.column.caseless ≠ p.2.column.caseless := by
  rw [renamedFields, List.mem_filter, ne_eq, Name.caseless_eq_iff]
  simp

theorem mem_addedFields {e previous : Entity} {f : Field} :
    f ∈ e.addedFields previous ↔
      f ∈ e.upgradableFields ∧ previous.upgradableField? f.marker = none := by
  simp [addedFields, Option.isNone_iff_eq_none]

theorem map_snd_pairedFields (e previous : Entity) :
    (e.pairedFields previous).map Prod.snd =
      e.upgradableFields.filter fun f => (previous.upgradableField? f.marker).isSome := by
  unfold pairedFields
  induction e.upgradableFields with
  | nil => rfl
  | cons f rest ih => cases hb : previous.upgradableField? f.marker <;> simp [hb, ← ih]

theorem perm_upgradableFields (e previous : Entity) :
    e.upgradableFields.Perm ((e.pairedFields previous).map Prod.snd ++ e.addedFields previous) := by
  have := List.filter_append_perm (fun f : Field => (previous.upgradableField? f.marker).isSome)
    e.upgradableFields
  rw [map_snd_pairedFields, addedFields]
  simpa only [Option.not_isSome] using this.symm

theorem perm_pairedFields (e previous : Entity) :
    (e.pairedFields previous).Perm (e.renamedFields previous ++ (e.pairedFields previous).filter
      fun p => Text.sameName p.1.column.raw p.2.column.raw) := by
  have := List.filter_append_perm (fun p : Field × Field =>
    !Text.sameName p.1.column.raw p.2.column.raw) (e.pairedFields previous)
  simpa only [renamedFields, Bool.not_not] using this.symm

theorem nodup_map_marker_upgradableFields {e : Entity} (h : (e.fields.map (·.marker)).Nodup) :
    (e.upgradableFields.map (·.marker)).Nodup :=
  h.sublist (List.Sublist.map _ (List.filter_sublist.trans List.filter_sublist))

/-- Each earlier field is paired with one field at most. -/
theorem nodup_map_fst_pairedFields {e previous : Entity} (h : (e.fields.map (·.marker)).Nodup)
    (hprevious : (previous.fields.map (·.marker)).Nodup) :
    ((e.pairedFields previous).map Prod.fst).Nodup := by
  have hmarkers : ((e.pairedFields previous).map Prod.fst).map (·.marker) =
      ((e.pairedFields previous).map Prod.snd).map (·.marker) := by
    rw [List.map_map, List.map_map]
    refine List.map_congr_left fun p hp => ?_
    exact ((upgradableField?_eq_some_iff hprevious).1 (mem_pairedFields.1 hp).2).2
  refine List.Nodup.of_map (·.marker) ?_
  rw [hmarkers, map_snd_pairedFields]
  exact (nodup_map_marker_upgradableFields h).sublist (List.Sublist.map _ List.filter_sublist)

/-- Earlier fields are paired or abandoned. -/
theorem perm_previous_upgradableFields {e previous : Entity}
    (h : (e.fields.map (·.marker)).Nodup) (hprevious : (previous.fields.map (·.marker)).Nodup) :
    previous.upgradableFields.Perm
      ((e.pairedFields previous).map Prod.fst ++ e.abandonedFields previous) := by
  have hpaired : ((e.pairedFields previous).map Prod.fst).Perm
      (previous.upgradableFields.filter fun f => (e.upgradableField? f.marker).isSome) := by
    -- Neither side has a field twice, so it is enough that they have the same ones.
    refine (List.perm_ext_iff_of_nodup (nodup_map_fst_pairedFields h hprevious)
      ((nodup_map_marker_upgradableFields hprevious).of_map.filter _)).2 fun before => ?_
    rw [List.mem_map, List.mem_filter, Option.isSome_iff_exists]
    constructor
    · rintro ⟨p, hp, rfl⟩
      obtain ⟨hf, hb⟩ := mem_pairedFields.1 hp
      obtain ⟨hbefore, hm⟩ := (upgradableField?_eq_some_iff hprevious).1 hb
      exact ⟨hbefore, p.2, (upgradableField?_eq_some_iff h).2 ⟨hf, hm.symm⟩⟩
    · rintro ⟨hbefore, f, hf⟩
      obtain ⟨hf, hm⟩ := (upgradableField?_eq_some_iff h).1 hf
      exact ⟨(before, f), mem_pairedFields.2 ⟨hf,
        (upgradableField?_eq_some_iff hprevious).2 ⟨hbefore, hm.symm⟩⟩, rfl⟩
  have hsplit := List.filter_append_perm (fun f : Field => (e.upgradableField? f.marker).isSome)
    previous.upgradableFields
  simp only [Option.not_isSome] at hsplit
  exact hsplit.symm.trans (hpaired.symm.append_right _)

/-! ## Changing and adding a column -/

/-- A column is filled, then gets its type, its default and its nullability. -/
theorem convergeColumn_eq_ok {e : Entity} {d : Dialect} {f : Field} {observed : CatalogColumn}
    {statements : List Statement} (h : e.convergeColumn d f observed = .ok statements) :
    ((f.difference d observed).isAny = false ∧ statements = []) ∨
      ∃ hadDefault fill, e.fillStep d f (f.difference d observed) = .ok fill ∧
        statements = fill
          ++ (if (f.difference d observed).typeChange then
              [.alterType { e.target f with hadDefault }] else [])
          ++ defaultStep d f { e.target f with hadDefault } (f.difference d observed)
          ++ (if (f.difference d observed).nullableChange &&
                !((f.difference d observed).typeChange && d.ddl.alterTypeStatesNull) then
              [.setNullable { e.target f with hadDefault }] else []) := by
  simp only [convergeColumn] at h
  split at h
  · next hany =>
    cases h
    exact .inl ⟨by simpa using hany, rfl⟩
  · -- Whether there was a default only words the statements, so it is left open here.
    refine .inr ?_
    cases hchange : (f.difference d observed).typeChange with
    | true =>
      simp only [hchange, if_true] at h ⊢
      obtain ⟨⟨⟩, _, h⟩ := bind_eq_ok_iff.1 h
      obtain ⟨fill, hfill, h⟩ := bind_eq_ok_iff.1 h
      cases h
      exact ⟨_, fill, hfill, rfl⟩
    | false =>
      simp only [hchange, Bool.false_eq_true, if_false] at h ⊢
      obtain ⟨fill, hfill, h⟩ := bind_eq_ok_iff.1 h
      cases h
      exact ⟨_, fill, hfill, rfl⟩

theorem fillStep_eq_ok {e : Entity} {d : Dialect} {f : Field} {diff : ColumnDifference}
    {statements : List Statement} (h : e.fillStep d f diff = .ok statements) :
    ((diff.nullableChange && !f.nullable) = true ∧
        ∃ literal, (d.columnRule f.columnType).fillLiteral f.defaultValue = .ok literal ∧
          statements = [.fillNulls e.table f.column literal]) ∨
      ((diff.nullableChange && !f.nullable) = false ∧ statements = []) := by
  unfold fillStep at h
  split at h
  · next hcond =>
    obtain ⟨literal, hl, h⟩ := bind_eq_ok_iff.1 h
    cases h
    exact .inl ⟨hcond, literal, hl, rfl⟩
  · next hcond =>
    cases h
    exact .inr ⟨by simpa using hcond, rfl⟩

theorem mem_defaultStep {d : Dialect} {f : Field} {t : ColumnChange} {diff : ColumnDifference}
    {s : Statement} (h : s ∈ defaultStep d f t diff) :
    s = .dropDefault t ∨ ∃ literal, f.defaultLiteral = some literal ∧ s = .setDefault t literal := by
  unfold defaultStep at h
  split at h
  · cases hliteral : f.defaultLiteral with
    | none =>
      rw [hliteral] at h
      exact .inl (List.mem_singleton.1 h)
    | some literal =>
      rw [hliteral] at h
      have hset : s = .dropDefault t ∨ s = .setDefault t literal := by
        simp only [DdlStyle.replaceDefault] at h
        grind
      rcases hset with rfl | rfl
      · exact .inl rfl
      · exact .inr ⟨literal, rfl, rfl⟩
  · cases h

/-- Changing a column never moves or drops it. -/
theorem changedColumn?_of_mem_convergeColumn {e : Entity} {d : Dialect} {f : Field}
    {observed : CatalogColumn} {statements : List Statement}
    (h : e.convergeColumn d f observed = .ok statements) {s : Statement} (hs : s ∈ statements) :
    s.changedColumn? = some f.column := by
  rcases convergeColumn_eq_ok h with ⟨_, rfl⟩ | ⟨hadDefault, fill, hfill, rfl⟩
  · cases hs
  simp only [List.mem_append] at hs
  rcases hs with ((hs | hs) | hs) | hs
  · rcases fillStep_eq_ok hfill with ⟨_, literal, _, rfl⟩ | ⟨_, rfl⟩
    · rw [List.mem_singleton.1 hs]
      rfl
    · cases hs
  · split at hs
    · rw [List.mem_singleton.1 hs]
      rfl
    · cases hs
  · rcases mem_defaultStep hs with rfl | ⟨literal, _, rfl⟩
    · rfl
    · rfl
  · split at hs
    · rw [List.mem_singleton.1 hs]
      rfl
    · cases hs

/-- A column is added as it is described, or else without NOT NULL, filled and tightened. -/
theorem addColumn_eq_ok {e : Entity} {d : Dialect} {name : String} {statements : List Statement}
    (h : e.addColumn d name = .ok statements) :
    ∃ f, e.tableField name = .ok f ∧
      (((f.nullable || f.defaultLiteral.isSome) = true ∧
          statements = [.addColumn (e.definition f)]) ∨
        ((f.nullable || f.defaultLiteral.isSome) = false ∧ ∃ literal,
          (d.columnRule f.columnType).fillLiteral none = .ok literal ∧
            statements = [.addColumn (e.relaxedDefinition f), .fillNulls e.table f.column literal,
              .setNullable (e.target f)])) := by
  obtain ⟨f, hf, h⟩ := bind_eq_ok_iff.1 h
  refine ⟨f, hf, ?_⟩
  split at h
  · next hcond =>
    cases h
    exact .inl ⟨hcond, rfl⟩
  · next hcond =>
    obtain ⟨literal, hliteral, h⟩ := bind_eq_ok_iff.1 h
    cases h
    exact .inr ⟨by simpa using hcond, literal, hliteral, rfl⟩

/-! ## The statements of one field -/

/-- An earlier field's column gets its new name, if it has one, and is then changed. -/
theorem fieldSteps_of_paired {e previous : Entity} {d : Dialect} {f before : Field}
    {steps : FieldSteps} (hb : previous.upgradableField? f.marker = some before)
    (h : e.fieldSteps previous d f = .ok steps) :
    ∃ g, e.tableField f.name = .ok g ∧
      steps.renames = (if Text.sameName before.column.raw f.column.raw then [] else
        [.renameColumn { e.target g with column := d.naming.name before.column.raw } g.column]) ∧
      e.convergeColumn d g (before.asReported d) = .ok steps.alterations ∧
      steps.additions = [] := by
  simp only [fieldSteps, hb] at h
  split at h
  · next hsame =>
    obtain ⟨_, hr, h⟩ := bind_eq_ok_iff.1 h
    obtain ⟨alterations, ha, h⟩ := bind_eq_ok_iff.1 h
    cases hr
    cases h
    obtain ⟨g, hg, ha⟩ := bind_eq_ok_iff.1 ha
    exact ⟨g, hg, by simp [hsame], ha, rfl⟩
  · next hsame =>
    obtain ⟨rename, hr, h⟩ := bind_eq_ok_iff.1 h
    obtain ⟨_, hrs, h⟩ := bind_eq_ok_iff.1 h
    obtain ⟨alterations, ha, h⟩ := bind_eq_ok_iff.1 h
    cases hrs
    cases h
    obtain ⟨g, hg, ha⟩ := bind_eq_ok_iff.1 ha
    obtain ⟨g', hg', hr⟩ := bind_eq_ok_iff.1 hr
    cases hg.symm.trans hg'
    cases hr
    exact ⟨g, hg, by simp [hsame], ha, rfl⟩

/-- A field without an earlier one only adds its column. -/
theorem fieldSteps_of_added {e previous : Entity} {d : Dialect} {f : Field} {steps : FieldSteps}
    (hb : previous.upgradableField? f.marker = none)
    (h : e.fieldSteps previous d f = .ok steps) :
    steps.renames = [] ∧ steps.alterations = [] ∧ e.addColumn d f.name = .ok steps.additions := by
  simp only [fieldSteps, hb] at h
  obtain ⟨additions, ha, h⟩ := bind_eq_ok_iff.1 h
  cases h
  exact ⟨rfl, rfl, ha⟩

instance : Inhabited FieldSteps := ⟨{}⟩

/-- The statements on columns, given those of each field. -/
def columnStatements (e previous : Entity) (d : Dialect) (steps : Field → FieldSteps) :
    List Statement :=
  e.upgradableFields.flatMap (fun f => (steps f).renames)
    ++ e.upgradableFields.flatMap (fun f => (steps f).alterations)
    ++ e.upgradableFields.flatMap (fun f => (steps f).additions)
    ++ (e.abandonedFields previous).map fun f => e.dropColumn d f.column.raw

/-- New names come from renamed fields, changes from paired ones, additions from added ones, and
drops from abandoned ones. -/
theorem columnStatements_eq_parts {e previous : Entity} {d : Dialect} {steps : Field → FieldSteps}
    (h : ∀ f ∈ e.upgradableFields, e.fieldSteps previous d f = .ok (steps f)) :
    e.columnStatements previous d steps =
      (e.renamedFields previous).flatMap (fun p => (steps p.2).renames)
        ++ (e.pairedFields previous).flatMap (fun p => (steps p.2).alterations)
        ++ (e.addedFields previous).flatMap (fun f => (steps f).additions)
        ++ (e.abandonedFields previous).map fun f => e.dropColumn d f.column.raw := by
  have hpaired : ∀ k : Field → List Statement,
      (∀ f ∈ e.upgradableFields, previous.upgradableField? f.marker = none → k f = []) →
      (e.pairedFields previous).flatMap (fun p => k p.2) = e.upgradableFields.flatMap k := by
    intro k hk
    rw [← List.flatMap_map, map_snd_pairedFields]
    refine flatMap_filter_of_nil fun f hf hnone => hk f hf ?_
    rwa [Option.isSome_eq_false_iff, Option.isNone_iff_eq_none] at hnone
  have hrenames : (e.renamedFields previous).flatMap (fun p => (steps p.2).renames) =
      e.upgradableFields.flatMap fun f => (steps f).renames := by
    rw [← hpaired _ fun f hf hb => (fieldSteps_of_added hb (h f hf)).1]
    refine flatMap_filter_of_nil fun p hp hsame => ?_
    obtain ⟨hf, hb⟩ := mem_pairedFields.1 hp
    obtain ⟨g, -, hnames, -, -⟩ := fieldSteps_of_paired hb (h p.2 hf)
    rw [Bool.not_eq_false'] at hsame
    rw [hnames, if_pos hsame]
  have hadditions : (e.addedFields previous).flatMap (fun f => (steps f).additions) =
      e.upgradableFields.flatMap fun f => (steps f).additions := by
    refine flatMap_filter_of_nil fun f hf hsome => ?_
    rw [Option.isNone_eq_false_iff] at hsome
    obtain ⟨before, hb⟩ := Option.isSome_iff_exists.1 hsome
    obtain ⟨g, -, -, -, hnone⟩ := fieldSteps_of_paired hb (h f hf)
    exact hnone
  rw [hrenames, hadditions, hpaired _ fun f hf hb => (fieldSteps_of_added hb (h f hf)).2.1]
  rfl

/-- The new name of the table, if it has one. -/
def tableRename (e previous : Entity) (d : Dialect) : List Statement :=
  if Text.sameName previous.table.raw e.table.raw then [] else
    [previous.renameTable d e.table.raw]

theorem versionStatements_eq_ok {e previous : Entity} {d : Dialect} {statements : List Statement}
    (h : e.versionStatements previous d = .ok statements) :
    ∃ steps : Field → FieldSteps,
      (∀ f ∈ e.upgradableFields, e.fieldSteps previous d f = .ok (steps f)) ∧
      statements = e.tableRename previous d ++ e.columnStatements previous d steps := by
  obtain ⟨all, hall, h⟩ := bind_eq_ok_iff.1 h
  cases h
  obtain ⟨hsteps, rfl⟩ := mapM_eq_ok hall
  refine ⟨_, hsteps, ?_⟩
  simp only [tableRename, columnStatements, List.flatMap_map, List.append_assoc]

theorem isOnWhole_of_tableRename {e previous : Entity} {d : Dialect} (s : Statement)
    (h : s ∈ e.tableRename previous d) : s.isOnWhole = true := by
  unfold tableRename at h
  split at h
  · cases h
  · rw [List.mem_singleton.1 h]
    rfl

theorem isOnWhole_of_dropView {e : Entity} (s : Statement) (h : s ∈ e.dropView.toList) :
    s.isOnWhole = true := by
  obtain ⟨view, _, rfl⟩ := Option.map_eq_some_iff.1 (Option.mem_toList.1 h)
  rfl

/-- Only an entity with a view creates one. -/
theorem createView_cases {e : Entity} {r : Registry} {create : Option Statement}
    (h : e.createView r = .ok create) :
    (e.view = none ∧ create = none) ∨
      ∃ view parts, e.view = some view ∧
        e.viewFields.foldlM (e.addViewField r)
          { columns := e.tableFields.map fun f => ViewColumn.mk 1 f.column none } = .ok parts ∧
        create = some (.createView view e.table parts.columns (parts.joins.map Prod.snd)) := by
  unfold createView at h
  split at h
  · next hview =>
    cases h
    exact .inl ⟨hview, rfl⟩
  · next view hview =>
    obtain ⟨parts, hparts, h⟩ := bind_eq_ok_iff.1 h
    cases h
    exact .inr ⟨view, parts, hview, hparts, rfl⟩

theorem isOnWhole_of_createView {e : Entity} {r : Registry} {create : Option Statement}
    (h : e.createView r = .ok create) (s : Statement) (hs : s ∈ create.toList) :
    s.isOnWhole = true := by
  obtain ⟨-, rfl⟩ | ⟨view, parts, -, -, rfl⟩ := createView_cases h
  · cases hs
  · rw [List.mem_singleton.1 hs]
    rfl

end Entity

namespace Registry

variable {r : Registry} {old : EntitySpec} {name : String} {script : Script} {e previous : Entity}

/-- A script is empty, or the statements on the table stand between the view that is dropped and the
one that is created. -/
theorem versionUpgrade_eq_nil_or (he : r.get name = .ok e)
    (hp : Entity.ofSpec r.dialect old = .ok previous)
    (h : r.versionUpgrade old name = .ok script) :
    ∃ statements, e.versionStatements previous r.dialect = .ok statements ∧
      ((statements = [] ∧ script.statements = []) ∨
        (statements ≠ [] ∧ ∃ create, e.createView r = .ok create ∧
          script.statements = previous.dropView.toList ++ statements ++ create.toList)) := by
  obtain ⟨e', he', h⟩ := bind_eq_ok_iff.1 h
  cases he.symm.trans he'
  obtain ⟨previous', hp', h⟩ := bind_eq_ok_iff.1 h
  cases hp.symm.trans hp'
  obtain ⟨statements, hs, h⟩ := bind_eq_ok_iff.1 h
  refine ⟨statements, hs, ?_⟩
  split at h
  · next hempty =>
    cases h
    exact .inl ⟨List.isEmpty_iff.1 hempty, rfl⟩
  · next hfull =>
    obtain ⟨create, hcreate, h⟩ := bind_eq_ok_iff.1 h
    cases h
    exact .inr ⟨fun hnil => hfull (List.isEmpty_iff.2 hnil), create, hcreate, rfl⟩

/-- The script of an upgrade: the statements on columns between those on wholes. -/
theorem versionUpgrade_eq_ok (he : r.get name = .ok e)
    (hp : Entity.ofSpec r.dialect old = .ok previous)
    (h : r.versionUpgrade old name = .ok script) :
    ∃ (steps : Field → Entity.FieldSteps) (opening closing : List Statement),
      (∀ f ∈ e.upgradableFields, e.fieldSteps previous r.dialect f = .ok (steps f)) ∧
      (∀ s ∈ opening ++ closing, s.isOnWhole = true) ∧
      script.statements =
        opening ++ e.columnStatements previous r.dialect steps ++ closing := by
  obtain ⟨statements, hs, hscript⟩ := versionUpgrade_eq_nil_or he hp h
  obtain ⟨steps, hsteps, rfl⟩ := Entity.versionStatements_eq_ok hs
  rcases hscript with ⟨hempty, hscript⟩ | ⟨_, create, hcreate, hscript⟩
  · exact ⟨steps, [], [], hsteps, by simp, by simp [hscript, (List.append_eq_nil_iff.1 hempty).2]⟩
  · refine ⟨steps, previous.dropView.toList ++ e.tableRename previous r.dialect, create.toList,
      hsteps, ?_, ?_⟩
    · simp only [List.mem_append, or_imp, forall_and]
      exact ⟨⟨Entity.isOnWhole_of_dropView, Entity.isOnWhole_of_tableRename⟩,
        Entity.isOnWhole_of_createView hcreate⟩
    · simp only [hscript, List.append_assoc]

end Registry

/-! ## Notes -/

/-- A note with a key and a text, which has a marker of its own. -/
def noteSpec (text marker : String) (nullable : Bool) : EntitySpec :=
  { EntitySpec.named "Note" with
    fields := [(FieldSpec.named "id" .long).asPrimaryKey,
      { FieldSpec.named text .string with nullable, givenMarker := some marker }] }

/-- A registry of notes alone. -/
def noteRegistry (db : Database) (text marker : String) (nullable : Bool) : Registry :=
  match Registry.register ⟨Dialect.builtin db, []⟩ (noteSpec text marker nullable) with
  | .ok (_, r) => r
  | .error _ => ⟨Dialect.builtin db, []⟩

theorem isReachable_noteRegistry {db : Database} {text marker : String} {nullable : Bool}
    (h : (noteSpec text marker nullable).IsFinished) :
    (noteRegistry db text marker nullable).IsReachable := by
  unfold noteRegistry
  split
  · next hr => exact .register (.empty _) h hr
  · exact .empty _

end SqlDialects
