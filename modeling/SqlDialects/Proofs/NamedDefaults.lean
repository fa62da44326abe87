import SqlDialects.Proofs.ColumnConvergence
import SqlDialects.Proofs.ColumnSet
import SqlDialects.Proofs.DefaultReading
import SqlDialects.Proofs.DefaultStep
import SqlDialects.Proofs.Reported

/-!
# The names of defaults over a version upgrade

In SQL Server the default of a column is a constraint with a name, made of the names of table and
column when the default is given. New names of tables and columns leave it as it is. A version
upgrade makes the name up again from the new names wherever it replaces, removes or gives a default,
and so may look for a constraint that has the old name still.

Results:
1. `Entity.run_createTable`: the constraints that a table has at first.
2. `Registry.defaultSteps_versionUpgrade`: what an upgrade does to constraints, field by field.
3. `Registry.versionUpgrade_runsOnDefaults_iff`: when it finds every constraint that it drops and
   every name free that it gives; `Entity.findsDefaults_of_sameNames`: names that stay are found.
-/

namespace SqlDialects

/-! ## Defaults of fields -/

/-- A field without a literal has no default. -/
theorem Field.IsOfSpec.defaultValue_eq_none {d : Dialect} {spec : FieldSpec} {f : Field}
    (h : Field.IsOfSpec d spec f) (hnone : f.defaultLiteral = none) : f.defaultValue = none := by
  have hrendered := h.defaultLiteral
  rw [hnone] at hrendered
  cases hraw : f.defaultValue with
  | none => rfl
  | some raw =>
    rw [hraw] at hrendered
    obtain ⟨literal, -, hsome⟩ := bind_eq_ok_iff.1 hrendered
    cases hsome

/-- A default of a field shows in what the field declares. -/
theorem Field.IsOfSpec.isAllBlank {db : Database} {spec : FieldSpec} {f : Field}
    (h : Field.IsOfSpec (Dialect.builtin db) spec f) {literal : String}
    (hliteral : f.defaultLiteral = some literal) : Text.isAllBlank literal = false := by
  have hrendered := h.defaultLiteral
  rw [hliteral] at hrendered
  cases hraw : f.defaultValue with
  | none =>
    rw [hraw] at hrendered
    cases hrendered
  | some raw =>
    rw [hraw] at hrendered
    obtain ⟨rendered, hrule, hsome⟩ := bind_eq_ok_iff.1 hrendered
    cases hsome
    exact Dialect.isAllBlank_rendered_builtin hrule

/-! ## The steps of a script -/

/-- The constraint that a new column gets for its default: a generated key has none. -/
def ColumnDefinition.defaultName? (c : ColumnDefinition) : Option String :=
  if c.isIdentity then none
  else c.target.defaultLiteral.map fun _ => defaultConstraintName c.target

/-- The steps of a part of a new table. -/
def TableItem.defaultSteps : TableItem → List DefaultStep
  | .column c => c.defaultName?.toList.map .add
  | .unique .. | .index .. => []

/-- The steps of a statement in SQL Server, where constraints keep their names when tables and
columns get new ones. -/
def Statement.defaultSteps : Statement → List DefaultStep
  | .createTable _ items => items.flatMap TableItem.defaultSteps
  | .addColumn c => c.defaultName?.toList.map .add
  | .setDefault t _ => [.add (defaultConstraintName t)]
  | .dropDefault t => [.drop (defaultConstraintName t)]
  | _ => []

/-- The steps of a script on the constraints that hold defaults, in order. -/
def Script.defaultSteps (s : Script) : List DefaultStep := s.statements.flatMap (·.defaultSteps)

theorem Statement.defaultSteps_ite {s : Statement} {c : Prop} [Decidable c]
    (hs : s.defaultSteps = []) : (if c then [s] else []).flatMap (·.defaultSteps) = [] := by
  split
  · rw [List.flatMap_singleton, hs]
  · rfl

theorem Statement.defaultSteps_of_isOnWhole {s : Statement} (h : s.isOnWhole = true) :
    s.defaultSteps = [] := by
  cases s <;> first | rfl | cases h

namespace Entity

/-- The constraint that the default of a field's column gets. -/
def defaultName (e : Entity) (f : Field) : String := defaultConstraintName (e.target f)

/-- Fields whose columns have a default: a generated key has none. -/
def defaultedFields (e : Entity) : List Field :=
  e.tableFields.filter fun f => !f.isIdentity && f.defaultLiteral.isSome

/-- Constraints that the table of an entity is created with for its defaults. -/
def namedDefaults (e : Entity) : Finset String := (e.defaultedFields.map e.defaultName).toFinset

variable {e previous : Entity} {d : Dialect} {f : Field} {statements : List Statement}

theorem defaultName?_definition : (e.definition f).defaultName? =
    (Option.guard (fun f => !f.isIdentity && f.defaultLiteral.isSome) f).map e.defaultName := by
  show (if f.isIdentity = true then none else f.defaultLiteral.map fun _ => e.defaultName f) = _
  rw [Option.guard]
  cases f.isIdentity with
  | true => rfl
  | false =>
    cases f.defaultLiteral with
    | none => rfl
    | some literal => rfl

/-- The names that new columns get are those of the fields with a default. -/
theorem filterMap_defaultName? (e : Entity) :
    e.tableFields.filterMap (fun f => (e.definition f).defaultName?) =
      e.defaultedFields.map e.defaultName := by
  rw [defaultedFields, ← List.filterMap_eq_filter, List.map_filterMap]
  exact List.filterMap_congr fun f _ => defaultName?_definition

theorem mem_namedDefaults {name : String} :
    name ∈ e.namedDefaults ↔ ∃ f ∈ e.tableFields, f.isIdentity = false ∧
      f.defaultLiteral.isSome = true ∧ e.defaultName f = name := by
  simp only [namedDefaults, defaultedFields, List.mem_toFinset, List.mem_map, List.mem_filter,
    Bool.and_eq_true, Bool.not_eq_true', and_assoc]

/-- In tables of one name, constraints of defaults are told apart by their columns. -/
theorem defaultName_eq_iff (htable : Text.sameName e.table.raw previous.table.raw = true)
    {g : Field} :
    e.defaultName f = previous.defaultName g ↔ f.column.caseless = g.column.caseless := by
  unfold defaultName defaultConstraintName target Name.caseless
  simp only [Text.asciiUpper_eq_iff, Text.sameName_iff, Text.asciiLower_append,
    Text.sameName_iff.1 htable, String.append_right_inj]

/-- Columns that differ by more than case have constraints of their own. -/
theorem nodup_map_defaultName {fields : List Field} (hcolumns : (columnNames fields).Nodup) :
    (fields.map e.defaultName).Nodup := by
  unfold columnNames at hcolumns
  rw [List.Nodup, List.pairwise_map] at hcolumns ⊢
  refine hcolumns.imp fun hne he => hne ?_
  exact (defaultName_eq_iff (Text.sameName_refl e.table.raw)).1 he

/-! ### Creating the table -/

theorem defaultSteps_of_mem_inlineItems {items : List TableItem} (h : e.inlineItems d = .ok items) :
    ∀ item ∈ items, item.defaultSteps = [] := by
  obtain ⟨uniques, indexes, huniques, hindexes, rfl⟩ := inlineItems_eq_ok h
  refine List.forall_mem_append.2 ⟨forall_of_mapM (fun u _ item hitem => ?_) huniques,
    forall_of_mapM (fun i _ item hitem => ?_) hindexes⟩
  · obtain ⟨columns, -, hitem⟩ := bind_eq_ok_iff.1 hitem
    cases hitem
    rfl
  · obtain ⟨columns, -, hitem⟩ := bind_eq_ok_iff.1 hitem
    cases hitem
    rfl

/-- Only the columns of a new table give steps. -/
theorem defaultSteps_of_createTable (h : e.createTable d = .ok statements) :
    statements.flatMap (·.defaultSteps) = (e.defaultedFields.map e.defaultName).map .add := by
  obtain ⟨inline, support, hinline, rfl, hsupport⟩ := createTable_eq_ok h
  have hnone : support.flatMap (·.defaultSteps) = [] := List.flatMap_eq_nil_iff.2 fun s hs => by
    obtain rfl | ⟨_, rfl⟩ := hsupport s hs
    · rfl
    · rfl
  rw [List.flatMap_cons, hnone, List.append_nil]
  show (_ ++ inline).flatMap TableItem.defaultSteps = _
  rw [List.flatMap_append, List.flatMap_eq_nil_iff.2 (defaultSteps_of_mem_inlineItems hinline),
    List.append_nil, List.flatMap_map, ← filterMap_defaultName?, List.filterMap_eq_flatMap_toList,
    List.map_flatMap]
  rfl

/-- Creating the table of an entity leads to the constraints that are named here. -/
theorem run_createTable (h : e.createTable d = .ok statements) (hcolumns : e.HasDistinctColumns) :
    DefaultStep.run ∅ (statements.flatMap (·.defaultSteps)) = some e.namedDefaults := by
  have hnodup : (e.defaultedFields.map e.defaultName).Nodup :=
    (nodup_map_defaultName hcolumns).sublist (List.Sublist.map _ List.filter_sublist)
  rw [defaultSteps_of_createTable h, DefaultStep.run_adds hnodup fun n _ => Finset.notMem_empty n,
    Finset.empty_union]
  rfl

/-! ### Changing and adding columns -/

/-- What an upgrade does to the default of a column that was there. -/
def changedDefault (e : Entity) (d : Dialect) (p : Field × Field) : DefaultChange :=
  let changes := (p.2.difference d (p.1.asReported d)).defaultChange
  { name := e.defaultName p.2
    had := changes && p.1.defaultLiteral.isSome
    has := changes && p.2.defaultLiteral.isSome }

/-- What it does to the default of a column that it adds. -/
def addedDefault (e : Entity) (f : Field) : DefaultChange :=
  { name := e.defaultName f, had := false, has := f.defaultLiteral.isSome }

/-- What an upgrade does to defaults: changes come before additions. -/
def defaultChanges (e previous : Entity) (d : Dialect) : List DefaultChange :=
  (e.pairedFields previous).map (e.changedDefault d) ++ (e.addedFields previous).map e.addedDefault

theorem defaultSteps_of_fillStep {diff : ColumnDifference} {fill : List Statement}
    (h : e.fillStep d f diff = .ok fill) : fill.flatMap (·.defaultSteps) = [] := by
  rcases fillStep_eq_ok h with ⟨-, literal, -, rfl⟩ | ⟨-, rfl⟩
  · rfl
  · rfl

/-- The default of a column is dropped where it has one, and added where the field has one. -/
theorem defaultSteps_of_defaultStep {t : ColumnChange} {diff : ColumnDifference}
    (hddl : d.ddl = .mssql)
    (hhad : diff.defaultChange = true → f.defaultLiteral = none → t.hadDefault = true) :
    (defaultStep d f t diff).flatMap (·.defaultSteps) = DefaultChange.steps
      { name := defaultConstraintName t
        had := diff.defaultChange && t.hadDefault
        has := diff.defaultChange && f.defaultLiteral.isSome } := by
  unfold defaultStep
  cases hchange : diff.defaultChange with
  | false => rfl
  | true =>
    cases hliteral : f.defaultLiteral with
    | none =>
      rw [hhad hchange hliteral]
      rfl
    | some literal =>
      rw [hddl]
      show (if t.hadDefault = true then [Statement.dropDefault t, .setDefault t literal]
        else [.setDefault t literal]).flatMap (·.defaultSteps) = _
      cases t.hadDefault with
      | false => rfl
      | true => rfl

/-- A default that goes was there. -/
theorem isSome_of_defaultChange {before : Field}
    (hset : f.defaultLiteral = none → f.defaultValue = none)
    (hchange : (f.difference d (before.asReported d)).defaultChange = true)
    (hnone : f.defaultLiteral = none) : before.defaultLiteral.isSome = true := by
  cases hbefore : before.defaultLiteral with
  | some literal => rfl
  | none =>
    have hmatch : d.defaults.isMatch before.defaultLiteral f.defaultValue
        (d.columnRule f.columnType) = true := by
      rw [hbefore, hset hnone]
      rfl
    have hcompared : (f.difference d (before.asReported d)).defaultChange =
        (!f.isIdentity && !d.defaults.isMatch before.defaultLiteral f.defaultValue
          (d.columnRule f.columnType)) := rfl
    rw [hcompared, hmatch, Bool.not_true, Bool.and_false] at hchange
    cases hchange

/-- Of the statements that change a column, those on its default give steps. -/
theorem defaultSteps_of_convergeColumn {before : Field} (hddl : d.ddl = .mssql)
    (hblank : ∀ literal, before.defaultLiteral = some literal → Text.isAllBlank literal = false)
    (hset : f.defaultLiteral = none → f.defaultValue = none)
    (h : e.convergeColumn d f (before.asReported d) = .ok statements) :
    statements.flatMap (·.defaultSteps) = (e.changedDefault d (before, f)).steps := by
  have hhad : (e.changeOf f (before.asReported d)).hadDefault = before.defaultLiteral.isSome := by
    unfold changeOf Field.asReported
    cases hbefore : before.defaultLiteral with
    | none => rfl
    | some literal =>
      show (!Text.isAllBlank literal) = true
      rw [hblank literal hbefore]
      rfl
  obtain ⟨fill, hfill, rfl⟩ := convergeColumn_eq_parts h
  have hdefault : (defaultStep d f (e.changeOf f (before.asReported d))
      (f.difference d (before.asReported d))).flatMap (·.defaultSteps) =
        (e.changedDefault d (before, f)).steps := by
    rw [defaultSteps_of_defaultStep hddl fun hchange hnone =>
      hhad.trans (isSome_of_defaultChange hset hchange hnone), hhad]
    rfl
  rw [List.flatMap_append, List.flatMap_append, List.flatMap_append, defaultSteps_of_fillStep hfill,
    Statement.defaultSteps_ite rfl, Statement.defaultSteps_ite rfl, hdefault, List.nil_append,
    List.append_nil, List.nil_append]

/-- A column that is added gets a default exactly if its field has one. -/
theorem defaultSteps_of_addColumn (hidentity : f.isIdentity = false)
    (hf : e.tableField f.name = .ok f) (h : e.addColumn d f.name = .ok statements) :
    statements.flatMap (·.defaultSteps) = (e.addedDefault f).steps := by
  obtain ⟨g, hg, hstatements⟩ := addColumn_eq_ok h
  cases hf.symm.trans hg
  have hadd : ((Statement.addColumn (e.definition f)).defaultSteps) = (e.addedDefault f).steps := by
    show (e.definition f).defaultName?.toList.map DefaultStep.add = _
    rw [defaultName?_definition, Option.guard, hidentity, addedDefault]
    cases f.defaultLiteral with
    | none => rfl
    | some literal => rfl
  rcases hstatements with ⟨-, rfl⟩ | ⟨hnone, literal, -, rfl⟩
  · rw [List.flatMap_singleton, hadd]
  · -- It is added without a default, and its field has none.
    rw [Bool.or_eq_false_iff, Option.isSome_eq_false_iff, Option.isNone_iff_eq_none] at hnone
    rw [addedDefault, hnone.2]
    rfl

/-! ### The whole of an upgrade -/

variable {steps : Field → FieldSteps}

/-- The steps of an upgrade are those of its changes of defaults: new names and drops take none. -/
theorem defaultSteps_columnStatements
    (h : ∀ f ∈ e.upgradableFields, e.fieldSteps previous d f = .ok (steps f))
    (hnames : (e.fields.map (·.name)).Nodup) (hddl : d.ddl = .mssql)
    (hblank : ∀ before ∈ previous.upgradableFields, ∀ literal,
      before.defaultLiteral = some literal → Text.isAllBlank literal = false)
    (hset : ∀ f ∈ e.upgradableFields, f.defaultLiteral = none → f.defaultValue = none) :
    (e.columnStatements previous d steps).flatMap (·.defaultSteps) =
      (e.defaultChanges previous d).flatMap (·.steps) := by
  have hfound : ∀ f ∈ e.upgradableFields, e.tableField f.name = .ok f := fun f hf =>
    tableField_of_mem hnames (mem_upgradableFields.1 hf).1
  have hrenames : ((e.renamedFields previous).flatMap fun p => (steps p.2).renames).flatMap
      (·.defaultSteps) = [] := by
    rw [List.flatMap_assoc]
    refine List.flatMap_eq_nil_iff.2 fun p hp => ?_
    obtain ⟨hf, hb⟩ := mem_pairedFields.1 (mem_renamedFields.1 hp).1
    obtain ⟨g, -, hstatements, -, -⟩ := fieldSteps_of_paired hb (h p.2 hf)
    rw [hstatements]
    split
    · rfl
    · rfl
  have halterations : ((e.pairedFields previous).flatMap fun p => (steps p.2).alterations).flatMap
      (·.defaultSteps) =
        ((e.pairedFields previous).map (e.changedDefault d)).flatMap (·.steps) := by
    rw [List.flatMap_assoc, List.flatMap_map]
    refine List.flatMap_congr fun p hp => ?_
    obtain ⟨hf, hb⟩ := mem_pairedFields.1 hp
    obtain ⟨g, hg, -, halter, -⟩ := fieldSteps_of_paired hb (h p.2 hf)
    cases (hfound p.2 hf).symm.trans hg
    exact defaultSteps_of_convergeColumn hddl (hblank p.1 (mem_of_upgradableField? hb))
      (hset p.2 hf) halter
  have hadditions : ((e.addedFields previous).flatMap fun f => (steps f).additions).flatMap
      (·.defaultSteps) = ((e.addedFields previous).map e.addedDefault).flatMap (·.steps) := by
    rw [List.flatMap_assoc, List.flatMap_map]
    refine List.flatMap_congr fun f hf => ?_
    obtain ⟨hup, hb⟩ := mem_addedFields.1 hf
    exact defaultSteps_of_addColumn (isIdentity_of_upgradable hup) (hfound f hup)
      (fieldSteps_of_added hb (h f hup)).2.2
  have hdrops : ((e.abandonedFields previous).map fun f => e.dropColumn d f.column.raw).flatMap
      (·.defaultSteps) = [] := by
    rw [List.flatMap_map]
    exact List.flatMap_eq_nil_iff.2 fun f _ => rfl
  rw [columnStatements_eq_parts h, List.flatMap_append, List.flatMap_append, List.flatMap_append,
    hrenames, halterations, hadditions, hdrops, List.append_nil, List.nil_append, defaultChanges,
    List.flatMap_append]

/-- The columns that have a default each have their own constraint over an upgrade. -/
theorem nodup_defaultChanges (hcolumns : e.HasDistinctColumns) :
    ((e.defaultChanges previous d).map (·.name)).Nodup := by
  have hnames : (e.defaultChanges previous d).map (·.name) =
      ((e.pairedFields previous).map Prod.snd ++ e.addedFields previous).map e.defaultName := by
    simp only [defaultChanges, List.map_append, List.map_map]
    rfl
  rw [hnames, ← ((perm_upgradableFields e previous).map e.defaultName).nodup_iff]
  exact (nodup_map_defaultName hcolumns).sublist (List.Sublist.map _ List.filter_sublist)

/-- Whether an upgrade finds the constraints of the defaults that it replaces or removes, and the
names free of those that it gives. -/
structure FindsDefaults (e previous : Entity) (d : Dialect) : Prop where
  kept : ∀ p ∈ e.pairedFields previous,
    (p.2.difference d (p.1.asReported d)).defaultChange = true →
      p.1.defaultLiteral.isSome = true → e.defaultName p.2 ∈ previous.namedDefaults
  given : ∀ p ∈ e.pairedFields previous,
    (p.2.difference d (p.1.asReported d)).defaultChange = true → p.1.defaultLiteral = none →
      p.2.defaultLiteral.isSome = true → e.defaultName p.2 ∉ previous.namedDefaults
  added : ∀ f ∈ e.addedFields previous,
    f.defaultLiteral.isSome = true → e.defaultName f ∉ previous.namedDefaults

theorem findsDefaults_iff : e.FindsDefaults previous d ↔
    ∀ c ∈ e.defaultChanges previous d, c.Fits previous.namedDefaults := by
  have hchanged : ∀ p, (e.changedDefault d p).Fits previous.namedDefaults ↔
      ((p.2.difference d (p.1.asReported d)).defaultChange = true →
        p.1.defaultLiteral.isSome = true → e.defaultName p.2 ∈ previous.namedDefaults) ∧
      ((p.2.difference d (p.1.asReported d)).defaultChange = true → p.1.defaultLiteral = none →
        p.2.defaultLiteral.isSome = true → e.defaultName p.2 ∉ previous.namedDefaults) := by
    intro p
    unfold changedDefault DefaultChange.Fits
    cases (p.2.difference d (p.1.asReported d)).defaultChange with
    | false => simp
    | true => cases p.1.defaultLiteral <;> simp
  have hadded : ∀ f, (e.addedDefault f).Fits previous.namedDefaults ↔
      (f.defaultLiteral.isSome = true → e.defaultName f ∉ previous.namedDefaults) := by
    intro f
    simp [addedDefault, DefaultChange.Fits]
  unfold defaultChanges
  simp only [List.forall_mem_append, List.forall_mem_map, hchanged, hadded]
  exact ⟨fun h => ⟨fun p hp => ⟨h.kept p hp, h.given p hp⟩, h.added⟩,
    fun h => ⟨fun p hp => (h.1 p hp).1, fun p hp => (h.1 p hp).2, h.2⟩⟩

/-- Where the table keeps its name, columns whose defaults change keep theirs, and no new column has
that of an earlier one, an upgrade finds all defaults. -/
theorem findsDefaults_of_sameNames
    (htable : Text.sameName e.table.raw previous.table.raw = true)
    (hprevious : previous.HasDistinctColumns)
    (hpaired : ∀ p ∈ e.pairedFields previous,
      (p.2.difference d (p.1.asReported d)).defaultChange = true →
        p.2.column.caseless = p.1.column.caseless)
    (hadded : ∀ f ∈ e.addedFields previous,
      f.column.caseless ∉ columnNames previous.tableFields) :
    e.FindsDefaults previous d where
  kept p hp hchange hliteral := by
    have hup := mem_of_upgradableField? (mem_pairedFields.1 hp).2
    exact mem_namedDefaults.2 ⟨p.1, (mem_upgradableFields.1 hup).1, isIdentity_of_upgradable hup,
      hliteral, ((defaultName_eq_iff htable).2 (hpaired p hp hchange)).symm⟩
  given p hp hchange hnone _ hmem := by
    obtain ⟨g, hg, -, hliteral, hname⟩ := mem_namedDefaults.1 hmem
    have hup := mem_of_upgradableField? (mem_pairedFields.1 hp).2
    have hcolumn := (defaultName_eq_iff htable).1 hname.symm
    -- The column is that of the earlier field, which has no default.
    obtain rfl : g = p.1 := eq_of_caseless hprevious hg (mem_upgradableFields.1 hup).1
      (hcolumn.symm.trans (hpaired p hp hchange))
    rw [hnone] at hliteral
    cases hliteral
  added f hf _ hmem := by
    obtain ⟨g, hg, -, -, hname⟩ := mem_namedDefaults.1 hmem
    refine hadded f hf ?_
    rw [(defaultName_eq_iff htable).1 hname.symm]
    exact mem_columnNames hg

end Entity

namespace Registry

variable {r : Registry} {old : EntitySpec} {name : String} {script : Script} {e previous : Entity}

/-- What an upgrade does to the constraints of defaults. -/
theorem defaultSteps_versionUpgrade (hr : r.IsReachable)
    (hdialect : r.dialect = Dialect.builtin .mssql)
    (hscript : r.versionUpgrade old name = .ok script) (he : r.get name = .ok e)
    (hp : Entity.ofSpec r.dialect old = .ok previous) (hnames : (e.fields.map (·.name)).Nodup) :
    script.defaultSteps = (e.defaultChanges previous r.dialect).flatMap (·.steps) := by
  obtain ⟨steps, opening, closing, hsteps, hwhole, hstatements⟩ :=
    versionUpgrade_eq_ok he hp hscript
  obtain ⟨spec, -, hof⟩ := hr.exists_finished (mem_of_get he)
  have hblank : ∀ before ∈ previous.upgradableFields, ∀ literal,
      before.defaultLiteral = some literal → Text.isAllBlank literal = false := by
    intro before hbefore literal hliteral
    obtain ⟨fspec, -, hfield⟩ := exists_mem_of_forall₂ (Entity.isOfSpec hp).fields.flip
      (Entity.mem_tableFields.1 (Entity.mem_upgradableFields.1 hbefore).1).1
    rw [hdialect] at hfield
    exact hfield.isAllBlank hliteral
  have hset : ∀ f ∈ e.upgradableFields, f.defaultLiteral = none → f.defaultValue = none := by
    intro f hf hnone
    obtain ⟨fspec, -, hfield⟩ := exists_mem_of_forall₂ hof.fields.flip
      (Entity.mem_tableFields.1 (Entity.mem_upgradableFields.1 hf).1).1
    exact hfield.defaultValue_eq_none hnone
  have hddl : r.dialect.ddl = .mssql := by
    rw [hdialect]
    rfl
  have hwholes : ∀ s ∈ opening ++ closing, s.defaultSteps = [] := fun s hs =>
    Statement.defaultSteps_of_isOnWhole (hwhole s hs)
  rw [List.forall_mem_append] at hwholes
  rw [Script.defaultSteps, hstatements, List.flatMap_append, List.flatMap_append,
    List.flatMap_eq_nil_iff.2 hwholes.1, List.flatMap_eq_nil_iff.2 hwholes.2, List.nil_append,
    List.append_nil, Entity.defaultSteps_columnStatements hsteps hnames hddl hblank hset]

/-- Over the table that an earlier description gives in SQL Server, the script of an upgrade drops
no default that is not there and gives none a name that is taken, exactly if it finds the earlier
defaults by the names that they have now. -/
theorem versionUpgrade_runsOnDefaults_iff {creation : List Statement} (hr : r.IsReachable)
    (hdialect : r.dialect = Dialect.builtin .mssql)
    (hscript : r.versionUpgrade old name = .ok script) (he : r.get name = .ok e)
    (hp : Entity.ofSpec r.dialect old = .ok previous)
    (hcreation : previous.createTable r.dialect = .ok creation)
    (hdistinct : e.IsDistinct) (hprevious : previous.HasDistinctColumns) :
    (∃ names, DefaultStep.run ∅ (creation.flatMap (·.defaultSteps) ++ script.defaultSteps) =
      some names) ↔ e.FindsDefaults previous r.dialect := by
  have hstart := Entity.run_createTable hcreation hprevious
  rw [Entity.findsDefaults_iff, ← DefaultChange.exists_run_iff
    (Entity.nodup_defaultChanges hdistinct.columns),
    ← defaultSteps_versionUpgrade hr hdialect hscript he hp hdistinct.fields]
  refine exists_congr fun names => ?_
  rw [DefaultStep.run_append_eq_some_iff]
  constructor
  · rintro ⟨mid, hmid, hrun⟩
    cases hstart.symm.trans hmid
    exact hrun
  · exact fun hrun => ⟨_, hstart, hrun⟩

end Registry

/-! ## Tickets with a state -/

/-- A ticket with a key, and a text that has a default and a marker of its own. -/
def ticketSpec (text raw : String) : EntitySpec :=
  { EntitySpec.named "Ticket" with
    fields := [(FieldSpec.named "id" .long).asPrimaryKey,
      { (FieldSpec.named text .string).withDefault raw with givenMarker := some "m1" }] }

/-- A registry of tickets alone. -/
def ticketRegistry (text raw : String) : Registry :=
  Registry.ofSpecs (Dialect.builtin .mssql) [ticketSpec text raw]

theorem isReachable_ticketRegistry {text raw : String} (h : (ticketSpec text raw).IsFinished) :
    (ticketRegistry text raw).IsReachable :=
  Registry.isReachable_ofSpecs fun _ hspec => List.mem_singleton.1 hspec ▸ h

/-- A state that is open at first, and was a draft, finds its earlier default. -/
theorem state_opened :
    ∃ script e previous creation, (ticketRegistry "state" "open").IsReachable ∧
      (ticketRegistry "state" "open").dialect = Dialect.builtin .mssql ∧
      (ticketRegistry "state" "open").versionUpgrade (ticketSpec "state" "draft") "Ticket" =
        .ok script ∧
      (ticketRegistry "state" "open").get "Ticket" = .ok e ∧
      Entity.ofSpec (ticketRegistry "state" "open").dialect (ticketSpec "state" "draft") =
        .ok previous ∧
      previous.createTable (ticketRegistry "state" "open").dialect = .ok creation ∧
      e.IsDistinct ∧ previous.HasDistinctColumns ∧
      script.defaultSteps = [.drop "DF_TICKET_STATE", .add "DF_TICKET_STATE"] ∧
      ∃ names, DefaultStep.run ∅ (creation.flatMap (·.defaultSteps) ++ script.defaultSteps) =
        some names := by
  have hr : (ticketRegistry "state" "open").IsReachable :=
    isReachable_ticketRegistry (EntitySpec.isFinished_of_build (by decide))
  obtain ⟨script, hscript, hsteps⟩ : ∃ script,
      (ticketRegistry "state" "open").versionUpgrade (ticketSpec "state" "draft") "Ticket" =
        .ok script ∧
      (script.defaultSteps == [.drop "DF_TICKET_STATE", .add "DF_TICKET_STATE"]) = true :=
    exists_ok_of_any (by decide +kernel)
  have he : (ticketRegistry "state" "open").get "Ticket" = .ok _ := rfl
  have hp : Entity.ofSpec (ticketRegistry "state" "open").dialect (ticketSpec "state" "draft") =
    .ok _ := rfl
  refine ⟨script, _, _, _, hr, rfl, hscript, he, hp, rfl, ⟨by decide, by decide⟩, by decide,
    eq_of_beq hsteps, ?_⟩
  refine (Registry.versionUpgrade_runsOnDefaults_iff hr rfl hscript he hp rfl
    ⟨by decide, by decide⟩ (by decide)).2 ?_
  exact Entity.findsDefaults_of_sameNames (by decide) (by decide) (by decide +kernel)
    (by decide +kernel)

/-- A state that becomes a status on the way does not: its default has the name of the state. -/
theorem status_not_opened :
    (ticketRegistry "status" "open").IsReachable ∧ (ticketSpec "state" "draft").IsFinished ∧
    ∃ script e previous creation,
      (ticketRegistry "status" "open").versionUpgrade (ticketSpec "state" "draft") "Ticket" =
        .ok script ∧
      (ticketRegistry "status" "open").get "Ticket" = .ok e ∧
      Entity.ofSpec (ticketRegistry "status" "open").dialect (ticketSpec "state" "draft") =
        .ok previous ∧
      previous.createTable (ticketRegistry "status" "open").dialect = .ok creation ∧
      creation.flatMap (·.defaultSteps) = [.add "DF_TICKET_STATE"] ∧
      script.defaultSteps = [.drop "DF_TICKET_STATUS", .add "DF_TICKET_STATUS"] ∧
      DefaultStep.run ∅ (creation.flatMap (·.defaultSteps) ++ script.defaultSteps) = none := by
  have hr : (ticketRegistry "status" "open").IsReachable :=
    isReachable_ticketRegistry (EntitySpec.isFinished_of_build (by decide))
  have hold : (ticketSpec "state" "draft").IsFinished := EntitySpec.isFinished_of_build (by decide)
  obtain ⟨script, hscript, hsteps⟩ : ∃ script,
      (ticketRegistry "status" "open").versionUpgrade (ticketSpec "state" "draft") "Ticket" =
        .ok script ∧
      (script.defaultSteps == [.drop "DF_TICKET_STATUS", .add "DF_TICKET_STATUS"]) = true :=
    exists_ok_of_any (by decide +kernel)
  obtain ⟨previous, hp, hcreated⟩ : ∃ previous,
      Entity.ofSpec (ticketRegistry "status" "open").dialect (ticketSpec "state" "draft") =
        .ok previous ∧
      ((previous.createTable (ticketRegistry "status" "open").dialect).toOption.any fun creation =>
        creation.flatMap (·.defaultSteps) == [.add "DF_TICKET_STATE"]) = true :=
    exists_ok_of_any (by decide +kernel)
  obtain ⟨creation, hcreation, hstart⟩ := exists_ok_of_any hcreated
  rw [beq_iff_eq] at hsteps hstart
  refine ⟨hr, hold, script, _, previous, creation, hscript, rfl, hp, hcreation, hstart, hsteps, ?_⟩
  rw [hstart, hsteps]
  decide

end SqlDialects
