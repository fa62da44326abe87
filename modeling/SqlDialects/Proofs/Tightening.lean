import SqlDialects.Proofs.VersionScript

/-!
# NULLs are filled before a column is tightened

A column that may be NULL no longer has its NULLs filled by an UPDATE, and only then may a statement
say NOT NULL of it. Within the changes of one column the planner keeps that order. But some
databases state nullability inside other statements, and MySQL does so when a column gets a new
name, which comes before all changes.

Results:
1. `DdlStyle.statesNullability_iff`: which statements say whether their column may be NULL, by their
   text.
2. `Registry.versionUpgrade_fills_first_iff`: the UPDATE comes before all statements that say NOT
   NULL of the column iff it is not renamed in MySQL.
-/

namespace SqlDialects

/-! ## Statements that state nullability -/

/-- Whether a column is restated in full when it gets a new name. -/
def DdlStyle.renameStatesNull : DdlStyle → Bool
  | .mysql => true
  | _ => false

theorem DdlStyle.renameStatesNull_iff {s : DdlStyle} :
    s.renameStatesNull = true ↔ s = .mysql := by
  cases s <;> simp [renameStatesNull]

/-- Whether a statement on a column says if it may be NULL. -/
def DdlStyle.statesNullability (s : DdlStyle) : Statement → Bool
  | .addColumn d => !d.isIdentity
  | .setNullable _ => true
  | .alterType _ => s.alterTypeStatesNull
  | .renameColumn .. => s.renameStatesNull
  | _ => false

namespace Statement

/-- A statement on a column that may be NULL or not, as given. -/
def withNullable (nullable : Bool) : Statement → Statement
  | .addColumn d => .addColumn { d with target := { d.target with nullable } }
  | .alterType t => .alterType { t with nullable }
  | .setDefault t literal => .setDefault { t with nullable } literal
  | .dropDefault t => .dropDefault { t with nullable }
  | .setNullable t => .setNullable { t with nullable }
  | .renameColumn t newName => .renameColumn { t with nullable } newName
  | s => s

/-- The column that a statement leaves behind, and whether it may be NULL. -/
def statedColumn? : Statement → Option (Name × Bool)
  | .addColumn d => some (d.target.column, d.target.nullable)
  | .alterType t | .setNullable t => some (t.column, t.nullable)
  | .renameColumn t newName => some (newName, t.nullable)
  | _ => none

/-- Whether a statement says NOT NULL of a column. -/
def statesNotNull (s : DdlStyle) (column : Name) (statement : Statement) : Bool :=
  s.statesNullability statement &&
    statement.statedColumn?.any fun p => p.1.caseless == column.caseless && !p.2

end Statement

namespace DdlStyle

theorem ne_append_notNull (text : String) : text ≠ text ++ " NOT NULL" := by
  intro h
  have hlength := congrArg String.length h
  rw [String.length_append] at hlength
  exact absurd hlength (Nat.ne_of_lt (Nat.lt_add_of_pos_right (by decide)))

theorem columnDefinition_ne (s : DdlStyle) (d : ColumnDefinition) (hd : d.isIdentity = false) :
    s.columnDefinition { d with target := { d.target with nullable := true } } ≠
      s.columnDefinition { d with target := { d.target with nullable := false } } := by
  intro h
  cases s <;> simp [columnDefinition, hd, defaultClause, defaultConstraintName, statesNull] at h
  all_goals exact ne_append_notNull _ h

/-- A statement says whether its column may be NULL iff its text depends on it. -/
theorem statesNullability_iff (s : DdlStyle) (statement : Statement) :
    s.statesNullability statement = true ↔
      s.arrangement (statement.withNullable true) ≠
        s.arrangement (statement.withNullable false) := by
  cases statement
  case addColumn d =>
    cases hd : d.isIdentity with
    | true => simp [statesNullability, Statement.withNullable, arrangement, columnDefinition, hd]
    | false =>
      simpa [statesNullability, Statement.withNullable, arrangement, alterTable, hd] using
        columnDefinition_ne s d hd
  case setNullable t =>
    cases s <;> simp [statesNullability, Statement.withNullable, arrangement, setNullable,
      alterType, alterTable, restated, nullWord]
  case alterType t =>
    cases s <;> simp [statesNullability, alterTypeStatesNull, Statement.withNullable, arrangement,
      alterType, alterTable, restated, nullWord]
  case renameColumn t newName =>
    cases s <;> simp [statesNullability, renameStatesNull, Statement.withNullable, arrangement,
      renameColumn, alterTable, restated, nullWord]
  case setDefault t literal =>
    cases s <;> simp [statesNullability, Statement.withNullable, arrangement, setDefault,
      alterTable, defaultConstraintName]
  case dropDefault t =>
    cases s <;> simp [statesNullability, Statement.withNullable, arrangement, dropDefault,
      alterTable, defaultConstraintName]
  all_goals simp [statesNullability, Statement.withNullable]

end DdlStyle

/-! ## The statements of other columns -/

namespace Statement

variable {s : DdlStyle} {column : Name} {statement : Statement}

theorem statesNotNull_of_isOnWhole (h : statement.isOnWhole = true) :
    statement.statesNotNull s column = false := by
  cases statement <;> first | rfl | cases h

theorem statesNotNull_of_changedColumn? {other : Name} (h : statement.changedColumn? = some other)
    (hother : other.caseless ≠ column.caseless) : statement.statesNotNull s column = false := by
  cases statement <;>
    simp_all [statesNotNull, changedColumn?, statedColumn?, DdlStyle.statesNullability]

end Statement

namespace Entity

/-- Whether the statements of a field are those on its column: its name and its column stand for no
other field that an upgrade may change. -/
structure OwnsColumn (e : Entity) (f : Field) : Prop where
  found : e.tableField f.name = .ok f
  alone : ∀ g ∈ e.upgradableFields, ∀ x, e.tableField g.name = .ok x →
    x.column.caseless = f.column.caseless → g = f

/-- Names and columns that tell the fields of a table apart make every field own its column. -/
theorem ownsColumn_of_distinct {e : Entity} (hnames : (e.fields.map (·.name)).Nodup)
    (hcolumns : (e.tableFields.map (·.column.caseless)).Nodup) {f : Field}
    (hf : f ∈ e.upgradableFields) : e.OwnsColumn f := by
  have htable := (mem_upgradableFields.1 hf).1
  refine ⟨tableField_of_mem hnames htable, fun g hg x hx hcolumn => ?_⟩
  obtain ⟨hxtable, hname⟩ := mem_tableFields_of_tableField hx
  rw [List.inj_on_of_nodup_map hcolumns hxtable htable hcolumn] at hname
  exact List.inj_on_of_nodup_map hnames (mem_tableFields.1 (mem_upgradableFields.1 hg).1).1
    (mem_tableFields.1 htable).1 hname.symm

variable {e previous : Entity} {d : Dialect} {f before : Field} {steps : Field → FieldSteps}

/-- A column that may be NULL no longer is filled before all else that changes. -/
theorem alterations_of_tightened {steps : FieldSteps} (hown : e.OwnsColumn f)
    (hb : previous.upgradableField? f.marker = some before) (hbefore : before.nullable = true)
    (hf : f.nullable = false) (hsteps : e.fieldSteps previous d f = .ok steps) :
    ∃ literal rest, steps.alterations = .fillNulls e.table f.column literal :: rest := by
  obtain ⟨g, hg, _, halter, _⟩ := fieldSteps_of_paired hb hsteps
  cases hown.found.symm.trans hg
  have hchange : (f.difference d (before.asReported d)).nullableChange = true := by
    simp [Field.difference, Field.asReported, hbefore, hf]
  rcases convergeColumn_eq_ok halter with ⟨hany, _⟩ | ⟨hadDefault, fill, hfill, hstatements⟩
  · simp [ColumnDifference.isAny, hchange] at hany
  · rcases fillStep_eq_ok hfill with ⟨_, literal, _, rfl⟩ | ⟨hnone, _⟩
    · exact ⟨literal, _, hstatements⟩
    · simp [hchange, hf] at hnone

section Steps

variable (hsteps : ∀ f ∈ e.upgradableFields, e.fieldSteps previous d f = .ok (steps f))
include hsteps

/-- The new name of a field is all that its renames are. -/
theorem eq_renameColumn_of_mem_renames {g : Field} (hg : g ∈ e.upgradableFields) {s : Statement}
    (hs : s ∈ (steps g).renames) : ∃ before x, previous.upgradableField? g.marker = some before ∧
      Text.sameName before.column.raw g.column.raw = false ∧ e.tableField g.name = .ok x ∧
      s = .renameColumn { e.target x with column := d.naming.name before.column.raw } x.column := by
  cases hb : previous.upgradableField? g.marker with
  | none =>
    rw [(fieldSteps_of_added hb (hsteps g hg)).1] at hs
    cases hs
  | some before =>
    obtain ⟨x, hx, hr, _, _⟩ := fieldSteps_of_paired hb (hsteps g hg)
    rw [hr] at hs
    split at hs
    · cases hs
    · next hsame =>
      exact ⟨before, x, rfl, by simpa using hsame, hx, List.mem_singleton.1 hs⟩

/-- The new name of another field says nothing of a column. -/
theorem statesNotNull_of_mem_renames (hown : e.OwnsColumn f) {g : Field}
    (hg : g ∈ e.upgradableFields) {s : Statement} (hs : s ∈ (steps g).renames)
    (hgf : g ≠ f ∨ d.ddl.renameStatesNull = false) : s.statesNotNull d.ddl f.column = false := by
  obtain ⟨before, x, _, _, hx, rfl⟩ := eq_renameColumn_of_mem_renames hsteps hg hs
  rcases hgf with hgf | hstyle
  · have hcolumn : x.column.caseless ≠ f.column.caseless := fun he => hgf (hown.alone g hg x hx he)
    simp [Statement.statesNotNull, Statement.statedColumn?, hcolumn]
  · simp [Statement.statesNotNull, DdlStyle.statesNullability, hstyle]

/-- Changes of other fields say nothing of a column. -/
theorem statesNotNull_of_mem_alterations (hown : e.OwnsColumn f) {g : Field}
    (hg : g ∈ e.upgradableFields) (hgf : g ≠ f) {s : Statement} (hs : s ∈ (steps g).alterations) :
    s.statesNotNull d.ddl f.column = false := by
  cases hb : previous.upgradableField? g.marker with
  | none =>
    rw [(fieldSteps_of_added hb (hsteps g hg)).2.1] at hs
    cases hs
  | some before =>
    obtain ⟨x, hx, _, halter, _⟩ := fieldSteps_of_paired hb (hsteps g hg)
    exact Statement.statesNotNull_of_changedColumn?
      (changedColumn?_of_mem_convergeColumn halter hs) fun he => hgf (hown.alone g hg x hx he)

theorem fillNulls_not_mem_renames {table column : Name} {literal : String} :
    Statement.fillNulls table column literal ∉
      e.upgradableFields.flatMap fun g => (steps g).renames := by
  intro hm
  obtain ⟨g, hg, hm⟩ := List.mem_flatMap.1 hm
  obtain ⟨_, _, _, _, _, hs⟩ := eq_renameColumn_of_mem_renames hsteps hg hm
  cases hs

/-- Where a new name restates the column, it says NOT NULL. -/
theorem exists_statesNotNull_of_renamed (hown : e.OwnsColumn f) (hf : f ∈ e.upgradableFields)
    (hb : previous.upgradableField? f.marker = some before) (hnot : f.nullable = false)
    (hstyle : d.ddl = .mysql) (hrenamed : Text.sameName before.column.raw f.column.raw = false) :
    ∃ s ∈ e.upgradableFields.flatMap (fun g => (steps g).renames),
      s.statesNotNull d.ddl f.column = true := by
  obtain ⟨x, hx, hrenames, _, _⟩ := fieldSteps_of_paired hb (hsteps f hf)
  cases hown.found.symm.trans hx
  have hmem : Statement.renameColumn { e.target f with
      column := d.naming.name before.column.raw } f.column ∈ (steps f).renames := by
    rw [hrenames, hrenamed]
    exact List.mem_singleton_self _
  refine ⟨_, List.mem_flatMap.2 ⟨f, hf, hmem⟩, ?_⟩
  simp [Statement.statesNotNull, Statement.statedColumn?, DdlStyle.statesNullability, hstyle,
    DdlStyle.renameStatesNull, target, hnot]

/-- Otherwise neither new names nor the changes of other fields say NOT NULL of the column. -/
theorem statesNotNull_of_mem_earlier (hown : e.OwnsColumn f)
    (hb : previous.upgradableField? f.marker = some before)
    (hnotRenamed : ¬(d.ddl = .mysql ∧ Text.sameName before.column.raw f.column.raw = false))
    {earlier : List Field} (hearlier : earlier ⊆ e.upgradableFields) (hnew : f ∉ earlier)
    {s : Statement} (hs : s ∈ e.upgradableFields.flatMap (fun g => (steps g).renames)
      ++ earlier.flatMap fun g => (steps g).alterations) :
    s.statesNotNull d.ddl f.column = false := by
  rcases List.mem_append.1 hs with hs | hs
  · obtain ⟨g, hg, hs⟩ := List.mem_flatMap.1 hs
    refine statesNotNull_of_mem_renames hsteps hown hg hs ?_
    by_cases hgf : g = f
    · -- The new name of the field itself: then the style is not the one that restates the column.
      subst hgf
      obtain ⟨b, _, hb', hsame, _⟩ := eq_renameColumn_of_mem_renames hsteps hg hs
      cases hb.symm.trans hb'
      refine .inr (Bool.eq_false_iff.2 fun hstyle => hnotRenamed ⟨?_, hsame⟩)
      exact DdlStyle.renameStatesNull_iff.1 hstyle
    · exact .inl hgf
  · obtain ⟨g, hg, hs⟩ := List.mem_flatMap.1 hs
    refine statesNotNull_of_mem_alterations hsteps hown (hearlier hg) ?_ hs
    rintro rfl
    exact hnew hg

end Steps

end Entity

/-! ## The order of a script -/

/-- What comes before an entry that a first part does not have begins with that part. -/
theorem subset_of_append_eq_append_cons {α : Type} {first last front rest : List α} {a : α}
    (h : front ++ rest = first ++ a :: last) (ha : a ∉ front) : front ⊆ first := by
  rcases List.append_eq_append_iff.1 h with ⟨between, hfirst, _⟩ | ⟨between, hfront, hrest⟩
  · rw [hfirst]
    exact List.subset_append_left _ _
  · cases between with
    | nil =>
      rw [hfront, List.append_nil]
      exact List.Subset.refl _
    | cons b tail =>
      rw [List.cons_append, List.cons.injEq] at hrest
      exact absurd (hfront ▸ hrest.1 ▸ List.mem_append_right _ List.mem_cons_self) ha

/-- A column that may be NULL no longer is filled before every statement that says NOT NULL of it,
iff it is not renamed where a new name restates the column. -/
theorem Registry.versionUpgrade_fills_first_iff {r : Registry} {old : EntitySpec} {name : String}
    {script : Script} {e previous : Entity} {f before : Field}
    (hscript : r.versionUpgrade old name = .ok script) (he : r.get name = .ok e)
    (hp : Entity.ofSpec r.dialect old = .ok previous) (hf : f ∈ e.upgradableFields)
    (hb : previous.upgradableField? f.marker = some before) (hbefore : before.nullable = true)
    (hnot : f.nullable = false) (hown : e.OwnsColumn f) :
    (∃ first literal last,
        script.statements = first ++ .fillNulls e.table f.column literal :: last ∧
        ∀ s ∈ first, s.statesNotNull r.dialect.ddl f.column = false) ↔
      ¬(r.dialect.ddl = .mysql ∧ Text.sameName before.column.raw f.column.raw = false) := by
  obtain ⟨steps, opening, closing, hsteps, hwhole, hstatements⟩ :=
    Registry.versionUpgrade_eq_ok he hp hscript
  rw [List.forall_mem_append] at hwhole
  constructor
  · rintro ⟨first, literal, last, hsplit, hfirst⟩ ⟨hstyle, hrenamed⟩
    have hnoFill : Statement.fillNulls e.table f.column literal ∉
        opening ++ e.upgradableFields.flatMap fun g => (steps g).renames := by
      intro hm
      rcases List.mem_append.1 hm with hm | hm
      · cases hwhole.1 _ hm
      · exact Entity.fillNulls_not_mem_renames hsteps hm
    rw [hstatements, Entity.columnStatements] at hsplit
    simp only [List.append_assoc] at hsplit
    rw [← List.append_assoc] at hsplit
    -- New names come before the first UPDATE there can be, the one that says NOT NULL among them.
    obtain ⟨s, hs, hstated⟩ :=
      Entity.exists_statesNotNull_of_renamed hsteps hown hf hb hnot hstyle hrenamed
    have hmem : s ∈ first :=
      subset_of_append_eq_append_cons hsplit hnoFill (List.mem_append_right _ hs)
    rw [hfirst s hmem] at hstated
    cases hstated
  · intro hnotRenamed
    obtain ⟨earlier, later, hfields, hnew⟩ := List.eq_append_cons_of_mem hf
    obtain ⟨literal, rest, halter⟩ :=
      Entity.alterations_of_tightened hown hb hbefore hnot (hsteps f hf)
    have halterations : e.upgradableFields.flatMap (fun g => (steps g).alterations) =
        earlier.flatMap (fun g => (steps g).alterations)
          ++ .fillNulls e.table f.column literal ::
            (rest ++ later.flatMap fun g => (steps g).alterations) := by
      rw [hfields, List.flatMap_append, List.flatMap_cons, halter, List.cons_append]
    refine ⟨opening ++ (e.upgradableFields.flatMap (fun g => (steps g).renames)
      ++ earlier.flatMap (fun g => (steps g).alterations)), literal,
      rest ++ later.flatMap (fun g => (steps g).alterations)
        ++ e.upgradableFields.flatMap (fun g => (steps g).additions)
        ++ (e.abandonedFields previous).map (fun g => e.dropColumn r.dialect g.column.raw)
        ++ closing, ?_, ?_⟩
    · rw [hstatements, Entity.columnStatements, halterations]
      simp only [List.append_assoc, List.cons_append]
    · intro s hs
      rcases List.mem_append.1 hs with hs | hs
      · exact Statement.statesNotNull_of_isOnWhole (hwhole.1 s hs)
      · exact Entity.statesNotNull_of_mem_earlier hsteps hown hb hnotRenamed
          (hfields ▸ List.subset_append_left _ _) hnew hs

/-- In HSQLDB the text of a note is filled first, even when it is renamed. -/
theorem renamed_note_fills_first :
    ∃ script e previous f before,
      (noteRegistry .hsqldb "body" "m1" false).versionUpgrade (noteSpec "text" "m1" true) "Note" =
        .ok script ∧
      (noteRegistry .hsqldb "body" "m1" false).get "Note" = .ok e ∧
      Entity.ofSpec (noteRegistry .hsqldb "body" "m1" false).dialect (noteSpec "text" "m1" true) =
        .ok previous ∧
      e.upgradableFields = [f] ∧ previous.upgradableField? f.marker = some before ∧
      before.nullable = true ∧ f.nullable = false ∧ e.OwnsColumn f ∧
      ∃ first literal last,
        script.statements = first ++ .fillNulls e.table f.column literal :: last ∧
        ∀ s ∈ first, s.statesNotNull (noteRegistry .hsqldb "body" "m1" false).dialect.ddl f.column =
          false := by
  have hscript : (noteRegistry .hsqldb "body" "m1" false).versionUpgrade
    (noteSpec "text" "m1" true) "Note" = .ok _ := rfl
  have he : (noteRegistry .hsqldb "body" "m1" false).get "Note" = .ok _ := rfl
  exact ⟨_, _, _, _, _, hscript, he, rfl, rfl, rfl, rfl, rfl,
    Entity.ownsColumn_of_distinct (by decide) (by decide) (by decide),
    (Registry.versionUpgrade_fills_first_iff hscript he rfl (by decide) rfl rfl rfl
      (Entity.ownsColumn_of_distinct (by decide) (by decide) (by decide))).2 (by decide)⟩

/-- In MySQL the statement that renames it says NOT NULL before there is any UPDATE. -/
theorem renamed_note_states_first :
    ∃ script e previous f before,
      (noteRegistry .mysql "body" "m1" false).versionUpgrade (noteSpec "text" "m1" true) "Note" =
        .ok script ∧
      (noteRegistry .mysql "body" "m1" false).get "Note" = .ok e ∧
      Entity.ofSpec (noteRegistry .mysql "body" "m1" false).dialect (noteSpec "text" "m1" true) =
        .ok previous ∧
      e.upgradableFields = [f] ∧ previous.upgradableField? f.marker = some before ∧
      before.nullable = true ∧ f.nullable = false ∧ e.OwnsColumn f ∧
      ∀ first literal last,
        script.statements = first ++ .fillNulls e.table f.column literal :: last →
        ∃ s ∈ first, s.statesNotNull (noteRegistry .mysql "body" "m1" false).dialect.ddl f.column =
          true := by
  refine ⟨_, _, _, _, _, rfl, rfl, rfl, rfl, rfl, rfl, rfl,
    Entity.ownsColumn_of_distinct (by decide) (by decide) (by decide),
    fun first literal last h => ?_⟩
  cases first with
  | nil => cases h
  | cons s tail => exact ⟨s, List.mem_cons_self, (List.cons.inj h).1 ▸ (by decide)⟩

end SqlDialects
