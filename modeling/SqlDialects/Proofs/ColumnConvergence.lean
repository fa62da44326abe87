import SqlDialects.Proofs.Tightening

/-!
# What bringing a column to its field takes

A column differs from its field in its type, its default, its nullability, or in some of these. The
statements that follow come in four parts: the NULLs that may be there no longer are filled, the
type changes, then the default, then nullability. Only the type can be in the way, where the field
has no room for the values there are.

Results:
1. `ColumnRule.exists_fallbackLiteral`, `Field.exists_fillLiteral`: there is always something to
   fill NULLs with.
2. `Entity.checkTypeChange_eq`: when a change of type is refused, and with which error.
3. `Entity.convergeColumn_parts`: when the planner fails, when there is nothing to do, and what the
   four parts are otherwise.
-/

namespace SqlDialects

/-! ## Literals for NULLs -/

namespace ColumnRule

/-- Every type accepts the default that existing rows get where none is configured. -/
theorem exists_fallbackLiteral (p : ColumnRule) :
    ∃ literal, p.defaultLiteral p.fallbackDefault = .ok literal := by
  cases p with
  | character => exact ⟨Text.literal " ", by decide⟩
  | boolean style =>
    have hread : readBoolean? "false" = some false := by decide
    refine ⟨booleanLiteral style false, ?_⟩
    simp only [defaultLiteral, fallbackDefault, hread]
  | integer type =>
    have hread : readInteger (integerRange type) (Text.trim "0").toList = .ok 0 := by
      cases type <;> decide
    refine ⟨toString (0 : Int), ?_⟩
    simp only [defaultLiteral, fallbackDefault, integerDefault, hread]
  | floating type =>
    have hread : Double.read (Text.trim "0") = .ok ⟨0⟩ := by decide
    have hfinite : Double.isFinite ⟨0⟩ = true := by decide
    refine ⟨Double.text ⟨0⟩, ?_⟩
    simp only [defaultLiteral, fallbackDefault, floatingDefault, hread, hfinite, if_true]
  | decimal =>
    have hplain : isPlainDecimal (Text.trim "0").toList = true := by decide
    refine ⟨Text.trim "0", ?_⟩
    simp only [defaultLiteral, fallbackDefault, decimalDefault, hplain, if_true]
  | date =>
    have hword : Text.sameName (Text.trim "CURRENT_DATE") "CURRENT_DATE" = true := by decide
    refine ⟨"CURRENT_DATE", ?_⟩
    simp only [defaultLiteral, fallbackDefault, dateDefault, hword, Bool.true_or, if_true]
  | timestamp =>
    have hword : Text.sameName (Text.trim "CURRENT_TIMESTAMP") "CURRENT_TIMESTAMP" = true := by
      decide
    refine ⟨"CURRENT_TIMESTAMP", ?_⟩
    simp only [defaultLiteral, fallbackDefault, timestampDefault, hword, Bool.true_or, if_true]
  | clob declaration code binding emptyLiteral => exact ⟨emptyLiteral, rfl⟩
  | blob declaration code binding emptyLiteral => exact ⟨emptyLiteral, rfl⟩
  | string type keyword fallback => exact ⟨Text.literal fallback, rfl⟩

end ColumnRule

/-- A field whose default is one of its type has a literal for NULLs: a default that is not blank
was rendered before, and in place of any other there is the one of the type. -/
theorem Field.exists_fillLiteral {d : Dialect} {spec : FieldSpec} {f : Field}
    (h : Field.IsOfSpec d spec f) :
    ∃ literal, (d.columnRule f.columnType).fillLiteral f.defaultValue = .ok literal := by
  have hliteral := h.defaultLiteral
  have hfallback := ColumnRule.exists_fallbackLiteral (d.columnRule f.columnType)
  cases hraw : f.defaultValue with
  | none =>
    simp only [ColumnRule.fillLiteral]
    exact hfallback
  | some raw =>
    simp only [ColumnRule.fillLiteral]
    split
    · exact hfallback
    · rw [hraw] at hliteral
      obtain ⟨literal, hl, _⟩ := bind_eq_ok_iff.1 hliteral
      exact ⟨literal, hl⟩

/-! ## Parts of the statements -/

/-- The type whose values an observed column holds, if what the catalog reports stands for one. -/
def CatalogColumn.logicalType? (c : CatalogColumn) : Option ColumnType :=
  c.typeCode.columnType? c.size c.decimalDigits

/-- Whether a field can hold the values of an observed column. -/
def Field.CanHold (f : Field) (observed : CatalogColumn) : Prop :=
  ∃ source, observed.logicalType? = some source ∧ f.columnType.takes source = true

/-- The column of a field as it is to become, where the catalog reports one already. -/
def Entity.changeOf (e : Entity) (f : Field) (observed : CatalogColumn) : ColumnChange :=
  { e.target f with hadDefault := match observed.defaultValue with
      | some raw => !Text.isAllBlank raw
      | none => false }

/-- The parts of the statements that bring an observed column to its field. -/
structure IsConvergence (e : Entity) (d : Dialect) (f : Field) (observed : CatalogColumn)
    (fill type defaults nullability : List Statement) : Prop where
  /-- NULLs are filled where there may be some and may be none from now on. -/
  filled : observed.nullable = true → f.nullable = false → ∃ literal,
    (d.columnRule f.columnType).fillLiteral f.defaultValue = .ok literal ∧
      fill = [.fillNulls e.table f.column literal]
  unfilled : ¬(observed.nullable = true ∧ f.nullable = false) → fill = []
  typed : (f.difference d observed).typeChange = true → type = [.alterType (e.changeOf f observed)]
  untyped : (f.difference d observed).typeChange = false → type = []
  /-- The default that the column has in the end is the one of the field. -/
  defaulted : (f.difference d observed).defaultChange = true →
    defaults.getLast? = some (match f.defaultLiteral with
      | some literal => .setDefault (e.changeOf f observed) literal
      | none => .dropDefault (e.changeOf f observed))
  undefaulted : (f.difference d observed).defaultChange = false → defaults = []
  /-- Nothing but defaults is set or dropped for the sake of the default. -/
  onDefault : ∀ s ∈ defaults, s = .dropDefault (e.changeOf f observed) ∨
    ∃ literal, f.defaultLiteral = some literal ∧ s = .setDefault (e.changeOf f observed) literal
  /-- A change of type may say already whether the column may be NULL. -/
  tightened : observed.nullable ≠ f.nullable →
    ((f.difference d observed).typeChange && d.ddl.statesNullability
      (.alterType (e.changeOf f observed))) = false →
    nullability = [.setNullable (e.changeOf f observed)]
  untightened : (observed.nullable = f.nullable ∨
    ((f.difference d observed).typeChange && d.ddl.statesNullability
      (.alterType (e.changeOf f observed))) = true) → nullability = []

namespace Entity

variable {e : Entity} {d : Dialect} {f : Field} {observed : CatalogColumn}

theorem checkTypeChange_eq (e : Entity) (f : Field) (observed : CatalogColumn) :
    (f.CanHold observed ∧ e.checkTypeChange f observed = .ok ()) ∨
      (¬f.CanHold observed ∧ ∃ fault, e.checkTypeChange f observed =
        .error (.unsupportedAlteration e.table.raw f.column.raw fault)) := by
  unfold checkTypeChange Field.CanHold CatalogColumn.logicalType?
  cases hsource : observed.typeCode.columnType? observed.size observed.decimalDigits with
  | none =>
    refine .inr ⟨?_, _, rfl⟩
    rintro ⟨source, hnone, _⟩
    cases hnone
  | some source =>
    by_cases htakes : f.columnType.takes source = true
    · exact .inl ⟨⟨source, rfl, htakes⟩, if_pos htakes⟩
    · refine .inr ⟨?_, _, if_neg htakes⟩
      rintro ⟨other, hother, htakes'⟩
      cases hother
      exact htakes htakes'

/-- The part on NULLs of a field that can be filled. -/
theorem exists_fillStep (hfill : ∃ literal,
      (d.columnRule f.columnType).fillLiteral f.defaultValue = .ok literal) :
    ∃ fill, e.fillStep d f (f.difference d observed) = .ok fill := by
  obtain ⟨literal, hliteral⟩ := hfill
  unfold fillStep
  split
  · exact ⟨_, bind_eq_ok_iff.2 ⟨literal, hliteral, rfl⟩⟩
  · exact ⟨[], rfl⟩

theorem convergeColumn_of_unchanged (h : (f.difference d observed).isAny = false) :
    e.convergeColumn d f observed = .ok [] := by
  rw [convergeColumn, h]
  rfl

/-- With something to change and no type in the way, the parts come one after the other. -/
theorem convergeColumn_of_changed {fill : List Statement}
    (hany : (f.difference d observed).isAny = true)
    (htype : (f.difference d observed).typeChange = true → f.CanHold observed)
    (hfill : e.fillStep d f (f.difference d observed) = .ok fill) :
    e.convergeColumn d f observed = .ok (fill
      ++ (if (f.difference d observed).typeChange then [.alterType (e.changeOf f observed)] else [])
      ++ defaultStep d f (e.changeOf f observed) (f.difference d observed)
      ++ (if (f.difference d observed).nullableChange &&
            !((f.difference d observed).typeChange && d.ddl.alterTypeStatesNull) then
          [.setNullable (e.changeOf f observed)] else [])) := by
  simp only [convergeColumn, hany, Bool.not_true, Bool.false_eq_true, if_false]
  cases hchange : (f.difference d observed).typeChange with
  | false =>
    simp only [Bool.false_eq_true, if_false]
    exact bind_eq_ok_iff.2 ⟨fill, hfill, rfl⟩
  | true =>
    rcases checkTypeChange_eq e f observed with ⟨_, hcheck⟩ | ⟨hno, _⟩
    · simp only [if_true]
      exact bind_eq_ok_iff.2 ⟨(), hcheck, bind_eq_ok_iff.2 ⟨fill, hfill, rfl⟩⟩
    · exact absurd (htype hchange) hno

theorem convergeColumn_of_refused (hchange : (f.difference d observed).typeChange = true)
    (hno : ¬f.CanHold observed) : ∃ fault, e.convergeColumn d f observed =
      .error (.unsupportedAlteration e.table.raw f.column.raw fault) := by
  rcases checkTypeChange_eq e f observed with ⟨hyes, _⟩ | ⟨_, fault, hcheck⟩
  · exact absurd hyes hno
  · refine ⟨fault, ?_⟩
    have hany : (f.difference d observed).isAny = true := by
      rw [ColumnDifference.isAny, hchange]
      rfl
    simp only [convergeColumn, hany, hchange, hcheck, Bool.not_true, Bool.false_eq_true, if_false,
      if_true]
    rfl

theorem getLast?_defaultStep {t : ColumnChange} {diff : ColumnDifference}
    (h : diff.defaultChange = true) :
    (defaultStep d f t diff).getLast? = some (match f.defaultLiteral with
      | some literal => .setDefault t literal
      | none => .dropDefault t) := by
  rw [defaultStep, if_pos h]
  cases f.defaultLiteral with
  | none => rfl
  | some literal =>
    show (d.ddl.replaceDefault t literal).getLast? = some (.setDefault t literal)
    unfold DdlStyle.replaceDefault
    split
    · split
      · rfl
      · rfl
    · rfl

theorem nullableChange_eq_true_iff :
    (f.difference d observed).nullableChange = true ↔ observed.nullable ≠ f.nullable :=
  bne_iff_ne

/-- The parts that the planner puts together are those that the differences call for. -/
theorem isConvergence_parts {fill : List Statement}
    (hfill : e.fillStep d f (f.difference d observed) = .ok fill) :
    IsConvergence e d f observed fill
      (if (f.difference d observed).typeChange then [.alterType (e.changeOf f observed)] else [])
      (defaultStep d f (e.changeOf f observed) (f.difference d observed))
      (if (f.difference d observed).nullableChange &&
            !((f.difference d observed).typeChange && d.ddl.alterTypeStatesNull) then
          [.setNullable (e.changeOf f observed)] else []) where
  filled hobserved hf := by
    have hcond : ((f.difference d observed).nullableChange && !f.nullable) = true := by
      simp [Field.difference, hobserved, hf]
    rcases fillStep_eq_ok hfill with ⟨_, literal, hliteral, rfl⟩ | ⟨hnot, _⟩
    · exact ⟨literal, hliteral, rfl⟩
    · rw [hcond] at hnot
      cases hnot
  unfilled hnot := by
    rcases fillStep_eq_ok hfill with ⟨hcond, _⟩ | ⟨_, rfl⟩
    · obtain ⟨hchange, hf⟩ := Bool.and_eq_true_iff.1 hcond
      rw [Bool.not_eq_true'] at hf
      refine absurd ⟨?_, hf⟩ hnot
      have hne := nullableChange_eq_true_iff.1 hchange
      rw [hf] at hne
      exact Bool.eq_true_of_not_eq_false hne
    · rfl
  typed h := if_pos h
  untyped h := if_neg (by rw [h]; exact Bool.false_ne_true)
  defaulted h := getLast?_defaultStep h
  undefaulted h := if_neg (by rw [h]; exact Bool.false_ne_true)
  onDefault s hs := mem_defaultStep hs
  tightened hne hstates := by
    have hchange := nullableChange_eq_true_iff (d := d).2 hne
    have hbundled : ((f.difference d observed).typeChange && d.ddl.alterTypeStatesNull) = false :=
      hstates
    rw [hchange, hbundled]
    rfl
  untightened h := by
    rcases h with heq | hstates
    · have hchange : (f.difference d observed).nullableChange = false := by
        rw [Bool.eq_false_iff]
        exact fun hc => nullableChange_eq_true_iff.1 hc heq
      rw [hchange]
      rfl
    · have hbundled : ((f.difference d observed).typeChange && d.ddl.alterTypeStatesNull) = true :=
        hstates
      rw [hbundled, Bool.not_true, Bool.and_false]
      rfl

end Entity

/-- Some part is not empty where anything differs. -/
theorem IsConvergence.eq_nil_iff {e : Entity} {d : Dialect} {f : Field} {observed : CatalogColumn}
    {fill type defaults nullability : List Statement}
    (h : IsConvergence e d f observed fill type defaults nullability) :
    fill ++ type ++ defaults ++ nullability = [] ↔ f.difference d observed = ⟨false, false, false⟩ := by
  have hnullable : (f.difference d observed).nullableChange = true ↔
      observed.nullable ≠ f.nullable := Entity.nullableChange_eq_true_iff
  constructor
  · intro hnil
    simp only [List.append_eq_nil_iff] at hnil
    obtain ⟨⟨⟨_, htype⟩, hdefaults⟩, hnull⟩ := hnil
    have ht : (f.difference d observed).typeChange = false := by
      rw [Bool.eq_false_iff]
      intro hc
      rw [h.typed hc] at htype
      cases htype
    have hd : (f.difference d observed).defaultChange = false := by
      rw [Bool.eq_false_iff]
      intro hc
      have hlast := h.defaulted hc
      rw [hdefaults] at hlast
      cases hlast
    have hn : (f.difference d observed).nullableChange = false := by
      rw [Bool.eq_false_iff]
      intro hc
      have hstated := h.tightened (hnullable.1 hc) (by rw [ht]; rfl)
      rw [hnull] at hstated
      cases hstated
    cases hdiff : f.difference d observed with
    | mk typeChange defaultChange nullableChange =>
      rw [hdiff] at ht hd hn
      cases ht
      cases hd
      cases hn
      rfl
  · intro hdiff
    have heq : observed.nullable = f.nullable := by
      by_contra hne
      have hchange := hnullable.2 hne
      rw [hdiff] at hchange
      cases hchange
    have hfill : fill = [] := h.unfilled (by rw [heq]; rintro ⟨ht, hf⟩; rw [ht] at hf; cases hf)
    rw [hfill, h.untyped (by rw [hdiff]), h.undefaulted (by rw [hdiff]), h.untightened (.inl heq)]
    rfl

theorem ColumnDifference.eq_of_isAny_eq_false {c : ColumnDifference} (h : c.isAny = false) :
    c = ⟨false, false, false⟩ := by
  cases c with
  | mk typeChange defaultChange nullableChange =>
    simp only [ColumnDifference.isAny, Bool.or_eq_false_iff] at h
    rw [h.1.1, h.1.2, h.2]

namespace Entity

variable {e : Entity} {d : Dialect} {f : Field} {observed : CatalogColumn}

theorem canHold_of_convergeColumn {statements : List Statement}
    (h : e.convergeColumn d f observed = .ok statements)
    (hchange : (f.difference d observed).typeChange = true) : f.CanHold observed := by
  by_contra hno
  obtain ⟨_, herror⟩ := convergeColumn_of_refused (e := e) hchange hno
  cases h.symm.trans herror

/-- Whatever the planner answers with is the four parts, all of them empty where nothing differs. -/
theorem convergeColumn_eq_parts {statements : List Statement}
    (h : e.convergeColumn d f observed = .ok statements) :
    ∃ fill, e.fillStep d f (f.difference d observed) = .ok fill ∧
      statements = fill
        ++ (if (f.difference d observed).typeChange then
            [.alterType (e.changeOf f observed)] else [])
        ++ defaultStep d f (e.changeOf f observed) (f.difference d observed)
        ++ (if (f.difference d observed).nullableChange &&
              !((f.difference d observed).typeChange && d.ddl.alterTypeStatesNull) then
            [.setNullable (e.changeOf f observed)] else []) := by
  rcases convergeColumn_eq_ok h with ⟨hany, rfl⟩ | ⟨_, fill, hfill, _⟩
  · have hdiff := ColumnDifference.eq_of_isAny_eq_false hany
    have hfill : e.fillStep d f (f.difference d observed) = .ok [] := by
      rw [hdiff]
      rfl
    exact ⟨[], hfill, ((isConvergence_parts hfill).eq_nil_iff.2 hdiff).symm⟩
  · refine ⟨fill, hfill, ?_⟩
    cases hany : (f.difference d observed).isAny with
    | false =>
      cases h.symm.trans (convergeColumn_of_unchanged hany)
      exact ((isConvergence_parts hfill).eq_nil_iff.2
        (ColumnDifference.eq_of_isAny_eq_false hany)).symm
    | true =>
      exact Except.ok.inj
        (h.symm.trans (convergeColumn_of_changed hany (canHold_of_convergeColumn h) hfill))

/-- Where no type is in the way the planner answers with the four parts. -/
theorem exists_convergence (hfill : ∃ literal,
      (d.columnRule f.columnType).fillLiteral f.defaultValue = .ok literal)
    (htype : (f.difference d observed).typeChange = true → f.CanHold observed) :
    ∃ fill type defaults nullability,
      e.convergeColumn d f observed = .ok (fill ++ type ++ defaults ++ nullability) ∧
      IsConvergence e d f observed fill type defaults nullability := by
  obtain ⟨fill, hfill⟩ : ∃ fill, e.fillStep d f (f.difference d observed) = .ok fill :=
    exists_fillStep hfill
  have hparts := isConvergence_parts hfill
  refine ⟨fill, _, _, _, ?_, hparts⟩
  cases hany : (f.difference d observed).isAny with
  | true => exact convergeColumn_of_changed hany htype hfill
  | false =>
    rw [hparts.eq_nil_iff.2 (ColumnDifference.eq_of_isAny_eq_false hany)]
    exact convergeColumn_of_unchanged hany

/-- The planner fails iff the type is to change and the field cannot hold the values there are.
Otherwise it has nothing to do iff nothing differs, and its statements are the four parts. -/
theorem convergeColumn_parts {spec : EntitySpec} (h : Entity.ofSpec d spec = .ok e)
    (hf : f ∈ e.tableFields) (observed : CatalogColumn) :
    ((∃ err, e.convergeColumn d f observed = .error err) ↔
      (f.difference d observed).typeChange = true ∧ ¬f.CanHold observed) ∧
    ∀ statements, e.convergeColumn d f observed = .ok statements →
      (statements = [] ↔ f.difference d observed = ⟨false, false, false⟩) ∧
      ∃ fill type defaults nullability,
        statements = fill ++ type ++ defaults ++ nullability ∧
        IsConvergence e d f observed fill type defaults nullability := by
  obtain ⟨fspec, _, hof⟩ := exists_mem_of_forall₂ (Entity.isOfSpec h).fields.flip
    (mem_tableFields.1 hf).1
  by_cases hrefused : (f.difference d observed).typeChange = true ∧ ¬f.CanHold observed
  · obtain ⟨fault, herror⟩ := convergeColumn_of_refused (e := e) hrefused.1 hrefused.2
    rw [herror]
    refine ⟨iff_of_true ⟨_, rfl⟩ hrefused, ?_⟩
    intro statements hok
    cases hok
  · have htype : (f.difference d observed).typeChange = true → f.CanHold observed :=
      fun hchange => Classical.not_not.1 fun hno => hrefused ⟨hchange, hno⟩
    obtain ⟨fill, type, defaults, nullability, hok, hparts⟩ :=
      exists_convergence (e := e) (Field.exists_fillLiteral hof) htype
    rw [hok]
    refine ⟨iff_of_false ?_ hrefused, ?_⟩
    · rintro ⟨err, herror⟩
      cases herror
    · intro statements heq
      cases heq
      exact ⟨hparts.eq_nil_iff, fill, type, defaults, nullability, rfl, hparts⟩

end Entity

/-- The text of a note as a catalog may report it: shorter, with a default, and perhaps NULL. -/
def looseText : CatalogColumn :=
  { name := "TEXT", typeCode := .varchar, typeName := "VARCHAR", size := 32, nullable := true
    defaultValue := some "x" }

/-- In MySQL a text gets its type, loses its default and may be NULL no longer, all of it stated
with the type but the fill and the default. -/
theorem loose_text_parts :
    ∃ e f, Entity.ofSpec (Dialect.builtin .mysql) (noteSpec "text" "m1" false) = .ok e ∧
      f ∈ e.tableFields ∧ f.difference (Dialect.builtin .mysql) looseText = ⟨true, true, true⟩ ∧
      f.CanHold looseText ∧
      ((∃ err, e.convergeColumn (Dialect.builtin .mysql) f looseText = .error err) ↔
        (f.difference (Dialect.builtin .mysql) looseText).typeChange = true ∧
          ¬f.CanHold looseText) ∧
      ∀ statements, e.convergeColumn (Dialect.builtin .mysql) f looseText = .ok statements →
        (statements = [] ↔
          f.difference (Dialect.builtin .mysql) looseText = ⟨false, false, false⟩) ∧
        ∃ fill type defaults nullability,
          statements = fill ++ type ++ defaults ++ nullability ∧
          IsConvergence e (Dialect.builtin .mysql) f looseText fill type defaults nullability := by
  obtain ⟨e, f, he, hf, hdiff, hhold⟩ : ∃ e f,
      Entity.ofSpec (Dialect.builtin .mysql) (noteSpec "text" "m1" false) = .ok e ∧
      f ∈ e.tableFields ∧ f.difference (Dialect.builtin .mysql) looseText = ⟨true, true, true⟩ ∧
      f.CanHold looseText :=
    ⟨_, _, rfl, List.mem_cons_of_mem _ List.mem_cons_self, by decide, .string, by decide, by decide⟩
  exact ⟨e, f, he, hf, hdiff, hhold, Entity.convergeColumn_parts he hf looseText⟩

end SqlDialects
