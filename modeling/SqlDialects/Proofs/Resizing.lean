import SqlDialects.Proofs.ColumnConvergence

/-!
# Columns that change their size

A field keeps its type and gets another length, precision or scale. The planner compares the new
size with the one that the catalog reports, and before it changes the type it asks which type the
reported code and size stand for. That answer can be another type than the declared one: an exact
number without decimal digits reads as an integer, and a code of an enumeration as a string.

Results:
1. `ColumnRule.takes_of_reportedSize_ne`: a type holds what the catalog makes of its other sizes,
   unless it is that of the codes of an enumeration.
2. `Entity.convergeColumn_refuses_resized_iff`: the only resizing that is refused.
-/

namespace SqlDialects

/-! ## What the catalog makes of a type -/

theorem TypeCode.columnType?_of_representative {code : TypeCode}
    (h : code.representative = .decimal) (size scale : Nat) :
    code.columnType? size scale = some (exactNumber size scale) := by
  cases code with
  | decimal | numeric => rfl
  | _ => cases h

namespace ColumnRule

/-- A rule whose sized types are the exact numbers and the strings, reported as such. -/
def isSizedAsUsual : ColumnRule → Bool
  | .decimal _ code => code.representative == .decimal
  | .string type .. => type == .string || type == .enumConstant
  | .character | .boolean _ | .integer .. | .floating .. | .date _ | .timestamp .. | .clob ..
  | .blob .. => true

theorem isSizedAsUsual_columnRule (db : Database) (type : ColumnType) :
    ((Dialect.builtin db).columnRule type).isSizedAsUsual = true := by
  cases db <;> cases type <;> decide

theorem takes_exactNumber (size scale : Nat) :
    ColumnType.takes .decimal (TypeCode.exactNumber size scale) = true := by
  unfold TypeCode.exactNumber
  split
  · decide
  · split
    · decide
    · split <;> decide

/-- Whether a type is sized does not hang on the size. -/
theorem isSome_reportedSize (p : ColumnRule)
    (length precision scale length' precision' scale' : Nat) :
    (p.reportedSize? length precision scale).isSome =
      (p.reportedSize? length' precision' scale').isSome := by
  cases p <;> rfl

/-- Where two sizes of a type are reported differently, the catalog reports one of a type that the
other holds. Codes of an enumeration are reported as strings, which they do not hold. -/
theorem takes_of_reportedSize_ne {p : ColumnRule} (hp : p.isSizedAsUsual = true)
    {length precision scale length' precision' scale' : Nat}
    (hne : p.reportedSize? length precision scale ≠ p.reportedSize? length' precision' scale') :
    ∃ source, p.typeCode.columnType? ((p.reportedSize? length precision scale).getD (0, 0)).1
        ((p.reportedSize? length precision scale).getD (0, 0)).2 = some source ∧
      (p.columnType.takes source = true ↔ p.columnType ≠ .enumConstant) := by
  cases p with
  | decimal keyword code =>
    have hcode : code.representative = .decimal := beq_iff_eq.1 hp
    have htype : ColumnType.decimal ≠ .enumConstant := by decide
    exact ⟨_, TypeCode.columnType?_of_representative hcode _ _,
      iff_of_true (takes_exactNumber _ _) htype⟩
  | string type keyword fallback =>
    have htype : type = .string ∨ type = .enumConstant := by simpa [isSizedAsUsual] using hp
    refine ⟨.string, rfl, ?_⟩
    show type.takes .string = true ↔ type ≠ .enumConstant
    rcases htype with rfl | rfl <;> decide
  | character | boolean | integer | floating | date | timestamp | clob | blob =>
    exact absurd rfl hne

/-- Nothing but the default itself is at fault where a literal cannot be made. -/
theorem fault_of_defaultLiteral {p : ColumnRule} {raw : String} {err : Error}
    (h : p.defaultLiteral raw = .error err) :
    ∃ type raw fault, err = .invalidDefault type raw fault := by
  cases p with
  | character =>
    simp only [defaultLiteral, characterDefault] at h
    grind
  | boolean style =>
    simp only [defaultLiteral] at h
    grind
  | integer type =>
    simp only [defaultLiteral, integerDefault] at h
    grind
  | floating type =>
    simp only [defaultLiteral, floatingDefault] at h
    grind
  | decimal =>
    simp only [defaultLiteral, decimalDefault] at h
    grind
  | date literal =>
    simp only [defaultLiteral, dateDefault] at h
    grind
  | timestamp type declaration literal =>
    simp only [defaultLiteral, timestampDefault] at h
    grind
  | clob declaration code binding emptyLiteral => cases h
  | blob declaration code binding emptyLiteral =>
    simp only [defaultLiteral] at h
    grind
  | string type keyword fallback => cases h

theorem fault_of_fillLiteral {p : ColumnRule} {raw : Option String} {err : Error}
    (h : p.fillLiteral raw = .error err) :
    ∃ type raw fault, err = .invalidDefault type raw fault := by
  unfold fillLiteral at h
  split at h
  · split at h
    · exact fault_of_defaultLiteral h
    · exact fault_of_defaultLiteral h
  · exact fault_of_defaultLiteral h

end ColumnRule

/-! ## The planner -/

namespace Entity

variable {db : Database} {e : Entity} {before f : Field}

/-- Against what a field of the same type declares, the type changes with the size alone. -/
theorem typeChange_asReported {d : Dialect} (h : before.columnType = f.columnType) :
    (f.difference d (before.asReported d)).typeChange = true ↔
      (d.columnRule f.columnType).reportedSize? before.length before.precision before.scale ≠
        (d.columnRule f.columnType).reportedSize? f.length f.precision f.scale := by
  have hsome := (d.columnRule f.columnType).isSome_reportedSize before.length before.precision
    before.scale f.length f.precision f.scale
  simp only [Field.difference, Field.asReported, h, TypeCode.sharesStorageWith, beq_self_eq_true,
    Bool.not_true, Bool.false_or]
  cases hb : (d.columnRule f.columnType).reportedSize? before.length before.precision
      before.scale with
  | none =>
    have hf := Option.isSome_eq_false_iff.1 (hb ▸ hsome).symm
    simp [Option.isNone_iff_eq_none.1 hf]
  | some size =>
    obtain ⟨size', hf⟩ := Option.isSome_iff_exists.1 (hb ▸ hsome).symm
    simp only [hf, Option.getD_some, bne_iff_ne, ne_eq, Option.some.injEq]
    exact ne_comm

/-- Where NULLs cannot be filled the fault is a default. -/
theorem fault_of_fillStep {d : Dialect} {diff : ColumnDifference} {err : Error}
    (h : e.fillStep d f diff = .error err) :
    ∃ type raw fault, err = .invalidDefault type raw fault := by
  unfold fillStep at h
  split at h
  · cases hl : (d.columnRule f.columnType).fillLiteral f.defaultValue with
    | ok literal =>
      rw [hl] at h
      cases h
    | error other =>
      rw [hl] at h
      cases h
      exact ColumnRule.fault_of_fillLiteral hl
  · cases h

theorem convergeColumn_of_unfilled {d : Dialect} {observed : CatalogColumn} {err : Error}
    (hany : (f.difference d observed).isAny = true)
    (htype : (f.difference d observed).typeChange = true → f.CanHold observed)
    (hfill : e.fillStep d f (f.difference d observed) = .error err) :
    e.convergeColumn d f observed = .error err := by
  simp only [convergeColumn, hany, Bool.not_true, Bool.false_eq_true, if_false]
  cases hchange : (f.difference d observed).typeChange with
  | false =>
    simp only [Bool.false_eq_true, if_false, hfill]
    rfl
  | true =>
    rcases checkTypeChange_eq e f observed with ⟨_, hcheck⟩ | ⟨hno, _⟩
    · simp only [if_true, hcheck, hfill]
      rfl
    · exact absurd (htype hchange) hno

/-- A column is refused for its type alone. -/
theorem convergeColumn_refuses_iff {d : Dialect} {observed : CatalogColumn} :
    (∃ table column fault,
      e.convergeColumn d f observed = .error (.unsupportedAlteration table column fault)) ↔
        (f.difference d observed).typeChange = true ∧ ¬f.CanHold observed := by
  constructor
  · rintro ⟨table, column, fault, h⟩
    by_contra hnot
    have htype : (f.difference d observed).typeChange = true → f.CanHold observed :=
      fun hchange => Classical.not_not.1 fun hno => hnot ⟨hchange, hno⟩
    cases hany : (f.difference d observed).isAny with
    | false =>
      rw [convergeColumn_of_unchanged hany] at h
      cases h
    | true =>
      cases hfill : e.fillStep d f (f.difference d observed) with
      | ok fill =>
        rw [convergeColumn_of_changed hany htype hfill] at h
        cases h
      | error err =>
        obtain ⟨type, raw, cause, rfl⟩ := fault_of_fillStep hfill
        rw [convergeColumn_of_unfilled hany htype hfill] at h
        cases h
  · rintro ⟨hchange, hno⟩
    obtain ⟨fault, h⟩ := convergeColumn_of_refused (e := e) hchange hno
    exact ⟨_, _, fault, h⟩

/-- A field of a sized type can hold what another field of the type declares, if they are not codes
of an enumeration. -/
theorem canHold_asReported_iff (h : before.columnType = f.columnType)
    (hchange : (f.difference (Dialect.builtin db)
      (before.asReported (Dialect.builtin db))).typeChange = true) :
    f.CanHold (before.asReported (Dialect.builtin db)) ↔ f.columnType ≠ .enumConstant := by
  obtain ⟨source, hsource, htakes⟩ := ColumnRule.takes_of_reportedSize_ne
    (ColumnRule.isSizedAsUsual_columnRule db f.columnType) ((typeChange_asReported h).1 hchange)
  have hlogical : (before.asReported (Dialect.builtin db)).logicalType? = some source := by
    rw [← hsource]
    simp only [CatalogColumn.logicalType?, Field.asReported, h]
  rw [Dialect.columnType_columnRule] at htakes
  rw [← htakes, Field.CanHold, hlogical]
  simp

/-- The length of the codes of an enumeration, where none is given too, is all that their size
says. -/
theorem reportedSize_enumConstant (db : Database) (length precision scale : Nat) :
    ((Dialect.builtin db).columnRule .enumConstant).reportedSize? length precision scale =
      some (ColumnRule.stringLength .enumConstant length, 0) := by
  cases db <;> rfl

/-- To give a column another size is never refused, unless it holds the codes of an enumeration:
to change the length of those always is. -/
theorem convergeColumn_refuses_resized_iff (h : before.columnType = f.columnType) :
    (∃ table column fault, e.convergeColumn (Dialect.builtin db) f
        (before.asReported (Dialect.builtin db)) =
          .error (.unsupportedAlteration table column fault)) ↔
      f.columnType = .enumConstant ∧
        ColumnRule.stringLength .enumConstant before.length ≠
          ColumnRule.stringLength .enumConstant f.length := by
  rw [convergeColumn_refuses_iff]
  constructor
  · rintro ⟨hchange, hno⟩
    have henum : f.columnType = .enumConstant := by
      by_contra hne
      exact hno ((canHold_asReported_iff h hchange).2 hne)
    have hsize := (typeChange_asReported h).1 hchange
    rw [henum, reportedSize_enumConstant, reportedSize_enumConstant] at hsize
    exact ⟨henum, fun heq => hsize (by rw [heq])⟩
  · rintro ⟨henum, hlength⟩
    have hchange : (f.difference (Dialect.builtin db)
        (before.asReported (Dialect.builtin db))).typeChange = true := by
      rw [typeChange_asReported h, henum, reportedSize_enumConstant, reportedSize_enumConstant]
      simpa using hlength
    exact ⟨hchange, fun hhold => (canHold_asReported_iff h hchange).1 hhold henum⟩

end Entity

/-! ## Notes with an amount or a state -/

/-- A note with a key and a second field. -/
def noteWith (f : FieldSpec) : EntitySpec :=
  { EntitySpec.named "Note" with
    fields := [(FieldSpec.named "id" .long).asPrimaryKey, f] }

/-- In Oracle an amount of ten digits, which reads as an integer, gets more of them and a
fraction. -/
theorem wider_amount_refuses_iff :
    ∃ e before f,
      Entity.ofSpec (Dialect.builtin .oracle)
        (noteWith { FieldSpec.named "amount" .decimal with precision := 18, scale := 2 }) = .ok e ∧
      Field.ofSpec (Dialect.builtin .oracle)
        { FieldSpec.named "amount" .decimal with precision := 10 } = .ok before ∧
      f ∈ e.tableFields ∧ before.columnType = f.columnType ∧
      (before.asReported (Dialect.builtin .oracle)).logicalType? = some .integer ∧
      ((∃ table column fault, e.convergeColumn (Dialect.builtin .oracle) f
          (before.asReported (Dialect.builtin .oracle)) =
            .error (.unsupportedAlteration table column fault)) ↔
        f.columnType = .enumConstant ∧
          ColumnRule.stringLength .enumConstant before.length ≠
            ColumnRule.stringLength .enumConstant f.length) := by
  obtain ⟨e, before, f, he, hbefore, hf, htype, hread⟩ : ∃ e before f,
      Entity.ofSpec (Dialect.builtin .oracle)
        (noteWith { FieldSpec.named "amount" .decimal with precision := 18, scale := 2 }) = .ok e ∧
      Field.ofSpec (Dialect.builtin .oracle)
        { FieldSpec.named "amount" .decimal with precision := 10 } = .ok before ∧
      f ∈ e.tableFields ∧ before.columnType = f.columnType ∧
      (before.asReported (Dialect.builtin .oracle)).logicalType? = some .integer :=
    ⟨_, _, _, rfl, rfl, List.mem_cons_of_mem _ List.mem_cons_self, rfl, rfl⟩
  exact ⟨e, before, f, he, hbefore, hf, htype, hread,
    Entity.convergeColumn_refuses_resized_iff htype⟩

/-- In HSQLDB the states of a note cannot get longer codes: their column is taken for one of
strings. -/
theorem longer_state_refused :
    ∃ e before f,
      Entity.ofSpec (Dialect.builtin .hsqldb)
        (noteWith { FieldSpec.named "state" .enumConstant with length := 20 }) = .ok e ∧
      Field.ofSpec (Dialect.builtin .hsqldb)
        { FieldSpec.named "state" .enumConstant with length := 10 } = .ok before ∧
      f ∈ e.tableFields ∧ before.columnType = f.columnType ∧
      e.convergeColumn (Dialect.builtin .hsqldb) f (before.asReported (Dialect.builtin .hsqldb)) =
        .error (.unsupportedAlteration "NOTE" "STATE" (.notConvertible .string .enumConstant)) :=
  ⟨_, _, _, rfl, rfl, List.mem_cons_of_mem _ List.mem_cons_self, rfl, rfl⟩

end SqlDialects
