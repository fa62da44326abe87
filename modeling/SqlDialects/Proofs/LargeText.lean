import SqlDialects.Proofs.Resizing
import SqlDialects.Proofs.TextDefaults

/-!
# Texts that become large objects

A text is stored in its row or as a large object, by its declared type or by its length. A field that
moves from the one to the other has another declaration, and the planner has to notice that by what
the catalog reports: a type code, and a size where the new type declares one. In PostgreSQL both
kinds of text have one code, and a large object declares no size.

Results:
1. `Field.isInlineText_or_clob`: how texts are stored.
2. `Entity.exists_alterType_iff`: which statements of the planner change a type.
3. `Entity.convergeColumn_movedText_iff`: the moves that the planner notices, and those that it
   refuses; `postgresql_longer_text_unnoticed`: one that it does not notice.
-/

namespace SqlDialects

/-! ## How texts are stored -/

/-- A text or the code of an enumeration, of whatever length. -/
def FieldSpec.IsText (f : FieldSpec) : Prop :=
  f.type = .string ∨ f.type = .enumConstant ∨ f.type = .clob

/-- A text that is stored in its row. -/
def ColumnType.isInlineText : ColumnType → Bool
  | .string | .enumConstant => true
  | _ => false

theorem Field.isInlineText_or_clob {d : Dialect} {spec : FieldSpec} {f : Field}
    (h : Field.ofSpec d spec = .ok f) (htext : spec.IsText) :
    f.columnType.isInlineText = true ∨ f.columnType = .clob := by
  have htype : f.columnType = d.storedType spec.type spec.length := by
    obtain ⟨_, _, h⟩ := bind_eq_ok_iff.1 h
    cases h
    rfl
  rw [htype]
  rcases htext with hs | he | hc
  · rw [hs]
    exact (d.storedType_string spec.length).imp (fun h => by rw [h]; rfl) id
  · rw [he]
    exact .inl rfl
  · rw [hc]
    exact .inr rfl

namespace ColumnRule

theorem eq_string_of_isInlineText (db : Database) {type : ColumnType}
    (h : type.isInlineText = true) :
    ∃ keyword fallback, (Dialect.builtin db).columnRule type = .string type keyword fallback := by
  cases type with
  | string => cases db <;> exact ⟨_, _, rfl⟩
  | enumConstant => cases db <;> exact ⟨_, _, rfl⟩
  | _ => cases h

/-- Only PostgreSQL reports a large text as it reports others. -/
theorem representative_typeCode_clob (db : Database) :
    ((Dialect.builtin db).columnRule .clob).typeCode.representative =
      if db = .postgresql then .varchar else .clob := by
  cases db <;> rfl

/-- A large text declares no size. -/
theorem reportedSize_clob (db : Database) (length precision scale : Nat) :
    ((Dialect.builtin db).columnRule .clob).reportedSize? length precision scale = none := by
  cases db <;> rfl

theorem stringLength_pos (type : ColumnType) (length : Nat) : 0 < stringLength type length := by
  unfold stringLength
  split
  · assumption
  · split
    · decide
    · decide

end ColumnRule

/-- The type that a code and no size stand for, by the code that drivers may report in its place. -/
theorem TypeCode.columnType?_of_clob {code : TypeCode} (h : code.representative = .clob)
    (size scale : Nat) : code.columnType? size scale = some .clob := by
  cases code with
  | longVarchar | clob => rfl
  | _ => cases h

theorem TypeCode.eq_varchar {code : TypeCode} (h : code.representative = .varchar) :
    code = .varchar := by
  cases code with
  | varchar => rfl
  | _ => cases h

/-! ## What the planner compares -/

namespace Field

variable (db : Database) {before f : Field}

theorem typeCode_of_isInlineText (h : before.columnType.isInlineText = true) :
    (before.asReported (Dialect.builtin db)).typeCode = .varchar := by
  obtain ⟨keyword, fallback, hrule⟩ := ColumnRule.eq_string_of_isInlineText db h
  rw [asReported, hrule]
  rfl

/-- A text that is to become a large object is seen to, where the two have codes of their own. -/
theorem typeChange_toLarge (hbefore : before.columnType.isInlineText = true)
    (hf : f.columnType = .clob) :
    (f.difference (Dialect.builtin db) (before.asReported (Dialect.builtin db))).typeChange = true ↔
      db ≠ .postgresql := by
  simp only [difference, hf, ColumnRule.reportedSize_clob, typeCode_of_isInlineText db hbefore,
    TypeCode.sharesStorageWith, ColumnRule.representative_typeCode_clob, Bool.or_false]
  by_cases hdb : db = .postgresql
  · simp [hdb, TypeCode.representative]
  · simp [hdb, TypeCode.representative]

/-- A large object that is to be stored in its row always is: where the codes do not tell, the size
does. -/
theorem typeChange_toInline (hbefore : before.columnType = .clob)
    (hf : f.columnType.isInlineText = true) :
    (f.difference (Dialect.builtin db) (before.asReported (Dialect.builtin db))).typeChange =
      true := by
  obtain ⟨keyword, fallback, hrule⟩ := ColumnRule.eq_string_of_isInlineText db hf
  have hsize : ((Dialect.builtin db).columnRule f.columnType).reportedSize? f.length f.precision
      f.scale = some (ColumnRule.stringLength f.columnType f.length, 0) := by
    rw [hrule]
    rfl
  have hreported : (before.asReported (Dialect.builtin db)).size = 0 := by
    simp only [asReported, hbefore, ColumnRule.reportedSize_clob, Option.getD_none]
  have hpos := ColumnRule.stringLength_pos f.columnType f.length
  simp [difference, hsize, hreported, Nat.ne_of_gt hpos]

theorem canHold_toLarge (hbefore : before.columnType.isInlineText = true)
    (hf : f.columnType = .clob) : f.CanHold (before.asReported (Dialect.builtin db)) := by
  refine ⟨.string, ?_, by rw [hf]; decide⟩
  rw [CatalogColumn.logicalType?, typeCode_of_isInlineText db hbefore]
  rfl

/-- Large objects are not held in a row, but PostgreSQL takes them for strings. -/
theorem canHold_toInline_iff (hbefore : before.columnType = .clob)
    (hf : f.columnType.isInlineText = true) :
    f.CanHold (before.asReported (Dialect.builtin db)) ↔
      db = .postgresql ∧ f.columnType = .string := by
  have hcode := ColumnRule.representative_typeCode_clob db
  have hreported : (before.asReported (Dialect.builtin db)).logicalType? =
      some (if db = .postgresql then .string else .clob) := by
    rw [CatalogColumn.logicalType?, asReported, hbefore]
    by_cases hdb : db = .postgresql
    · rw [if_pos hdb] at hcode ⊢
      rw [TypeCode.eq_varchar hcode]
      rfl
    · rw [if_neg hdb] at hcode ⊢
      exact TypeCode.columnType?_of_clob hcode _ _
  rw [CanHold, hreported]
  by_cases hdb : db = .postgresql
  · cases htype : f.columnType <;> simp_all [ColumnType.isInlineText, ColumnType.takes,
      ColumnType.widensFrom]
  · cases htype : f.columnType <;> simp_all [ColumnType.isInlineText, ColumnType.takes,
      ColumnType.widensFrom]

end Field

/-! ## What the planner answers -/

/-- Whether statements give the column of a field the type that the field declares. -/
def Field.IsTypedBy (f : Field) (statements : List Statement) : Prop :=
  ∃ t, .alterType t ∈ statements ∧ t.column = f.column ∧ t.typeDecl = f.typeDecl

namespace Entity

variable {db : Database} {e : Entity} {d : Dialect} {before f : Field} {observed : CatalogColumn}
  {statements : List Statement}

/-- The planner changes the type exactly if it sees a difference. -/
theorem isTypedBy_iff (h : e.convergeColumn d f observed = .ok statements) :
    f.IsTypedBy statements ↔ (f.difference d observed).typeChange = true := by
  obtain ⟨fill, hfill, rfl⟩ := convergeColumn_eq_parts h
  constructor
  · rintro ⟨t, hmem, -⟩
    simp only [List.mem_append] at hmem
    rcases hmem with ((hmem | hmem) | hmem) | hmem
    · rcases fillStep_eq_ok hfill with ⟨_, literal, _, rfl⟩ | ⟨_, rfl⟩
      · cases List.mem_singleton.1 hmem
      · cases hmem
    · by_contra hsame
      rw [if_neg hsame] at hmem
      cases hmem
    · rcases mem_defaultStep hmem with hs | ⟨literal, _, hs⟩
      · cases hs
      · cases hs
    · split at hmem
      · cases List.mem_singleton.1 hmem
      · cases hmem
  · intro hchange
    refine ⟨e.changeOf f observed, ?_, rfl, rfl⟩
    simp [hchange]

/-- The planner fails where it sees another type and the field cannot hold the values there are. -/
theorem convergeColumn_fails_iff {spec : FieldSpec} (hf : Field.IsOfSpec d spec f) :
    (∃ err, e.convergeColumn d f observed = .error err) ↔
      (f.difference d observed).typeChange = true ∧ ¬f.CanHold observed := by
  constructor
  · rintro ⟨err, herr⟩
    by_contra hnot
    have htype : (f.difference d observed).typeChange = true → f.CanHold observed :=
      fun hchange => Classical.not_not.1 fun hno => hnot ⟨hchange, hno⟩
    obtain ⟨_, _, _, _, hok, -⟩ := exists_convergence (e := e) (Field.exists_fillLiteral hf) htype
    cases herr.symm.trans hok
  · rintro ⟨hchange, hno⟩
    obtain ⟨fault, herr⟩ := convergeColumn_of_refused (e := e) hchange hno
    exact ⟨_, herr⟩

/-- Another type is refused or stated, exactly if the planner sees it. -/
theorem notices_iff {spec : FieldSpec} (hf : Field.IsOfSpec d spec f) :
    ((∃ err, e.convergeColumn d f observed = .error err) ∨
        ∃ statements, e.convergeColumn d f observed = .ok statements ∧ f.IsTypedBy statements) ↔
      (f.difference d observed).typeChange = true := by
  constructor
  · rintro (hfails | ⟨statements, hok, htyped⟩)
    · exact ((convergeColumn_fails_iff hf).1 hfails).1
    · exact (isTypedBy_iff hok).1 htyped
  · intro hchange
    cases hresult : e.convergeColumn d f observed with
    | error err => exact .inl ⟨err, rfl⟩
    | ok statements => exact .inr ⟨statements, rfl, (isTypedBy_iff hresult).2 hchange⟩

/-- Where a text moves between its row and a large object, the planner sees another type, and refuses
it or changes the type of the column, unless the text becomes a large object in PostgreSQL: that is
never noticed. The large objects that are refused are all but those that PostgreSQL stores as
strings. -/
theorem convergeColumn_movedText_iff {beforeSpec spec : FieldSpec}
    (hbefore : Field.ofSpec (Dialect.builtin db) beforeSpec = .ok before)
    (hf : Field.ofSpec (Dialect.builtin db) spec = .ok f) (hold : beforeSpec.IsText)
    (hnew : spec.IsText) (hmoved : before.columnType = .clob ↔ f.columnType ≠ .clob) :
    ((f.difference (Dialect.builtin db) (before.asReported (Dialect.builtin db))).typeChange =
        true ↔ ¬(db = .postgresql ∧ f.columnType = .clob)) ∧
    (((∃ err, e.convergeColumn (Dialect.builtin db) f
          (before.asReported (Dialect.builtin db)) = .error err) ∨
        ∃ statements, e.convergeColumn (Dialect.builtin db) f
          (before.asReported (Dialect.builtin db)) = .ok statements ∧ f.IsTypedBy statements) ↔
      ¬(db = .postgresql ∧ f.columnType = .clob)) ∧
    ((∃ err, e.convergeColumn (Dialect.builtin db) f
        (before.asReported (Dialect.builtin db)) = .error err) ↔
      before.columnType = .clob ∧ ¬(db = .postgresql ∧ f.columnType = .string)) := by
  rw [notices_iff (Field.isOfSpec hf), convergeColumn_fails_iff (Field.isOfSpec hf)]
  rcases Field.isInlineText_or_clob hbefore hold with hinline | hlarge
  · have hnotLarge : before.columnType ≠ .clob := fun h => by
      rw [h] at hinline
      cases hinline
    have hlarge : f.columnType = .clob :=
      Classical.not_not.1 fun hne => hnotLarge (hmoved.2 hne)
    have hchange := Field.typeChange_toLarge db hinline hlarge
    have hhold := Field.canHold_toLarge db hinline hlarge
    have hseen : (f.difference (Dialect.builtin db)
        (before.asReported (Dialect.builtin db))).typeChange = true ↔
          ¬(db = .postgresql ∧ f.columnType = .clob) := by
      rw [hchange, and_iff_left hlarge]
    exact ⟨hseen, hseen, iff_of_false (fun h => h.2 hhold) fun h => hnotLarge h.1⟩
  · have hnotLarge : f.columnType ≠ .clob := hmoved.1 hlarge
    have hinline := (Field.isInlineText_or_clob hf hnew).resolve_right hnotLarge
    have hchange := Field.typeChange_toInline db hlarge hinline
    have hseen := iff_of_true hchange fun h : db = .postgresql ∧ f.columnType = .clob =>
      hnotLarge h.2
    refine ⟨hseen, hseen, ?_⟩
    rw [Field.canHold_toInline_iff db hlarge hinline, and_iff_right hchange, and_iff_right hlarge]

end Entity

/-! ## Notes whose text gets longer -/

/-- A text of some length. -/
def textOf (length : Nat) : FieldSpec := { FieldSpec.named "text" .string with length }

/-- In Oracle a text that no string is long enough for becomes a large object. -/
theorem oracle_longer_text_noticed :
    ∃ e before f,
      Entity.ofSpec (Dialect.builtin .oracle) (noteWith (textOf 5000)) = .ok e ∧
      Field.ofSpec (Dialect.builtin .oracle) (textOf 40) = .ok before ∧
      Field.ofSpec (Dialect.builtin .oracle) (textOf 5000) = .ok f ∧ f ∈ e.tableFields ∧
      (textOf 40).IsText ∧ (textOf 5000).IsText ∧
      before.typeDecl = "VARCHAR2(40)" ∧ f.typeDecl = "CLOB" ∧
      (before.columnType = .clob ↔ f.columnType ≠ .clob) ∧
      ∃ statements, e.convergeColumn (Dialect.builtin .oracle) f
        (before.asReported (Dialect.builtin .oracle)) = .ok statements ∧ f.IsTypedBy statements := by
  obtain ⟨e, before, f, he, hbefore, hf, hmem, hold, hnew, hmoved⟩ : ∃ e before f,
      Entity.ofSpec (Dialect.builtin .oracle) (noteWith (textOf 5000)) = .ok e ∧
      Field.ofSpec (Dialect.builtin .oracle) (textOf 40) = .ok before ∧
      Field.ofSpec (Dialect.builtin .oracle) (textOf 5000) = .ok f ∧ f ∈ e.tableFields ∧
      before.typeDecl = "VARCHAR2(40)" ∧ f.typeDecl = "CLOB" ∧
      (before.columnType = .clob ↔ f.columnType ≠ .clob) :=
    ⟨_, _, _, rfl, rfl, rfl, List.mem_cons_of_mem _ List.mem_cons_self, by decide, by decide,
      by decide⟩
  obtain ⟨-, hnoticed, hrefused⟩ := Entity.convergeColumn_movedText_iff (e := e) hbefore hf
    (.inl rfl) (.inl rfl) hmoved
  refine ⟨e, before, f, he, hbefore, hf, hmem, .inl rfl, .inl rfl, hold, hnew, hmoved, ?_⟩
  refine (hnoticed.2 fun h => absurd h.1 (by decide)).resolve_left fun hfails => ?_
  obtain ⟨hlarge, -⟩ := hrefused.1 hfails
  cases hbefore
  cases hlarge

/-- In PostgreSQL a text of 64 characters at most stays one, although its field is a large object. -/
theorem postgresql_longer_text_unnoticed :
    ∃ e before f,
      Entity.ofSpec (Dialect.builtin .postgresql) (noteWith (FieldSpec.named "text" .clob)) =
        .ok e ∧
      Field.ofSpec (Dialect.builtin .postgresql) (FieldSpec.named "text" .string) = .ok before ∧
      Field.ofSpec (Dialect.builtin .postgresql) (FieldSpec.named "text" .clob) = .ok f ∧
      f ∈ e.tableFields ∧ before.columnType = .string ∧ f.columnType = .clob ∧
      before.typeDecl = "VARCHAR(64)" ∧ f.typeDecl = "TEXT" ∧
      (f.difference (Dialect.builtin .postgresql)
        (before.asReported (Dialect.builtin .postgresql))).typeChange = false ∧
      e.convergeColumn (Dialect.builtin .postgresql) f
        (before.asReported (Dialect.builtin .postgresql)) = .ok [] :=
  ⟨_, _, _, rfl, rfl, rfl, List.mem_cons_of_mem _ List.mem_cons_self, rfl, rfl, by decide, by decide,
    by decide, by decide⟩

end SqlDialects
