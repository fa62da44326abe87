import SqlDialects.Proofs.StatementText
import SqlDialects.Proofs.UpToDate

/-!
# Placeholders and parameters, columns and results

The text of a statement and the list of its parameters are made separately. A database puts them
together by number alone: the first parameter goes to the first placeholder. This module shows that
they agree for every statement on rows, whatever the names of the columns are and however the
condition is nested: the column that a placeholder is compared with, or whose value it is, is the
column of the field that its parameter stands for.

Results:
1. `Entity.statements_aligned`: the statements by key, the insertion, the count and the queries of
   an entity, in either layout.
2. `isAligned_of_compares`, `selectsFields_of_reads`: what a text has to be read as.
-/

namespace SqlDialects

/-! ## Reading a statement -/

/-- A name, without its quotes. -/
def Token.name? : Token → Option String
  | .name text => some text
  | .keyword _ | .number _ | .mark _ | .unclosed _ => none

/-- The columns in the first parentheses of a statement. -/
def listedColumns (ts : List Token) : List String :=
  ((ts.dropWhile (· != .mark '(')).takeWhile (· != .mark ')')).filterMap Token.name?

/-- The column that each placeholder of a statement belongs to, in order: of an insertion the listed
column of the same place, and otherwise the one that it is compared with or assigned to. -/
def operandColumns (ts : List Token) : List (Option String) :=
  if ts.head? = some (.keyword "INSERT") then
    (List.range (ts.count (.mark '?'))).map fun i => (listedColumns ts)[i]?
  else Focus.operands {} ts

/-- The columns that a query selects. -/
def selectedColumns (ts : List Token) : List String :=
  (ts.takeWhile (· != .keyword "FROM")).filterMap Token.name?

/-- The parameters of a statement are numbered, and each of them belongs to the column of its field
in the text. -/
structure PreparedStatement.IsAligned (d : Dialect) (e : Entity) (s : PreparedStatement) :
    Prop where
  /-- The text has as many placeholders as there are parameters. -/
  count : ∀ l, (s.command.text l).toList.count '?' = s.parameters.length
  numbered : s.parameters.map (·.index) = List.range' 1 s.parameters.length
  operands : ∀ l, operandColumns (d.naming.tokens (s.command.text l)) =
    s.parameters.map (·.column d.naming e)
  /-- No parameter is without a field of the entity. -/
  named : ∀ p ∈ s.parameters, (p.column d.naming e).isSome = true

/-- The results of a statement are numbered, and each of them names the field of the selected column
of its place. -/
structure PreparedStatement.SelectsFields (d : Dialect) (e : Entity) (s : PreparedStatement) :
    Prop where
  numbered : s.results.map (·.column) = (List.range' 1 s.results.length).map .index
  columns : ∀ l, (selectedColumns (d.naming.tokens (s.command.text l))).map some =
    s.results.map fun result => e.columnNamed d.naming result.field

/-- A description none of whose names holds a placeholder. -/
structure EntitySpec.HasNoPlaceholder (spec : EntitySpec) : Prop where
  schema : ∀ s ∈ spec.schema, '?' ∉ s.toList
  table : '?' ∉ spec.table.toList
  view : ∀ s ∈ spec.view, '?' ∉ s.toList
  columns : ∀ f ∈ spec.fields, '?' ∉ f.column.toList

section Statements

variable {db : Database} {e : Entity}

theorem isAligned_of_compares {s : PreparedStatement}
    (htext : ∀ l, ∃ ts, (Dialect.builtin db).naming.Reads (s.command.text l) ts ∧
      ts.head? ≠ some (.keyword "INSERT") ∧
      Compares ts (s.parameters.map (·.column (Dialect.builtin db).naming e)))
    (hnumbered : s.parameters.map (·.index) = List.range' 1 s.parameters.length)
    (hnamed : ∀ p ∈ s.parameters, (p.column (Dialect.builtin db).naming e).isSome = true) :
    s.IsAligned (Dialect.builtin db) e where
  count l := by
    obtain ⟨ts, hreads, -, hcompares⟩ := htext l
    have hclean : ∀ t ∈ (Dialect.builtin db).naming.tokens (s.command.text l), t.IsClean := by
      rw [hreads.2]
      exact hcompares.clean
    rw [Naming.count_placeholder (Naming.isBuiltin db).hasOwnQuotes hclean, hreads.2,
      ← Focus.length_operands {}, hcompares.operands {} rfl, List.length_map]
  numbered := hnumbered
  operands l := by
    obtain ⟨ts, hreads, hhead, hcompares⟩ := htext l
    rw [hreads.2, operandColumns, if_neg hhead, hcompares.operands {} rfl]
  named := hnamed

theorem names_columnTokens (r : Naming) (fields : List Field) :
    (r.columnTokens fields).filterMap Token.name? = fields.map fun f => r.folded f.column.raw := by
  have hcomma : [Token.mark ','].filterMap Token.name? = [] := rfl
  rw [Naming.columnTokens, filterMap_intercalate hcomma]
  exact List.map_eq_flatMap.symm

/-- The columns of a query are the names up to `FROM`, whatever leads them. -/
theorem selectedColumns_query {r : Naming} {lead rest : List Token} {fields : List Field}
    (hlead : ∀ t ∈ lead, t.isFiller = true) :
    selectedColumns ((.keyword "SELECT" :: (lead ++ r.columnTokens fields)) ++
      .keyword "FROM" :: rest) = (r.columnTokens fields).filterMap Token.name? := by
  have hfiller : ∀ t ∈ lead, (t != .keyword "FROM") = true ∧ t.name? = none := by
    intro t ht
    have h := hlead t ht
    cases t with
    | keyword word =>
      have hw : word ≠ "FROM" := by simpa using (Bool.and_eq_true_iff.1 h).1
      simp [hw, Token.name?]
    | number text => simp [Token.name?]
    | name text => cases h
    | mark c => cases h
    | unclosed text => cases h
  have hcolumns : ∀ t ∈ r.columnTokens fields, (t != .keyword "FROM") = true :=
    forall_mem_intercalate (by simp) fun f _ => by simp
  have hbefore : ∀ t ∈ (.keyword "SELECT" :: (lead ++ r.columnTokens fields)),
      (t != .keyword "FROM") = true :=
    List.forall_mem_cons.2 ⟨by simp, List.forall_mem_append.2
      ⟨fun t ht => (hfiller t ht).1, hcolumns⟩⟩
  have hnone : lead.filterMap Token.name? = [] :=
    List.filterMap_eq_nil_iff.2 fun t ht => (hfiller t ht).2
  rw [selectedColumns, List.takeWhile_append_of_pos hbefore,
    List.takeWhile_cons_of_neg (by simp), List.append_nil, List.filterMap_cons_none rfl,
    List.filterMap_append, hnone, List.nil_append]

theorem selectsFields_of_reads {s : PreparedStatement} {fields : List Field}
    (hfields : ∀ f ∈ fields, e.field f.name = .ok f) (hresults : s.results = Entity.results fields)
    (htext : ∀ l, ∃ lead rest : List Token, (Dialect.builtin db).naming.Reads (s.command.text l)
      (.keyword "SELECT" :: ((lead ++ (Dialect.builtin db).naming.columnTokens fields) ++
        .keyword "FROM" :: rest)) ∧ ∀ t ∈ lead, t.isFiller = true) :
    s.SelectsFields (Dialect.builtin db) e where
  numbered := by
    rw [hresults]
    refine List.ext_getElem (by simp) fun i h1 h2 => ?_
    simp [Entity.results, Field.result, Nat.add_comm]
  columns l := by
    obtain ⟨lead, rest, hreads, hlead⟩ := htext l
    have hcolumns : (selectedColumns ((Dialect.builtin db).naming.tokens (s.command.text l))) =
        fields.map fun f => (Dialect.builtin db).naming.folded f.column.raw := by
      rw [hreads.2, ← List.cons_append, selectedColumns_query hlead, names_columnTokens]
    rw [hcolumns, hresults]
    refine List.ext_getElem (by simp [Entity.results]) fun i h1 h2 => ?_
    have hi : i < fields.length := by simpa using h1
    simp [Entity.results, Field.result, Entity.columnNamed, hfields _ (List.getElem_mem hi),
      Except.toOption]

/-- An entity whose columns, table and view are written as names without placeholders, and whose
fields are told apart by theirs. -/
structure Entity.IsPlain (r : Naming) (e : Entity) : Prop where
  columns : e.HasNamedColumns r
  table : r.IsSource e.table.written
  view : ∀ v ∈ e.view, r.IsSource v.written
  names : (e.fields.map (·.name)).Nodup

/-- The entity of a description is plain where the description is. -/
theorem isPlain_of_ofSpec {spec : EntitySpec} (he : Entity.ofSpec (Dialect.builtin db) spec = .ok e)
    (hnames : (spec.fields.map (·.name)).Nodup) (hspec : spec.HasNoPlaceholder) :
    e.IsPlain (Dialect.builtin db).naming := by
  have hr := Naming.isBuiltin db
  have hof := Entity.isOfSpec he
  have hdefault : ∀ s ∈ (Dialect.builtin db).naming.defaultSchema, '?' ∉ s.toList := by
    cases db <;> decide
  have hschema : ∀ s ∈ spec.schema.or (Dialect.builtin db).naming.defaultSchema,
      '?' ∉ s.toList := by
    cases hs : spec.schema with
    | none => simpa using hdefault
    | some schema => simpa [hs] using hspec.schema schema
  obtain ⟨fields, -, hbuild⟩ := bind_eq_ok_iff.1 he
  obtain rfl := pure_eq_ok_iff.1 hbuild
  refine ⟨fun f hf => ?_, Naming.isSource_writtenIn hr hschema hspec.table, fun v hv => ?_, ?_⟩
  · obtain ⟨fspec, hmem, hfield⟩ := exists_mem_of_forall₂ hof.fields.flip hf
    rw [hfield.column]
    exact ⟨rfl, hspec.columns fspec hmem⟩
  · obtain ⟨view, hview, rfl⟩ := Option.mem_map.1 hv
    exact Naming.isSource_writtenIn hr hschema (hspec.view view hview)
  · have hsame := map_eq_of_forall₂ (f := (·.name)) (g := (·.name)) hof.fields
      fun _ _ hf => hf.name.symm
    exact hsame ▸ hnames

/-! ## Insertions -/

section Insertion

variable {table columns : List Token} {k : Nat}

open Naming (insertTokens)

theorem count_insertTokens (ht : ∀ t ∈ table, t.isSource = true)
    (hc : ∀ t ∈ columns, t.isQuiet = true) :
    (∀ t ∈ insertTokens table columns k, t.IsClean) ∧
      (insertTokens table columns k).count (.mark '?') = k := by
  have hnone {ts : List Token} (h : ∀ t ∈ ts, t.isQuiet = true) : ts.count (.mark '?') = 0 :=
    List.count_eq_zero.2 fun hm => absurd (h _ hm) (by simp [Token.isQuiet])
  have hquiet : ∀ t ∈ table, t.isQuiet = true := fun t hm => Token.isQuiet_of_isSource (ht t hm)
  obtain ⟨hstill, hcount⟩ := ConditionRule.isStill_placeholders k
  constructor
  · have htable : ∀ t ∈ table, t.IsClean := fun t hm => Token.isClean_of_isQuiet (hquiet t hm)
    have hcolumns : ∀ t ∈ columns, t.IsClean := fun t hm => Token.isClean_of_isQuiet (hc t hm)
    have hmarks := fun t hm => Token.isClean_of_isStill (hstill t hm)
    have hwords : ∀ t ∈ [Token.keyword "INSERT", .keyword "INTO"], t.IsClean := by
      simp [Token.IsClean]
    have hvalues : ∀ t ∈ [Token.mark ')', .keyword "VALUES", .mark '('], t.IsClean := by
      simp [Token.IsClean]
    have hclose : ∀ t ∈ [Token.mark ')'], t.IsClean := by simp [Token.IsClean]
    refine List.forall_mem_append.2 ⟨hwords, List.forall_mem_append.2 ⟨htable,
      List.forall_mem_cons.2 ⟨trivial, List.forall_mem_append.2 ⟨hcolumns, ?_⟩⟩⟩⟩
    exact List.forall_mem_append.2 ⟨hvalues,
      List.forall_mem_append.2 ⟨hmarks, hclose⟩⟩
  · simp [insertTokens, hnone hquiet, hnone hc, hcount]

/-- The columns in the first parentheses are those that the insertion lists. -/
theorem listedColumns_insertTokens (ht : ∀ t ∈ table, t.isSource = true)
    (hc : ∀ t ∈ columns, t ≠ .mark ')') :
    listedColumns (insertTokens table columns k) = columns.filterMap Token.name? := by
  have hbefore : ∀ t ∈ [Token.keyword "INSERT", .keyword "INTO"] ++ table,
      (t != .mark '(') = true := by
    refine List.forall_mem_append.2 ⟨by simp, fun t hm => ?_⟩
    have hs := ht t hm
    by_cases he : t = .mark '('
    · subst he
      cases hs
    · simpa using he
  have hinside : ∀ t ∈ .mark '(' :: columns, (t != .mark ')') = true :=
    List.forall_mem_cons.2 ⟨by simp, fun t hm => by simpa using hc t hm⟩
  rw [insertTokens, ← List.append_assoc, listedColumns, List.dropWhile_append_of_pos hbefore,
    List.dropWhile_cons_of_neg (by simp), ← List.cons_append,
    List.takeWhile_append_of_pos hinside, List.takeWhile_cons_of_neg (by simp), List.append_nil,
    List.filterMap_cons_none rfl]

end Insertion

/-! ## Statements by key -/

namespace Entity

variable {r : Naming} {fields : List Field}

theorem columns_parameters (hf : ∀ f ∈ fields, e.field f.name = .ok f) :
    (parameters fields).map (·.column r e) = fields.map fun f => some (r.folded f.column.raw) := by
  refine List.ext_getElem (by simp [parameters]) fun i h1 h2 => ?_
  have hi : i < fields.length := by simpa using h2
  simp [parameters, column_parameter (hf _ (List.getElem_mem hi))]

theorem index_parameters (fields : List Field) :
    (parameters fields).map (·.index) = List.range' 1 (parameters fields).length := by
  refine List.ext_getElem (by simp) fun i h1 h2 => ?_
  simp [parameters, Field.parameter, Nat.add_comm]

theorem isSome_column_parameters (hf : ∀ f ∈ fields, e.field f.name = .ok f) :
    ∀ p ∈ parameters fields, (p.column r e).isSome = true := by
  have hall : ∀ o ∈ (parameters fields).map (·.column r e), o.isSome = true := by
    rw [columns_parameters hf]
    exact List.forall_mem_map.2 fun _ _ => rfl
  exact List.forall_mem_map.1 hall

theorem mem_fields_of_key {withVersion : Bool} {key : List Field}
    (h : e.key withVersion = .ok key) : ∀ f ∈ key, f ∈ e.fields := by
  have hprimary {f : Field} (hf : e.primaryField = .ok f) : f ∈ e.fields := by
    unfold primaryField at hf
    split at hf
    · next g hg =>
      obtain rfl := Except.ok.inj hf
      exact List.mem_of_find?_eq_some hg
    · cases hf
  have hversion {f : Field} (hf : e.versionField = .ok f) : f ∈ e.fields := by
    unfold versionField at hf
    split at hf
    · next g hg =>
      obtain rfl := Except.ok.inj hf
      exact List.mem_of_find?_eq_some hg
    · cases hf
  unfold Entity.key at h
  split at h
  · obtain ⟨version, hv, h⟩ := bind_eq_ok_iff.1 h
    obtain ⟨primary, hp, h⟩ := bind_eq_ok_iff.1 h
    obtain rfl := pure_eq_ok_iff.1 h
    exact List.forall_mem_cons.2 ⟨hprimary hp, List.forall_mem_singleton.2 (hversion hv)⟩
  · obtain ⟨primary, hp, h⟩ := bind_eq_ok_iff.1 h
    obtain rfl := pure_eq_ok_iff.1 h
    exact List.forall_mem_singleton.2 (hprimary hp)

/-- The placeholders of an insertion belong to the columns listed before them. -/
theorem isAligned_of_insert (h : e.IsPlain (Dialect.builtin db).naming)
    (hf : ∀ f ∈ fields, f ∈ e.fields) :
    (PreparedStatement.mk (.insert e.table.written (writtenColumns fields)) (parameters fields)
      []).IsAligned (Dialect.builtin db) e := by
  have hfields : ∀ f ∈ fields, e.field f.name = .ok f := fun f hm => field_of_mem h.names (hf f hm)
  obtain ⟨tts, htable, hsource⟩ := h.table
  have hreads (l : Layout) :=
    Naming.reads_insert (Naming.isBuiltin db) l h.columns hf htable
  have hlength : (parameters fields).length = fields.length := by simp [parameters]
  have hcolumns : ∀ t ∈ (Dialect.builtin db).naming.columnTokens fields, t ≠ .mark ')' :=
    forall_mem_intercalate (by simp) fun f _ => by simp
  obtain ⟨hclean, hcount⟩ := count_insertTokens hsource
    (Naming.isQuiet_columnTokens h.columns hf) (k := fields.length)
  refine ⟨fun l => ?_, index_parameters fields, fun l => ?_, isSome_column_parameters hfields⟩
  · have htokens : ∀ t ∈ (Dialect.builtin db).naming.tokens
        ((Command.insert e.table.written (writtenColumns fields)).text l), t.IsClean := by
      rw [(hreads l).2]
      exact hclean
    rw [Naming.count_placeholder (Naming.isBuiltin db).hasOwnQuotes htokens, (hreads l).2, hcount,
      hlength]
  · have hhead : (Naming.insertTokens tts ((Dialect.builtin db).naming.columnTokens fields)
        fields.length).head? = some (.keyword "INSERT") := rfl
    rw [(hreads l).2, operandColumns, if_pos hhead, hcount,
      listedColumns_insertTokens hsource hcolumns, names_columnTokens]
    refine Eq.trans ?_ (columns_parameters hfields).symm
    refine List.ext_getElem (by simp) fun i h1 h2 => ?_
    have hi : i < fields.length := by simpa using h2
    simp [hi]

theorem isAligned_insert (h : e.IsPlain (Dialect.builtin db).naming) :
    e.insert.IsAligned (Dialect.builtin db) e :=
  isAligned_of_insert h fun _ hf => (mem_tableFields.1 (List.mem_of_mem_filter hf)).1

theorem isAligned_findByKey (h : e.IsPlain (Dialect.builtin db).naming) {withVersion : Bool}
    {s : PreparedStatement} (hs : e.findByKey withVersion = .ok s) :
    s.IsAligned (Dialect.builtin db) e ∧ s.SelectsFields (Dialect.builtin db) e := by
  obtain ⟨key, hkey, hs⟩ := bind_eq_ok_iff.1 hs
  obtain rfl := pure_eq_ok_iff.1 hs
  have hr := Naming.isBuiltin db
  have hmem := mem_fields_of_key hkey
  have hfields : ∀ f ∈ e.tableFields, f ∈ e.fields := fun f hf => (mem_tableFields.1 hf).1
  have hkeyField : ∀ f ∈ key, e.field f.name = .ok f := fun f hf => field_of_mem h.names (hmem f hf)
  obtain ⟨tts, htable, hsource⟩ := h.table
  have hreads (l : Layout) := Naming.reads_find hr l h.columns hfields hmem htable
  constructor
  · refine isAligned_of_compares (fun l => ⟨_, hreads l, by simp, ?_⟩) (index_parameters key)
      (isSome_column_parameters hkeyField)
    rw [columns_parameters hkeyField]
    exact Naming.compares_query (Naming.isQuiet_columnTokens h.columns hfields)
      (fun t ht => Token.isQuiet_of_isSource (hsource t ht))
      (Naming.compares_keyTokens h.columns hmem)
  · exact selectsFields_of_reads (fun f hf => field_of_mem h.names (hfields f hf)) rfl
      fun l => ⟨[], _, hreads l, by simp⟩

theorem isAligned_updateByKey (h : e.IsPlain (Dialect.builtin db).naming) {withVersion : Bool}
    {s : PreparedStatement} (hs : e.updateByKey withVersion = .ok s) :
    s.IsAligned (Dialect.builtin db) e := by
  obtain ⟨key, hkey, hs⟩ := bind_eq_ok_iff.1 hs
  obtain rfl := pure_eq_ok_iff.1 hs
  have hr := Naming.isBuiltin db
  have hmem := mem_fields_of_key hkey
  have hfields : ∀ f ∈ e.tableFields.filter fun f => !f.primaryKey, f ∈ e.fields :=
    fun f hf => (mem_tableFields.1 (List.mem_of_mem_filter hf)).1
  have hall : ∀ f ∈ (e.tableFields.filter fun f => !f.primaryKey) ++ key,
      e.field f.name = .ok f :=
    fun f hf => field_of_mem h.names ((List.mem_append.1 hf).elim (hfields f) (hmem f))
  obtain ⟨tts, htable, hsource⟩ := h.table
  refine isAligned_of_compares
    (fun l => ⟨_, Naming.reads_update hr l h.columns hfields hmem htable, by simp, ?_⟩)
    (index_parameters _) (isSome_column_parameters hall)
  rw [columns_parameters hall, List.map_append]
  have hupdate : Compares [.keyword "UPDATE"] [] := .of_isQuiet (by simp [Token.isQuiet])
  have hset : Compares [.keyword "SET"] [] := .of_isQuiet (by simp [Token.isQuiet])
  have hcomma : Compares [.mark ','] [] := .of_isQuiet (by simp [Token.isQuiet])
  have hname := Compares.of_isQuiet fun t ht => Token.isQuiet_of_isSource (hsource t ht)
  have hassign := hset.append ((Naming.compares_equations h.columns hfields hcomma).append
    (Naming.compares_keyTokens h.columns hmem))
  simpa using hupdate.append (hname.append hassign)

theorem isAligned_deleteByKey (h : e.IsPlain (Dialect.builtin db).naming) {withVersion : Bool}
    {s : PreparedStatement} (hs : e.deleteByKey withVersion = .ok s) :
    s.IsAligned (Dialect.builtin db) e := by
  obtain ⟨key, hkey, hs⟩ := bind_eq_ok_iff.1 hs
  obtain rfl := pure_eq_ok_iff.1 hs
  have hr := Naming.isBuiltin db
  have hmem := mem_fields_of_key hkey
  have hkeyField : ∀ f ∈ key, e.field f.name = .ok f := fun f hf => field_of_mem h.names (hmem f hf)
  obtain ⟨tts, htable, hsource⟩ := h.table
  refine isAligned_of_compares
    (fun l => ⟨_, Naming.reads_delete hr l h.columns hmem htable, by simp, ?_⟩)
    (index_parameters key) (isSome_column_parameters hkeyField)
  rw [columns_parameters hkeyField]
  have hdelete : Compares [.keyword "DELETE", .keyword "FROM"] [] :=
    .of_isQuiet (by simp [Token.isQuiet])
  have hname := Compares.of_isQuiet fun t ht => Token.isQuiet_of_isSource (hsource t ht)
  exact hdelete.append (hname.append (Naming.compares_keyTokens h.columns hmem))

/-! ## The count and the queries -/

/-- The parameters of the condition of a query. -/
def filterParameters (filter : Option BoundCondition) : List Parameter :=
  filter.elim [] fun c => numbered c.parameters

theorem index_filterParameters (filter : Option BoundCondition) :
    (filterParameters filter).map (·.index) =
      List.range' 1 (filterParameters filter).length := by
  cases filter with
  | none => rfl
  | some c => exact index_numbered c.parameters

theorem column_filterParameters (filter : Option BoundCondition) :
    (filterParameters filter).map (·.column r e) =
      (filter.elim [] (·.parameters)).map (·.column r e) := by
  cases filter with
  | none => rfl
  | some c => exact column_numbered c.parameters

theorem isSome_column_filterParameters {filter : Option BoundCondition}
    (hfilter : ∀ c ∈ filter, c.IsBuilt (Dialect.builtin db) e) :
    ∀ p ∈ filterParameters filter, (p.column (Dialect.builtin db).naming e).isSome = true := by
  have hall : ∀ o ∈ (filter.elim [] (·.parameters)).map
      (·.column (Dialect.builtin db).naming e), o.isSome = true := by
    cases filter with
    | none => exact fun _ h => absurd h List.not_mem_nil
    | some c => exact List.forall_mem_map.2 (hfilter c rfl).isSome_column
  rw [← column_filterParameters] at hall
  exact List.forall_mem_map.1 hall

/-- A query is aligned, whatever it selects and from where, if its condition is built and nothing
else in it compares a column. -/
theorem isAligned_of_query {filter : Option BoundCondition}
    (h : e.IsPlain (Dialect.builtin db).naming)
    (hfilter : ∀ c ∈ filter, c.IsBuilt (Dialect.builtin db) e) {s : PreparedStatement}
    (hparameters : s.parameters = filterParameters filter) {hts sts : List Token}
    (hhead : ∀ t ∈ hts, t.isQuiet = true) (hsource : ∀ t ∈ sts, t.isQuiet = true)
    (hreads : ∀ l, ∃ tail : List Token, (Dialect.builtin db).naming.Reads (s.command.text l)
      (.keyword "SELECT" :: (hts ++ .keyword "FROM" ::
        (sts ++ ((Dialect.builtin db).naming.filterTokens filter ++ tail)))) ∧
      ∀ t ∈ tail, t.isQuiet = true) :
    s.IsAligned (Dialect.builtin db) e := by
  refine isAligned_of_compares (fun l => ?_) (hparameters ▸ index_filterParameters filter)
    (hparameters ▸ isSome_column_filterParameters hfilter)
  obtain ⟨tail, hread, htail⟩ := hreads l
  have hclause := (Naming.compares_filterTokens h.columns hfilter).append (.of_isQuiet htail)
  rw [List.append_nil, ← column_filterParameters, ← hparameters] at hclause
  exact ⟨_, hread, by simp, Naming.compares_query hhead hsource hclause⟩

theorem isAligned_count (h : e.IsPlain (Dialect.builtin db).naming)
    {filter : Option BoundCondition} (hfilter : ∀ c ∈ filter, c.IsBuilt (Dialect.builtin db) e) :
    (e.count filter).IsAligned (Dialect.builtin db) e := by
  have hr := Naming.isBuiltin db
  obtain ⟨tts, htable, hsource⟩ := h.table
  have hhead : (Dialect.builtin db).naming.Reads "COUNT(*)"
      ((Dialect.builtin db).naming.tokens "COUNT(*)") ∧
        ∀ t ∈ (Dialect.builtin db).naming.tokens "COUNT(*)", t.isQuiet = true := by
    cases db <;> decide +kernel
  have hparameters : (e.count filter).parameters = filterParameters filter := by
    cases filter <;> rfl
  refine isAligned_of_query h hfilter hparameters hhead.2
    (fun t ht => Token.isQuiet_of_isSource (hsource t ht)) fun l => ⟨[], ?_, by simp⟩
  obtain ⟨hstart, hclause⟩ := Naming.reads_filterClause l h.columns hfilter
  have hreads := Naming.reads_query hr l hhead.1 htable hclause hstart
  rw [← Command.text_count] at hreads
  rw [List.append_nil]
  exact hreads

/-- Every query that is made selects the fields and orders by the columns that it sees, and what
its window is written as stands at one place. -/
theorem select_eq_ok {q : Query} {d : Dialect} {s : PreparedStatement}
    (h : q.select d e = .ok s) :
    ∃ fields order afterSelect afterWhere atEnd, q.selected e = .ok fields ∧
      q.order e = .ok order ∧ d.window.afterSelect q.offset q.limit = .ok afterSelect ∧
      (afterWhere = none ∨
        d.window.afterWhere q.offset q.limit q.filter.isSome = .ok afterWhere) ∧
      (atEnd = none ∨ atEnd = d.window.atEnd q.offset q.limit) ∧
      s = {
        command := .select {
          distinct := q.distinct
          afterSelect := afterSelect.getD ""
          columns := writtenColumns fields
          source := q.source e
          filter := q.filter.map (·.condition)
          afterWhere := afterWhere.getD ""
          order
          atEnd := atEnd.getD "" }
        parameters := filterParameters q.filter
        results := results fields } := by
  obtain ⟨fields, hfields, h⟩ := bind_eq_ok_iff.1 h
  obtain ⟨_, -, h⟩ := bind_eq_ok_iff.1 h
  obtain ⟨afterSelect, hselect, h⟩ := bind_eq_ok_iff.1 h
  cases afterSelect with
  | some text =>
    obtain ⟨afterWhere, hnone, h⟩ := bind_eq_ok_iff.1 h
    obtain rfl := pure_eq_ok_iff.1 hnone
    obtain ⟨order, horder, h⟩ := bind_eq_ok_iff.1 h
    obtain rfl := pure_eq_ok_iff.1 h
    refine ⟨fields, order, some text, none, none, hfields, horder, hselect, .inl rfl, .inl rfl, ?_⟩
    obtain ⟨_, _ | filter⟩ := q <;> rfl
  | none =>
    obtain ⟨afterWhere, hwhere, h⟩ := bind_eq_ok_iff.1 h
    obtain ⟨order, horder, h⟩ := bind_eq_ok_iff.1 h
    obtain rfl := pure_eq_ok_iff.1 h
    have hatEnd (o : Option String) :
        (if afterWhere.isSome then none else o) = none ∨
          (if afterWhere.isSome then none else o) = o := by
      cases afterWhere with
      | none => exact .inr rfl
      | some text => exact .inl rfl
    refine ⟨fields, order, none, afterWhere, _, hfields, horder, hselect, .inr hwhere, hatEnd _, ?_⟩
    obtain ⟨_, _ | filter⟩ := q <;> rfl

theorem mem_fields_of_visibleField {q : Query} {name : String} {f : Field}
    (h : q.visibleField e name = .ok f) : f ∈ e.fields := by
  unfold Query.visibleField at h
  split at h
  · exact (field_eq_ok h).1
  · exact (field_eq_ok (tableField_eq_ok_iff.1 h).1).1

theorem mem_fields_of_selected {q : Query} {fields : List Field} (h : q.selected e = .ok fields) :
    ∀ f ∈ fields, f ∈ e.fields := by
  unfold Query.selected at h
  split at h
  · obtain rfl := Except.ok.inj h
    split
    · exact fun _ hf => hf
    · exact fun _ hf => (mem_tableFields.1 hf).1
  · exact forall_of_mapM (fun _ _ _ => mem_fields_of_visibleField) h

theorem written_of_order {q : Query} {order : List (String × Bool)} (h : q.order e = .ok order) :
    ∀ item ∈ order, ∃ f ∈ e.fields, item.1 = f.column.written := by
  refine forall_of_mapM (fun item _ written hitem => ?_) h
  obtain ⟨f, hf, hitem⟩ := bind_eq_ok_iff.1 hitem
  obtain rfl := pure_eq_ok_iff.1 hitem
  exact ⟨f, mem_fields_of_visibleField hf, rfl⟩

theorem isSource_source (h : e.IsPlain r) (q : Query) : r.IsSource (q.source e) := by
  unfold Query.source
  cases hview : e.view with
  | none => exact h.table
  | some view =>
    cases q.usesView e with
    | false => exact h.table
    | true => exact h.view view hview

/-- A query is read as its columns, its source and its condition, with nothing among them that
compares a column. -/
theorem reads_select (h : e.IsPlain (Dialect.builtin db).naming) {q : Query}
    (hfilter : ∀ c ∈ q.filter, c.IsBuilt (Dialect.builtin db) e) {s : PreparedStatement}
    (hs : q.select (Dialect.builtin db) e = .ok s) :
    ∃ (fields : List Field) (lead sts : List Token), (∀ f ∈ fields, f ∈ e.fields) ∧
      s.results = results fields ∧ s.parameters = filterParameters q.filter ∧
      (∀ t ∈ lead, t.isFiller = true) ∧ (∀ t ∈ sts, t.isSource = true) ∧
      ∀ l, ∃ tail : List Token, (∀ t ∈ tail, t.isQuiet = true) ∧
        (Dialect.builtin db).naming.Reads (s.command.text l)
          (.keyword "SELECT" :: ((lead ++ (Dialect.builtin db).naming.columnTokens fields) ++
            .keyword "FROM" :: (sts ++ ((Dialect.builtin db).naming.filterTokens q.filter ++
              tail)))) := by
  obtain ⟨fields, order, afterSelect, afterWhere, atEnd, hselected, horder, hafterSelect,
    hafterWhere, hatEnd, rfl⟩ := select_eq_ok hs
  have hr := Naming.isBuiltin db
  have hfields := mem_fields_of_selected hselected
  obtain ⟨sts, hsource, hsourceTokens⟩ := isSource_source h q
  obtain ⟨hends, lead, hlead, hfiller⟩ :=
    (Naming.isLead_distinct hr q.distinct).append (Naming.isLead_afterSelect hafterSelect)
  have hhead := hlead.append (Naming.reads_columns hr h.columns hfields) (Or.inl hends)
  have hwhere : (Dialect.builtin db).naming.IsTail (afterWhere.getD "") := by
    rcases hafterWhere with rfl | hafterWhere
    · exact Naming.isTail_empty
    · exact Naming.isTail_afterWhere hr hafterWhere
  have hend : (Dialect.builtin db).naming.IsTail (atEnd.getD "") := by
    rcases hatEnd with rfl | rfl
    · exact Naming.isTail_empty
    · exact Naming.isTail_atEnd hr _ q.offset q.limit
  refine ⟨fields, lead, sts, hfields, rfl, rfl, hfiller, hsourceTokens, fun l => ?_⟩
  have horderBy := Naming.isTail_orderClause hr l fun item hitem => by
    obtain ⟨f, hf, hwritten⟩ := written_of_order horder item hitem
    exact ⟨f.column.raw, hwritten.trans (h.columns f hf).1, (h.columns f hf).2⟩
  obtain ⟨hstart, tail, htail, hquiet⟩ := (hwhere.append horderBy).append hend
  obtain ⟨hclauseStart, hclause⟩ := Naming.reads_filterClause l h.columns hfilter
  have hrest := hclause.append htail (Or.inr hstart)
  have hreads := Naming.reads_query hr l hhead hsource hrest (hclauseStart.append hstart)
  refine ⟨tail, hquiet, ?_⟩
  rw [Command.text_select]
  simpa only [String.append_assoc] using hreads

theorem isAligned_select (h : e.IsPlain (Dialect.builtin db).naming) {q : Query}
    (hfilter : ∀ c ∈ q.filter, c.IsBuilt (Dialect.builtin db) e) {s : PreparedStatement}
    (hs : q.select (Dialect.builtin db) e = .ok s) :
    s.IsAligned (Dialect.builtin db) e ∧ s.SelectsFields (Dialect.builtin db) e := by
  obtain ⟨fields, lead, sts, hfields, hresults, hparameters, hlead, hsource, hreads⟩ :=
    reads_select h hfilter hs
  constructor
  · have hhead : ∀ t ∈ lead ++ (Dialect.builtin db).naming.columnTokens fields,
        t.isQuiet = true :=
      List.forall_mem_append.2 ⟨fun t ht => Token.isQuiet_of_isFiller (hlead t ht),
        Naming.isQuiet_columnTokens h.columns hfields⟩
    refine isAligned_of_query h hfilter hparameters hhead
      (fun t ht => Token.isQuiet_of_isSource (hsource t ht)) fun l => ?_
    obtain ⟨tail, htail, hread⟩ := hreads l
    exact ⟨tail, hread, htail⟩
  · refine selectsFields_of_reads (fun f hf => field_of_mem h.names (hfields f hf)) hresults
      fun l => ?_
    obtain ⟨tail, -, hread⟩ := hreads l
    exact ⟨lead, _, hread, hlead⟩

/-- The placeholders of every statement on rows stand for the columns of its parameters' fields, and
the results of every selection for its columns: of the insertion, of the statements by key with or
without a version, of the count and of every query, under any condition that is built. -/
theorem statements_aligned {spec : EntitySpec}
    (he : Entity.ofSpec (Dialect.builtin db) spec = .ok e)
    (hnames : (spec.fields.map (·.name)).Nodup) (hspec : spec.HasNoPlaceholder) :
    e.insert.IsAligned (Dialect.builtin db) e ∧
      (∀ withVersion s, e.findByKey withVersion = .ok s →
        s.IsAligned (Dialect.builtin db) e ∧ s.SelectsFields (Dialect.builtin db) e) ∧
      (∀ withVersion s, e.updateByKey withVersion = .ok s → s.IsAligned (Dialect.builtin db) e) ∧
      (∀ withVersion s, e.deleteByKey withVersion = .ok s → s.IsAligned (Dialect.builtin db) e) ∧
      (∀ filter : Option BoundCondition, (∀ c ∈ filter, c.IsBuilt (Dialect.builtin db) e) →
        (e.count filter).IsAligned (Dialect.builtin db) e ∧
          (e.count filter).results.map (·.column) = [.index 1]) ∧
      ∀ (q : Query) (s : PreparedStatement), (∀ c ∈ q.filter, c.IsBuilt (Dialect.builtin db) e) →
        q.select (Dialect.builtin db) e = .ok s →
        s.IsAligned (Dialect.builtin db) e ∧ s.SelectsFields (Dialect.builtin db) e := by
  have hplain := isPlain_of_ofSpec he hnames hspec
  exact ⟨isAligned_insert hplain, fun _ _ hs => isAligned_findByKey hplain hs,
    fun _ _ hs => isAligned_updateByKey hplain hs, fun _ _ hs => isAligned_deleteByKey hplain hs,
    fun _ hfilter => ⟨isAligned_count hplain hfilter, rfl⟩,
    fun _ _ hfilter hs => isAligned_select hplain hfilter hs⟩

end Entity

end Statements

/-! ## Posts in their view -/

/-- Posts of a state whose author is one of three or has a name in a range. -/
def postFilter (d : Dialect) (e : Entity) : Except Error BoundCondition := do
  let state ← BoundCondition.restrict d e "state" .equals 1
  let author ← BoundCondition.restrict d e "author" .amongst 3
  let authorName ← BoundCondition.restrictView d e "authorName" .between 2
  let either ← BoundCondition.compound d .or [author, authorName]
  BoundCondition.compound d .and [state, either]

theorem isBuilt_postFilter {d : Dialect} {e : Entity} {c : BoundCondition}
    (h : postFilter d e = .ok c) : c.IsBuilt d e := by
  obtain ⟨state, hstate, h⟩ := bind_eq_ok_iff.1 h
  obtain ⟨author, hauthor, h⟩ := bind_eq_ok_iff.1 h
  obtain ⟨authorName, hauthorName, h⟩ := bind_eq_ok_iff.1 h
  obtain ⟨either, heither, h⟩ := bind_eq_ok_iff.1 h
  have hauthors : ∀ clause ∈ [author, authorName], clause.IsBuilt d e := by
    simp only [List.forall_mem_cons]
    exact ⟨.restrict hauthor, .restrictView hauthorName, fun _ h => absurd h List.not_mem_nil⟩
  refine .compound ?_ h
  simp only [List.forall_mem_cons]
  exact ⟨.restrict hstate, .compound hauthors heither, fun _ h => absurd h List.not_mem_nil⟩

/-- In Oracle the six parameters of a nested condition are taken in the order of its text, which
goes on to bound the number of rows. -/
theorem posts_aligned :
    ∃ e c s, Entity.ofSpec (Dialect.builtin .oracle) postSpec = .ok e ∧
      (postSpec.fields.map (·.name)).Nodup ∧ postSpec.HasNoPlaceholder ∧
      c.IsBuilt (Dialect.builtin .oracle) e ∧
      Query.select { filter := some c, limit := 10, fromView := true } (Dialect.builtin .oracle) e =
        .ok s ∧
      s.parameters.filterMap (·.field) =
        ["state", "author", "author", "author", "authorName", "authorName"] ∧
      s.IsAligned (Dialect.builtin .oracle) e ∧ s.SelectsFields (Dialect.builtin .oracle) e := by
  obtain ⟨⟨e, c, s⟩, hall, hfields⟩ : ∃ p : Entity × BoundCondition × PreparedStatement, (do
      let e ← Entity.ofSpec (Dialect.builtin .oracle) postSpec
      let c ← postFilter (Dialect.builtin .oracle) e
      let s ← Query.select { filter := some c, limit := 10, fromView := true }
        (Dialect.builtin .oracle) e
      return (e, c, s)) = .ok p ∧ (p.2.2.parameters.filterMap (·.field) ==
        ["state", "author", "author", "author", "authorName", "authorName"]) = true :=
    exists_ok_of_any (by decide +kernel)
  obtain ⟨e, he, hall⟩ := bind_eq_ok_iff.1 hall
  obtain ⟨c, hc, hall⟩ := bind_eq_ok_iff.1 hall
  obtain ⟨s, hs, hall⟩ := bind_eq_ok_iff.1 hall
  cases pure_eq_ok_iff.1 hall
  have hnames : (postSpec.fields.map (·.name)).Nodup := by decide
  have hspec : postSpec.HasNoPlaceholder := by
    constructor <;> decide
  have hbuilt := isBuilt_postFilter hc
  have hfilter : ∀ clause ∈ some c, clause.IsBuilt (Dialect.builtin .oracle) e := by
    simpa using hbuilt
  obtain ⟨-, -, -, -, -, hselect⟩ := Entity.statements_aligned he hnames hspec
  exact ⟨e, c, s, he, hnames, hspec, hbuilt, hs, by simpa using hfields, hselect _ s hfilter hs⟩

end SqlDialects
