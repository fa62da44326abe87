import SqlDialects.Proofs.DefaultReading
import SqlDialects.Proofs.StatementText
import SqlDialects.Proofs.UpToDate

/-!
# The lists that statements write

A statement that lists columns, values or equations is no SQL when the list has none. What is
listed comes from a description: its constraints name fields and values, and of its fields a
statement takes those that it needs. Nothing sees to it that any are left. This module says which
lists a statement has, that they stand in its text, and on which descriptions each has an item.

Results:
1. `DdlStyle.infix_of_mem_lists`, `Command.infix_of_mem_lists`: the text of a statement has its
   lists in it.
2. `Entity.hasFilledLists_createTable_iff`, `Entity.hasFilledLists_insert_iff` and the like: when
   the lists of a statement are filled.
3. `Entity.hasFilledLists_iff`: all of these for an accepted description, in all six dialects.
-/

namespace SqlDialects

/-- A list as it stands in a statement. -/
structure WrittenList where
  opening : String
  items : List String
  divider : String
  closing : String

namespace WrittenList

/-- The text of a list. -/
def text (w : WrittenList) : String :=
  w.opening ++ String.intercalate w.divider w.items ++ w.closing

/-- A list with something in it: at least one item, and no item without text. -/
def IsFilled (w : WrittenList) : Prop := w.items ≠ [] ∧ ∀ item ∈ w.items, item ≠ ""

/-- Columns in parentheses. -/
def ofColumns (columns : List Name) : WrittenList := ⟨"(", columns.map Name.written, ", ", ")"⟩

/-- Where each entry has a text, a list of the texts is filled if there is an entry. -/
theorem isFilled_map_iff {α : Type} (opening divider closing : String) {write : α → String}
    {entries : List α} (h : ∀ a ∈ entries, write a ≠ "") :
    IsFilled ⟨opening, entries.map write, divider, closing⟩ ↔ entries ≠ [] := by
  have htext : ∀ item ∈ entries.map write, item ≠ "" := by
    intro item hitem
    obtain ⟨a, ha, rfl⟩ := List.mem_map.1 hitem
    exact h a ha
  exact (and_iff_left htext).trans (not_congr List.map_eq_nil_iff)

end WrittenList

/-- Lists in a part of a new table. -/
def TableItem.lists : TableItem → List WrittenList
  | .column _ => []
  | .unique _ columns | .index _ columns _ => [.ofColumns columns]

/-- Lists in a statement on tables. -/
def DdlStyle.lists (s : DdlStyle) (l : Layout) : Statement → List WrittenList
  | .createTable _ items =>
    ⟨l.listStart, items.map s.tableItem, l.listSeparator, l.listEnd⟩ ::
      items.flatMap TableItem.lists
  | .createIndex _ _ columns _ | .addUnique _ _ columns => [.ofColumns columns]
  | .addCheck _ _ _ literals => [⟨"IN (", literals, ", ", ")"⟩]
  | .createView _ _ columns _ => [⟨"SELECT ", columns.map viewColumn, ", ", ""⟩]
  | _ => []

/-- Lists of columns, values and equations in a statement on rows. -/
def Command.lists : Command → List WrittenList
  | .select s => [⟨"", s.columns, ", ", ""⟩]
  | .insert _ columns =>
    [⟨"(", columns, ", ", ")"⟩, ⟨"VALUES (", columns.map fun _ => Value.placeholder, ", ", ")"⟩]
  | .find _ columns _ => [⟨"SELECT ", columns, ", ", ""⟩]
  | .update _ columns _ => [⟨"SET ", columns.map equation, ", ", ""⟩]
  | .delete _ _ | .count _ _ => []

/-- A statement on tables without an empty list. -/
def Statement.HasFilledLists (t : Statement) (s : DdlStyle) (l : Layout) : Prop :=
  ∀ w ∈ s.lists l t, w.IsFilled

/-- A statement on rows without an empty list. -/
def Command.HasFilledLists (c : Command) : Prop := ∀ w ∈ c.lists, w.IsFilled

/-! ## Lists in the text -/

/-- One of several texts is part of what they make together. -/
theorem infix_intercalate {part : String} {parts : List String} (glue : String)
    (h : part ∈ parts) : part.toList <:+: (String.intercalate glue parts).toList := by
  rw [String.toList_intercalate]
  induction parts with
  | nil => cases h
  | cons first rest ih =>
    cases rest with
    | nil =>
      rw [List.mem_singleton.1 h, List.map_singleton, List.intercalate_singleton]
    | cons second rest =>
      rw [List.map_cons, List.map_cons, List.intercalate_cons_cons, ← List.map_cons]
      rcases List.mem_cons.1 h with rfl | h
      · rw [List.append_assoc]
        exact List.infix_append [] _ _
      · exact (ih h).trans (List.suffix_append _ _).isInfix

/-- A text that a list is put into has the list in it. -/
theorem WrittenList.infix_of_eq {w : WrittenList} {whole : String} (before after : String)
    (h : whole = before ++ (w.opening ++ (String.intercalate w.divider w.items ++
      (w.closing ++ after)))) : w.text.toList <:+: whole.toList := by
  have htext : whole = before ++ w.text ++ after := by
    rw [h, text]
    simp only [String.append_assoc]
  rw [htext, String.toList_append, String.toList_append]
  exact List.infix_append _ _ _

/-- One clause of a text is part of it. -/
theorem infix_arrange {part clause : String} {clauses : List String} (l : Layout)
    (h : part.toList <:+: clause.toList) (hclause : clause ∈ clauses) :
    part.toList <:+: (l.arrange (.clauses clauses)).toList :=
  h.trans (infix_intercalate l.separator hclause)

theorem TableItem.infix_of_mem_lists (s : DdlStyle) {item : TableItem} {w : WrittenList}
    (hw : w ∈ item.lists) : w.text.toList <:+: (s.tableItem item).toList := by
  cases item with
  | column definition => cases hw
  | unique name columns =>
    rw [List.mem_singleton.1 hw]
    refine WrittenList.infix_of_eq ("CONSTRAINT " ++ name.written ++ " UNIQUE ") "" ?_
    simp only [DdlStyle.tableItem, String.append_assoc]
    rfl
  | index name columns isUnique =>
    rw [List.mem_singleton.1 hw]
    refine WrittenList.infix_of_eq
      ((if isUnique then "UNIQUE " else "") ++ "INDEX " ++ name.written ++ " ") "" ?_
    simp only [DdlStyle.tableItem, DdlStyle.inlineIndex, String.append_assoc]
    rfl

/-- The text of a statement on tables has the lists of the statement in it. -/
theorem DdlStyle.infix_of_mem_lists {s : DdlStyle} {l : Layout} {t : Statement} {w : WrittenList}
    (hw : w ∈ s.lists l t) : w.text.toList <:+: (s.text l t).toList := by
  cases t with
  | createTable table items =>
    have htext : s.text l (.createTable table items) = "CREATE TABLE " ++ table.written ++ " " ++
        (l.listStart ++ (String.intercalate l.listSeparator (items.map s.tableItem) ++
          (l.listEnd ++ ""))) := by
      rw [String.append_empty]
      simp only [text, arrangement, Layout.arrange, String.append_assoc]
    have hitems : (String.intercalate l.listSeparator (items.map s.tableItem)).toList <:+:
        (s.text l (.createTable table items)).toList := by
      rw [htext]
      simp only [String.toList_append]
      rw [← List.append_assoc]
      exact List.infix_append' _ _ _
    rcases List.mem_cons.1 hw with rfl | hw
    · exact WrittenList.infix_of_eq _ _ htext
    · obtain ⟨item, hitem, hw⟩ := List.mem_flatMap.1 hw
      have hpart := infix_intercalate l.listSeparator (List.mem_map_of_mem (f := s.tableItem) hitem)
      exact ((TableItem.infix_of_mem_lists s hw).trans hpart).trans hitems
  | createIndex table name columns isUnique =>
    rw [List.mem_singleton.1 hw]
    refine infix_arrange l (WrittenList.infix_of_eq ("CREATE " ++
      (if isUnique then "UNIQUE " else "") ++ "INDEX " ++ name.written ++ " ON " ++
        table.written ++ " ") "" ?_) List.mem_cons_self
    simp only [String.append_assoc]
    rfl
  | addUnique table name columns =>
    rw [List.mem_singleton.1 hw]
    refine infix_arrange l (WrittenList.infix_of_eq
      ("ADD CONSTRAINT " ++ name.written ++ " UNIQUE ") "" ?_)
        (List.mem_cons_of_mem _ List.mem_cons_self)
    simp only [String.append_assoc]
    rfl
  | addCheck table name column literals =>
    rw [List.mem_singleton.1 hw]
    refine infix_arrange l (WrittenList.infix_of_eq ("ADD CONSTRAINT " ++ name.written ++
      " CHECK (" ++ column.written ++ " ") ")" ?_) (List.mem_cons_of_mem _ List.mem_cons_self)
    simp only [String.append_assoc]
    rfl
  | createView view table columns joins =>
    rw [List.mem_singleton.1 hw]
    refine infix_arrange l (WrittenList.infix_of_eq
      ("CREATE VIEW " ++ view.written ++ " AS ") "" ?_) List.mem_cons_self
    simp only [String.append_assoc, String.append_empty]
    rfl
  | _ => cases hw

/-- The text of a statement on rows has the lists of the statement in it. -/
theorem Command.infix_of_mem_lists {c : Command} {w : WrittenList} (l : Layout)
    (hw : w ∈ c.lists) : w.text.toList <:+: (c.text l).toList := by
  cases c with
  | select s =>
    rw [text_select, List.mem_singleton.1 hw]
    refine WrittenList.infix_of_eq ("SELECT " ++ ((if s.distinct then "DISTINCT " else "") ++
      s.afterSelect)) (l.separator ++ ("FROM " ++ s.source ++ (filterClause l.separator s.filter ++
        s.afterWhere ++ orderClause l.separator s.order ++ s.atEnd))) ?_
    simp only [String.append_assoc, String.empty_append]
  | insert table columns =>
    rw [text_insert]
    rcases List.mem_cons.1 hw with rfl | hw
    · refine WrittenList.infix_of_eq ("INSERT INTO " ++ table ++ " ") (l.separator ++ ("VALUES (" ++
        String.intercalate ", " (columns.map fun _ => Value.placeholder) ++ ")")) ?_
      simp only [String.append_assoc]
      rfl
    · rw [List.mem_singleton.1 hw]
      refine WrittenList.infix_of_eq ("INSERT INTO " ++ table ++ " (" ++
        String.intercalate ", " columns ++ ")" ++ l.separator) "" ?_
      simp only [String.append_assoc]
      rfl
  | find table columns key =>
    rw [text_find, List.mem_singleton.1 hw]
    refine WrittenList.infix_of_eq "" (l.separator ++ ("FROM " ++ table ++ l.separator ++
      keyClause key)) ?_
    simp only [String.append_assoc, String.empty_append]
  | update table columns key =>
    rw [text_update, List.mem_singleton.1 hw]
    refine WrittenList.infix_of_eq ("UPDATE " ++ table ++ l.separator)
      (l.separator ++ keyClause key) ?_
    simp only [String.append_assoc, String.empty_append]
  | delete | count => cases hw

/-! ## Items -/

/-- A name is never written as nothing: without text it is quoted. -/
theorem Naming.written_ne_empty (r : Naming) (name : String) : r.written name ≠ "" := by
  rcases r.written_cases name with hw | ⟨hw, hword, -⟩
  · rw [hw]
    intro h
    have hchars := congrArg String.toList h
    simp [quoted, Text.enclose] at hchars
  · rw [hw]
    intro h
    rw [h] at hword
    exact absurd hword (by decide)

theorem Command.equation_ne_empty (column : String) : equation column ≠ "" := by
  simp [equation]

theorem DdlStyle.tableItem_ne_empty (s : DdlStyle) (item : TableItem) : s.tableItem item ≠ "" := by
  cases item with
  | column definition =>
    show s.columnDefinition definition ≠ ""
    unfold columnDefinition
    cases definition.isIdentity <;> simp
  | unique name columns => simp [tableItem]
  | index name columns isUnique => simp [tableItem, inlineIndex]

/-- A new table has its own list, and those of its parts. -/
theorem Statement.hasFilledLists_createTable_iff {s : DdlStyle} {l : Layout} {table : Name}
    {items : List TableItem} :
    (createTable table items).HasFilledLists s l ↔
      items ≠ [] ∧ ∀ item ∈ items, ∀ w ∈ item.lists, w.IsFilled := by
  unfold HasFilledLists
  rw [DdlStyle.lists, List.forall_mem_cons,
    WrittenList.isFilled_map_iff _ _ _ fun item _ => s.tableItem_ne_empty item]
  simp only [List.forall_mem_flatMap]

/-- The constraints that a table is created with are each over some field. -/
def EntitySpec.HasInlineFields (spec : EntitySpec) (d : Dialect) : Prop :=
  d.inlineConstraints = true →
    (∀ u ∈ spec.uniqueConstraints, u.fieldNames ≠ []) ∧ ∀ i ∈ spec.indexes, i.fieldNames ≠ []

namespace Entity

section Lists

variable {d : Dialect} {spec : EntitySpec} {e : Entity} {l : Layout}

theorem written_ne_empty (he : ofSpec d spec = .ok e) : ∀ f ∈ e.fields, f.column.written ≠ "" := by
  intro f hf
  rw [written_of_ofSpec he f hf]
  exact d.naming.written_ne_empty f.column.raw

theorem isFilled_ofColumns_iff (he : ofSpec d spec = .ok e) {names : List String}
    {columns : List Name} (h : e.columns names = .ok columns) :
    (WrittenList.ofColumns columns).IsFilled ↔ names ≠ [] := by
  have hwritten : ∀ column ∈ columns, column.written ≠ "" := by
    refine forall_of_mapM (fun name _ column hcolumn => ?_) h
    obtain ⟨f, hf, hcolumn⟩ := bind_eq_ok_iff.1 hcolumn
    cases hcolumn
    exact written_ne_empty he f (field_eq_ok hf).1
  rw [← ne_nil_iff_of_mapM h]
  exact WrittenList.isFilled_map_iff "(" ", " ")" hwritten

/-- Where all that is listed is columns of named fields, there is a list if there are names. -/
theorem forall_isFilled_iff {α : Type} (lists : α → List WrittenList) {build : List Name → α}
    (hlists : ∀ columns, lists (build columns) = [.ofColumns columns])
    (he : ofSpec d spec = .ok e) {names : List String} {a : α}
    (h : (do return build (← e.columns names)) = .ok a) :
    (∀ w ∈ lists a, w.IsFilled) ↔ names ≠ [] := by
  obtain ⟨columns, hcolumns, h⟩ := bind_eq_ok_iff.1 h
  cases h
  rw [hlists, List.forall_mem_singleton]
  exact isFilled_ofColumns_iff he hcolumns

/-! ### The table -/

theorem isFilled_uniqueItem_iff (he : ofSpec d spec = .ok e) {u : UniqueSpec} {item : TableItem}
    (h : e.uniqueItem d u = .ok item) : (∀ w ∈ item.lists, w.IsFilled) ↔ u.fieldNames ≠ [] :=
  forall_isFilled_iff TableItem.lists (fun _ => rfl) he h

theorem isFilled_indexItem_iff (he : ofSpec d spec = .ok e) {i : IndexSpec} {item : TableItem}
    (h : e.indexItem d i = .ok item) : (∀ w ∈ item.lists, w.IsFilled) ↔ i.fieldNames ≠ [] :=
  forall_isFilled_iff TableItem.lists (fun _ => rfl) he h

theorem isFilled_inlineItems_iff (he : ofSpec d spec = .ok e) {items : List TableItem}
    (h : e.inlineItems d = .ok items) :
    (∀ item ∈ items, ∀ w ∈ item.lists, w.IsFilled) ↔ spec.HasInlineFields d := by
  have hsource := (isOfSpec he).source
  obtain ⟨uniques, indexes, huniques, hindexes, rfl⟩ := inlineItems_eq_ok h
  rw [List.forall_mem_append,
    forall_mapM_iff (fun _ _ hitem => isFilled_uniqueItem_iff he hitem) huniques,
    forall_mapM_iff (fun _ _ hitem => isFilled_indexItem_iff he hitem) hindexes, hsource,
    EntitySpec.HasInlineFields]
  split
  · next hinline => exact ⟨fun hall _ => hall, fun hall => hall hinline⟩
  · next hinline =>
    exact iff_of_true ⟨List.forall_mem_nil _, List.forall_mem_nil _⟩ fun hd => absurd hd hinline

/-- What constraints are over is in the table. -/
theorem tableFields_ne_nil (he : ofSpec d spec = .ok e) (hspec : spec.IsFinished) {name : String}
    (hname : name ∈ spec.constrainedNames) : e.tableFields ≠ [] := by
  obtain ⟨fspec, hfind, hview⟩ := hspec.hasConstrainable hname
  obtain ⟨f, hf, hfield⟩ :=
    exists_mem_of_forall₂ (isOfSpec he).fields (List.mem_of_find?_eq_some hfind)
  have htable : f.isViewOnly = false := by
    rw [Field.isViewOnly, hfield.viewSource]
    exact hview
  exact List.ne_nil_of_mem (mem_tableFields.2 ⟨hf, htable⟩)

/-- A table that is created with constraints, each over some field, is created with a column. -/
theorem tableFields_ne_nil_of_inlineItems (he : ofSpec d spec = .ok e) (hspec : spec.IsFinished)
    (hfields : spec.HasInlineFields d) {items : List TableItem} (h : e.inlineItems d = .ok items)
    (hitems : items ≠ []) : e.tableFields ≠ [] := by
  intro hnone
  have hnames : ∀ name, name ∉ spec.constrainedNames := by
    intro name hname
    exact tableFields_ne_nil he hspec hname hnone
  simp only [EntitySpec.constrainedNames, List.mem_append, List.mem_flatMap, not_or, not_exists,
    not_and] at hnames
  obtain ⟨uniques, indexes, huniques, hindexes, rfl⟩ := inlineItems_eq_ok h
  rw [(isOfSpec he).source] at huniques hindexes
  split at huniques
  · next hinline =>
    have hnoUniques : spec.uniqueConstraints = [] := by
      refine List.eq_nil_iff_forall_not_mem.2 fun u hu => ?_
      obtain ⟨name, hname⟩ := List.exists_mem_of_ne_nil _ ((hfields hinline).1 u hu)
      exact (hnames name).1.2 u hu hname
    have hnoIndexes : spec.indexes = [] := by
      refine List.eq_nil_iff_forall_not_mem.2 fun i hi => ?_
      obtain ⟨name, hname⟩ := List.exists_mem_of_ne_nil _ ((hfields hinline).2 i hi)
      exact (hnames name).1.1 i hi hname
    rw [hnoUniques] at huniques
    rw [if_pos hinline, hnoIndexes] at hindexes
    cases huniques
    cases hindexes
    exact hitems rfl
  · next hinline =>
    rw [if_neg hinline] at hindexes
    cases huniques
    cases hindexes
    exact hitems rfl

/-- The lists of a new table are filled if it gets a column and its constraints are over fields. -/
theorem hasFilledLists_createTable_iff (he : ofSpec d spec = .ok e) (hspec : spec.IsFinished)
    {statements : List Statement} (h : e.createTable d = .ok statements) :
    (∀ s ∈ statements, s.HasFilledLists d.ddl l) ↔
      e.tableFields ≠ [] ∧ spec.HasInlineFields d := by
  obtain ⟨inline, support, hinline, rfl, hsupport⟩ := createTable_eq_ok h
  have hsupport : ∀ t ∈ support, t.HasFilledLists d.ddl l := fun t ht => by
    obtain rfl | ⟨_, rfl⟩ := hsupport t ht
    · exact List.forall_mem_nil _
    · exact List.forall_mem_nil _
  have hcolumns : ∀ item ∈ e.tableFields.map (fun f => TableItem.column (e.definition f)),
      ∀ w ∈ item.lists, w.IsFilled := by
    intro item hitem
    obtain ⟨f, -, rfl⟩ := List.mem_map.1 hitem
    exact List.forall_mem_nil _
  rw [List.forall_mem_cons, and_iff_left hsupport, Statement.hasFilledLists_createTable_iff,
    List.forall_mem_append, and_iff_right hcolumns, isFilled_inlineItems_iff he hinline]
  refine and_congr_left fun hfields => ?_
  constructor
  · intro hitems hnone
    have hinlineItems : inline ≠ [] := by
      rintro rfl
      exact hitems (by rw [hnone]; rfl)
    exact tableFields_ne_nil_of_inlineItems he hspec hfields hinline hinlineItems hnone
  · intro hsome hnone
    exact hsome (List.map_eq_nil_iff.1 (List.append_eq_nil_iff.1 hnone).1)

/-! ### Constraints -/

theorem hasFilledLists_createIndex_iff (he : ofSpec d spec = .ok e) {i : IndexSpec} {s : Statement}
    (h : e.createIndex d i = .ok s) : s.HasFilledLists d.ddl l ↔ i.fieldNames ≠ [] :=
  forall_isFilled_iff (d.ddl.lists l) (fun _ => rfl) he h

theorem hasFilledLists_addUnique_iff (he : ofSpec d spec = .ok e) {u : UniqueSpec} {s : Statement}
    (h : e.addUnique d u = .ok s) : s.HasFilledLists d.ddl l ↔ u.fieldNames ≠ [] :=
  forall_isFilled_iff (d.ddl.lists l) (fun _ => rfl) he h

/-- No literal of a check is without text. -/
theorem hasFilledLists_addCheck_iff {db : Database} {c : CheckSpec} {s : Statement}
    (h : e.addCheck (Dialect.builtin db) c = .ok s) :
    s.HasFilledLists (Dialect.builtin db).ddl l ↔ c.allowed ≠ [] := by
  obtain ⟨f, -, h⟩ := bind_eq_ok_iff.1 h
  obtain ⟨literals, hliterals, h⟩ := bind_eq_ok_iff.1 h
  cases h
  have htext : ∀ literal ∈ literals, id literal ≠ "" := by
    refine forall_of_mapM (fun raw _ literal hliteral => ?_) hliterals
    rintro rfl
    exact absurd (Dialect.isAllBlank_rendered_builtin hliteral) (by decide)
  have hlist := WrittenList.isFilled_map_iff "IN (" ", " ")" htext
  rw [List.map_id, ne_nil_iff_of_mapM hliterals] at hlist
  exact List.forall_mem_singleton.trans hlist

/-! ### Rows -/

theorem filter_not_ne_nil_iff {p : Field → Bool} {fields : List Field} :
    (fields.filter fun f => !p f) ≠ [] ↔ ∃ f ∈ fields, p f = false := by
  simp

theorem writtenColumns_ne_nil_iff {fields : List Field} :
    writtenColumns fields ≠ [] ↔ fields ≠ [] :=
  not_congr List.map_eq_nil_iff

theorem hasFilledLists_insert_iff (he : ofSpec d spec = .ok e) :
    e.insert.command.HasFilledLists ↔ ∃ f ∈ e.tableFields, f.isIdentity = false := by
  have hwritten : ∀ f ∈ e.tableFields.filter (fun f => !f.isIdentity), f.column.written ≠ "" := by
    intro f hf
    exact written_ne_empty he f (mem_tableFields.1 (List.mem_of_mem_filter hf)).1
  have hmark : ∀ column ∈ writtenColumns (e.tableFields.filter fun f => !f.isIdentity),
      (fun _ => Value.placeholder) column ≠ "" := by
    intro column _
    show Value.placeholder ≠ ""
    decide
  have hcolumns := WrittenList.isFilled_map_iff "(" ", " ")" hwritten
  have hmarks := WrittenList.isFilled_map_iff "VALUES (" ", " ")" hmark
  rw [writtenColumns_ne_nil_iff] at hmarks
  rw [← filter_not_ne_nil_iff]
  show (∀ w ∈ e.insert.command.lists, w.IsFilled) ↔ _
  exact (List.forall_mem_cons.trans (and_congr hcolumns
    (List.forall_mem_singleton.trans hmarks))).trans and_self_iff

theorem hasFilledLists_findByKey_iff (he : ofSpec d spec = .ok e) {withVersion : Bool}
    {s : PreparedStatement} (h : e.findByKey withVersion = .ok s) :
    s.command.HasFilledLists ↔ e.tableFields ≠ [] := by
  obtain ⟨key, -, h⟩ := bind_eq_ok_iff.1 h
  cases h
  have hlist := WrittenList.isFilled_map_iff "SELECT " ", " "" fun f hf =>
    written_ne_empty he f (mem_tableFields.1 hf).1
  exact List.forall_mem_singleton.trans hlist

theorem hasFilledLists_updateByKey_iff {withVersion : Bool} {s : PreparedStatement}
    (h : e.updateByKey withVersion = .ok s) :
    s.command.HasFilledLists ↔ ∃ f ∈ e.tableFields, f.primaryKey = false := by
  obtain ⟨key, -, h⟩ := bind_eq_ok_iff.1 h
  cases h
  have hequation : ∀ column ∈ writtenColumns (e.tableFields.filter fun f => !f.primaryKey),
      Command.equation column ≠ "" := fun column _ => Command.equation_ne_empty column
  have hlist := WrittenList.isFilled_map_iff "SET " ", " "" hequation
  rw [writtenColumns_ne_nil_iff, filter_not_ne_nil_iff] at hlist
  exact List.forall_mem_singleton.trans hlist

end Lists

/-- The lists of a statement are filled exactly if there is something for them: a field in the
table, a field that is not generated or not the key, a field of the constraint, an allowed value.
That an entity was accepted is no reason for any of these. -/
theorem hasFilledLists_iff {db : Database} {spec : EntitySpec} {e : Entity}
    (hspec : spec.IsFinished) (he : ofSpec (Dialect.builtin db) spec = .ok e) (l : Layout) :
    (∀ statements, e.createTable (Dialect.builtin db) = .ok statements →
        ((∀ s ∈ statements, s.HasFilledLists (Dialect.builtin db).ddl l) ↔
          e.tableFields ≠ [] ∧ spec.HasInlineFields (Dialect.builtin db))) ∧
      (∀ i s, e.createIndex (Dialect.builtin db) i = .ok s →
        (s.HasFilledLists (Dialect.builtin db).ddl l ↔ i.fieldNames ≠ [])) ∧
      (∀ u s, e.addUnique (Dialect.builtin db) u = .ok s →
        (s.HasFilledLists (Dialect.builtin db).ddl l ↔ u.fieldNames ≠ [])) ∧
      (∀ c s, e.addCheck (Dialect.builtin db) c = .ok s →
        (s.HasFilledLists (Dialect.builtin db).ddl l ↔ c.allowed ≠ [])) ∧
      (e.insert.command.HasFilledLists ↔ ∃ f ∈ e.tableFields, f.isIdentity = false) ∧
      (∀ withVersion s, e.findByKey withVersion = .ok s →
        (s.command.HasFilledLists ↔ e.tableFields ≠ [])) ∧
      ∀ withVersion s, e.updateByKey withVersion = .ok s →
        (s.command.HasFilledLists ↔ ∃ f ∈ e.tableFields, f.primaryKey = false) :=
  ⟨fun _ => hasFilledLists_createTable_iff he hspec, fun _ _ => hasFilledLists_createIndex_iff he,
    fun _ _ => hasFilledLists_addUnique_iff he, fun _ _ => hasFilledLists_addCheck_iff,
    hasFilledLists_insert_iff he, fun _ _ => hasFilledLists_findByKey_iff he,
    fun _ _ => hasFilledLists_updateByKey_iff⟩

end Entity

/-! ## Authors and counters -/

/-- Authors have a name, so that the lists of their statements are filled, in MySQL those of the
constraint in the new table as well. -/
theorem author_lists_filled :
    ∃ e table update, Entity.ofSpec (Dialect.builtin .mysql) authorSpec = .ok e ∧
      e.createTable (Dialect.builtin .mysql) = .ok table ∧ e.updateByKey false = .ok update ∧
      (∀ s ∈ table, s.HasFilledLists (Dialect.builtin .mysql).ddl .pretty) ∧
      e.insert.command.HasFilledLists ∧ update.command.HasFilledLists := by
  obtain ⟨⟨e, table, update⟩, hall, hfields⟩ :
      ∃ p : Entity × List Statement × PreparedStatement, (do
        let e ← Entity.ofSpec (Dialect.builtin .mysql) authorSpec
        let table ← e.createTable (Dialect.builtin .mysql)
        let update ← e.updateByKey false
        return (e, table, update)) = .ok p ∧
          p.1.tableFields.any (fun f => !f.isIdentity && !f.primaryKey) = true :=
    exists_ok_of_any (by decide +kernel)
  obtain ⟨e, he, hall⟩ := bind_eq_ok_iff.1 hall
  obtain ⟨table, htable, hall⟩ := bind_eq_ok_iff.1 hall
  obtain ⟨update, hupdate, hall⟩ := bind_eq_ok_iff.1 hall
  cases pure_eq_ok_iff.1 hall
  obtain ⟨f, hf, hplain⟩ := List.any_eq_true.1 hfields
  simp only [Bool.and_eq_true, Bool.not_eq_true'] at hplain
  have hfinished : authorSpec.IsFinished := EntitySpec.isFinished_of_build (by decide)
  have hinline : authorSpec.HasInlineFields (Dialect.builtin .mysql) := fun _ => by decide
  obtain ⟨hcreate, -, -, -, hinsert, -, hupdated⟩ :=
    Entity.hasFilledLists_iff hfinished he .pretty
  exact ⟨e, table, update, he, htable, hupdate,
    (hcreate table htable).2 ⟨List.ne_nil_of_mem hf, hinline⟩, hinsert.2 ⟨f, hf, hplain.1⟩,
    (hupdated false update hupdate).2 ⟨f, hf, hplain.2⟩⟩

/-- Counters: a generated key and nothing else, of which no value is allowed. -/
def counterSpec : EntitySpec :=
  { EntitySpec.named "Counter" with
    fields := [(FieldSpec.named "id" .long).asPrimaryKey]
    checkConstraints := [⟨"ck_counter", "id", []⟩] }

/-- Counters are accepted, although there is nothing to insert, nothing to update and nothing to
check. -/
theorem counter_lists_empty :
    ∃ e check update, counterSpec.build = .ok counterSpec ∧
      Entity.ofSpec (Dialect.builtin .hsqldb) counterSpec = .ok e ∧
      e.addCheck (Dialect.builtin .hsqldb) ⟨"ck_counter", "id", []⟩ = .ok check ∧
      e.updateByKey false = .ok update ∧
      (Dialect.builtin .hsqldb).ddl.text .compact check =
        "ALTER TABLE PUBLIC.COUNTER ADD CONSTRAINT ck_counter CHECK (ID IN ())" ∧
      e.insert.command.text .compact = "INSERT INTO PUBLIC.COUNTER () VALUES ()" ∧
      update.command.text .compact = "UPDATE PUBLIC.COUNTER SET  WHERE ID = ?" ∧
      ¬ check.HasFilledLists (Dialect.builtin .hsqldb).ddl .compact ∧
      ¬ e.insert.command.HasFilledLists ∧ ¬ update.command.HasFilledLists := by
  obtain ⟨⟨e, check, update⟩, hall, hrun⟩ :
      ∃ p : Entity × Statement × PreparedStatement, (do
        let e ← Entity.ofSpec (Dialect.builtin .hsqldb) counterSpec
        let check ← e.addCheck (Dialect.builtin .hsqldb) ⟨"ck_counter", "id", []⟩
        let update ← e.updateByKey false
        return (e, check, update)) = .ok p ∧
          ((Dialect.builtin .hsqldb).ddl.text .compact p.2.1 ==
              "ALTER TABLE PUBLIC.COUNTER ADD CONSTRAINT ck_counter CHECK (ID IN ())" &&
            p.1.insert.command.text .compact == "INSERT INTO PUBLIC.COUNTER () VALUES ()" &&
            p.2.2.command.text .compact == "UPDATE PUBLIC.COUNTER SET  WHERE ID = ?" &&
            p.1.tableFields.all fun f => f.isIdentity && f.primaryKey) = true :=
    exists_ok_of_any (by decide +kernel)
  obtain ⟨e, he, hall⟩ := bind_eq_ok_iff.1 hall
  obtain ⟨check, hcheck, hall⟩ := bind_eq_ok_iff.1 hall
  obtain ⟨update, hupdate, hall⟩ := bind_eq_ok_iff.1 hall
  cases pure_eq_ok_iff.1 hall
  simp only [Bool.and_eq_true, beq_iff_eq, List.all_eq_true] at hrun
  obtain ⟨⟨⟨hchecked, hinserted⟩, hupdated⟩, hkeys⟩ := hrun
  refine ⟨e, check, update, by decide, he, hcheck, hupdate, hchecked, hinserted, hupdated,
    ?_, ?_, ?_⟩
  · intro hfilled
    exact (Entity.hasFilledLists_addCheck_iff hcheck).1 hfilled rfl
  · intro hfilled
    obtain ⟨f, hf, hplain⟩ := (Entity.hasFilledLists_insert_iff he).1 hfilled
    rw [(hkeys f hf).1] at hplain
    cases hplain
  · intro hfilled
    obtain ⟨f, hf, hplain⟩ := (Entity.hasFilledLists_updateByKey_iff hupdate).1 hfilled
    rw [(hkeys f hf).2] at hplain
    cases hplain

end SqlDialects
