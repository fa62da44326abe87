import SqlDialects.Proofs.ConditionTree
import SqlDialects.Proofs.Placeholders

/-!
# Fields that only the view has

Some fields of an entity are no columns of its table: they come from other tables, and only the view
has them. A condition on such a field carries a mark, however deep in it the field is named, and a
query with a marked condition is refused unless it reads the view. This module follows the mark.

Results:
1. `ConditionTree.viewOnly_build`: a condition is marked exactly if some field that it is on is one
   of the view alone.
2. `Query.checkFilter_eq_ok_iff`, `Query.usesView_of_select`: a query with a marked condition reads
   the view, or is refused.
3. `ConditionTree.readsView_iff`: a query finds all its columns where it reads them. The count of
   rows always reads the table, so it does not find those of a marked condition.
-/

namespace SqlDialects

/-- A name that stands for a field of the view alone. -/
def Entity.IsOnlyInView (e : Entity) (name : String) : Prop :=
  ∃ f, e.field name = .ok f ∧ f.isViewOnly = true

/-- The table or the view that a statement on rows is on, as it is written. -/
def Command.source : Command → String
  | .select s => s.source
  | .insert table _ | .find table _ _ | .update table _ _ => table
  | .delete table _ | .count table _ => table

/-- A statement that takes its rows from the view of an entity. -/
def PreparedStatement.ReadsView (s : PreparedStatement) (e : Entity) : Prop :=
  ∃ view, e.view = some view ∧ s.command.source = view.written

/-! ## The mark of a condition -/

namespace ConditionTree

mutual

/-- Names of the fields that a condition is on. -/
def fieldNames : ConditionTree → List String
  | .restrict _ field _ _ => [field]
  | .compound _ parts => fieldNamesAll parts

/-- Names of the fields that several conditions are on. -/
def fieldNamesAll : List ConditionTree → List String
  | [] => []
  | t :: rest => fieldNames t ++ fieldNamesAll rest

end

/-- A condition on a field of the view alone, perhaps among others. -/
def NeedsView (t : ConditionTree) (e : Entity) : Prop :=
  ∃ name ∈ t.fieldNames, e.IsOnlyInView name

section Mark

variable {d : Dialect} {e : Entity}

/-- A restriction is marked for its own field. -/
theorem viewOnly_ofField {field : String} {f : Field} (hf : e.field field = .ok f) {r : Restriction}
    {operands : Nat} {c : BoundCondition} (h : BoundCondition.ofField d f r operands = .ok c) :
    c.viewOnly = true ↔ ∃ name ∈ [field], e.IsOnlyInView name := by
  obtain ⟨-, -, rfl⟩ := BoundCondition.ofField_eq_ok_iff.1 h
  simp only [List.mem_singleton, exists_eq_left]
  constructor
  · intro hmark
    exact ⟨f, hf, hmark⟩
  · rintro ⟨g, hg, hmark⟩
    rw [hf] at hg
    cases hg
    exact hmark

mutual

/-- A condition is marked exactly if some field that it is on is one of the view alone. -/
theorem viewOnly_build : ∀ {t : ConditionTree} {c : BoundCondition}, t.build d e = .ok c →
    (c.viewOnly = true ↔ t.NeedsView e)
  | .restrict inView field r operands, c, h => by
    rw [build] at h
    rw [NeedsView, fieldNames]
    cases inView with
    | true =>
      obtain ⟨f, hf, hc⟩ := bind_eq_ok_iff.1 h
      exact viewOnly_ofField hf hc
    | false =>
      obtain ⟨f, hf, hc⟩ := bind_eq_ok_iff.1 h
      exact viewOnly_ofField (Entity.tableField_eq_ok_iff.1 hf).1 hc
  | .compound r parts, c, h => by
    rw [build] at h
    obtain ⟨clauses, hclauses, hc⟩ := bind_eq_ok_iff.1 h
    obtain ⟨-, -, rfl⟩ := BoundCondition.compound_eq_ok hc
    rw [NeedsView, fieldNames]
    exact any_viewOnly_buildAll hclauses

/-- One of several conditions is marked exactly if some field is one of the view alone. -/
theorem any_viewOnly_buildAll : ∀ {ts : List ConditionTree} {cs : List BoundCondition},
    buildAll d e ts = .ok cs →
      (cs.any (·.viewOnly) = true ↔ ∃ name ∈ fieldNamesAll ts, e.IsOnlyInView name)
  | [], cs, h => by
    cases h
    simp [fieldNamesAll]
  | t :: rest, cs, h => by
    rw [buildAll] at h
    obtain ⟨c, hc, h⟩ := bind_eq_ok_iff.1 h
    obtain ⟨cs, hcs, h⟩ := bind_eq_ok_iff.1 h
    cases h
    rw [List.any_cons, Bool.or_eq_true, viewOnly_build hc, any_viewOnly_buildAll hcs, NeedsView,
      fieldNamesAll]
    constructor
    · rintro (⟨name, hname, honly⟩ | ⟨name, hname, honly⟩)
      · exact ⟨name, List.mem_append_left _ hname, honly⟩
      · exact ⟨name, List.mem_append_right _ hname, honly⟩
    · rintro ⟨name, hname, honly⟩
      rcases List.mem_append.1 hname with hname | hname
      · exact .inl ⟨name, hname, honly⟩
      · exact .inr ⟨name, hname, honly⟩

end

end Mark

end ConditionTree

/-! ## Queries -/

namespace Query

variable {q : Query} {d : Dialect} {e : Entity}

/-- A condition is refused exactly if it is marked and the view is not read. -/
theorem checkFilter_eq_ok_iff :
    q.checkFilter e = .ok () ↔ ∀ c ∈ q.filter, c.viewOnly = true → q.usesView e = true := by
  unfold checkFilter
  cases q.filter with
  | none => simp
  | some c =>
    cases hmark : c.viewOnly <;> cases huses : q.usesView e <;> simp [Entity.noField, hmark]

theorem usesView_of_select {s : PreparedStatement} (hs : q.select d e = .ok s) {c : BoundCondition}
    (hc : q.filter = some c) (hmark : c.viewOnly = true) : q.usesView e = true := by
  obtain ⟨_, -, hs⟩ := bind_eq_ok_iff.1 hs
  obtain ⟨⟨⟩, hcheck, -⟩ := bind_eq_ok_iff.1 hs
  exact checkFilter_eq_ok_iff.1 hcheck c hc hmark

theorem exists_view_of_usesView (h : q.usesView e = true) :
    ∃ view, e.view = some view ∧ q.source e = view.written := by
  obtain ⟨view, hview⟩ := Option.isSome_iff_exists.1 (Bool.and_eq_true_iff.1 h).2
  refine ⟨view, hview, ?_⟩
  rw [source, hview]
  exact if_pos h

theorem source_of_table (h : q.usesView e = false) : q.source e = e.table.written := by
  unfold source
  cases e.view with
  | none => rfl
  | some view =>
    show (if q.usesView e = true then view.written else e.table.written) = _
    rw [h]
    rfl

theorem visibleField_of_table (h : q.usesView e = false) (name : String) :
    q.visibleField e name = e.tableField name := by
  unfold visibleField
  rw [h]
  rfl

/-- Off the table only its own fields are selected. -/
theorem mem_tableFields_of_selected {fields : List Field} (h : q.usesView e = false)
    (hfields : q.selected e = .ok fields) : ∀ f ∈ fields, f ∈ e.tableFields := by
  unfold selected at hfields
  split at hfields
  · rw [h] at hfields
    cases hfields
    exact fun _ hf => hf
  · refine forall_of_mapM (fun name _ f hf => ?_) hfields
    rw [visibleField_of_table h] at hf
    exact (Entity.mem_tableFields_of_tableField hf).1

/-- Off the table the order is by its own columns. -/
theorem order_of_table {order : List (String × Bool)} (h : q.usesView e = false)
    (horder : q.order e = .ok order) :
    List.Forall₂ (fun item written => ∃ f, e.tableField item.1 = .ok f ∧
      written = (f.column.written, item.2)) q.orderBy order := by
  refine (mapM_eq_ok_iff.1 horder).imp fun item written hitem => ?_
  obtain ⟨f, hf, hwritten⟩ := bind_eq_ok_iff.1 hitem
  rw [visibleField_of_table h] at hf
  exact ⟨f, hf, (pure_eq_ok_iff.1 hwritten).symm⟩

end Query

/-- A query is refused for its condition exactly if that is on a field of the view alone and the
view is not read: so what is selected on such a field comes from the view, and a query of the table
selects and orders by columns of the table. A count comes from the table whatever its condition is
on, hence from the view on no condition that needs it. -/
theorem ConditionTree.readsView_iff {d : Dialect} {e : Entity} {t : ConditionTree}
    {c : BoundCondition} (h : t.build d e = .ok c) :
    (∀ q : Query, q.filter = some c →
        (q.checkFilter e = .ok () ↔ (t.NeedsView e → q.usesView e = true)) ∧
        ∀ s, q.select d e = .ok s → t.NeedsView e → s.ReadsView e) ∧
      (∀ (q : Query) (s : PreparedStatement), q.select d e = .ok s → q.usesView e = false →
        s.command.source = e.table.written ∧
          ∃ fields select, s.command = .select select ∧
            select.columns = Entity.writtenColumns fields ∧ (∀ f ∈ fields, f ∈ e.tableFields) ∧
            List.Forall₂ (fun item written => ∃ f, e.tableField item.1 = .ok f ∧
              written = (f.column.written, item.2)) q.orderBy select.order) ∧
      (e.count (some c)).command.source = e.table.written ∧
      ((∀ view, e.view = some view → view.written ≠ e.table.written) →
        ((t.NeedsView e → (e.count (some c)).ReadsView e) ↔ ¬ t.NeedsView e)) := by
  have hmark := viewOnly_build h
  refine ⟨fun q hq => ⟨?_, fun s hs hneeds => ?_⟩, fun q s hs htable => ?_, rfl, fun hnames => ?_⟩
  · rw [Query.checkFilter_eq_ok_iff, hq, ← hmark]
    simp
  · obtain ⟨view, hview, hsource⟩ := Query.exists_view_of_usesView
      (Query.usesView_of_select hs hq (hmark.2 hneeds))
    obtain ⟨fields, order, afterSelect, afterWhere, atEnd, -, -, -, -, -, rfl⟩ :=
      Entity.select_eq_ok hs
    exact ⟨view, hview, hsource⟩
  · obtain ⟨fields, order, afterSelect, afterWhere, atEnd, hfields, horder, -, -, -, rfl⟩ :=
      Entity.select_eq_ok hs
    exact ⟨Query.source_of_table htable, fields, _, rfl, rfl,
      Query.mem_tableFields_of_selected htable hfields, Query.order_of_table htable horder⟩
  · constructor
    · intro hreads hneeds
      obtain ⟨view, hview, hsource⟩ := hreads hneeds
      exact hnames view hview hsource.symm
    · intro hneeds hneeded
      exact absurd hneeded hneeds

/-! ## Posts by the names of their authors -/

/-- Posts whose author has some name. -/
def authorTree : ConditionTree := .restrict true "authorName" .equals 1

/-- A page of what meets a condition, from the view. -/
def listOf (c : BoundCondition) : Query := { filter := some c, limit := 10, fromView := true }

/-- The posts of a range of authors are listed from the view, although the field of the view alone
is named in a compound of a compound. -/
theorem posts_listed :
    ∃ e c s, Entity.ofSpec (Dialect.builtin .oracle) postSpec = .ok e ∧
      postTree.build (Dialect.builtin .oracle) e = .ok c ∧ postTree.NeedsView e ∧
      (listOf c).select (Dialect.builtin .oracle) e = .ok s ∧ s.ReadsView e ∧
      ({ listOf c with fromView := false }).checkFilter e ≠ .ok () := by
  obtain ⟨⟨e, c, s⟩, hall, hmark⟩ : ∃ p : Entity × BoundCondition × PreparedStatement, (do
      let e ← Entity.ofSpec (Dialect.builtin .oracle) postSpec
      let c ← postTree.build (Dialect.builtin .oracle) e
      let s ← (listOf c).select (Dialect.builtin .oracle) e
      return (e, c, s)) = .ok p ∧ p.2.1.viewOnly = true :=
    exists_ok_of_any (by decide +kernel)
  obtain ⟨e, he, hall⟩ := bind_eq_ok_iff.1 hall
  obtain ⟨c, hc, hall⟩ := bind_eq_ok_iff.1 hall
  obtain ⟨s, hs, hall⟩ := bind_eq_ok_iff.1 hall
  cases pure_eq_ok_iff.1 hall
  have hneeds := (ConditionTree.viewOnly_build hc).1 hmark
  have hqueries := (ConditionTree.readsView_iff hc).1
  refine ⟨e, c, s, he, hc, hneeds, hs, (hqueries (listOf c) rfl).2 s hs hneeds, fun hcheck => ?_⟩
  have huses := ((hqueries { listOf c with fromView := false } rfl).1.1 hcheck) hneeds
  exact absurd huses Bool.false_ne_true

/-- The posts of an author are counted in the table, which has no column for the author's name. -/
theorem posts_counted_in_table :
    ∃ e c, Entity.ofSpec (Dialect.builtin .hsqldb) postSpec = .ok e ∧
      authorTree.build (Dialect.builtin .hsqldb) e = .ok c ∧ authorTree.NeedsView e ∧
      (e.count (some c)).command.text .compact =
        "SELECT COUNT(*) FROM PUBLIC.POST WHERE AUTHOR_NAME = ?" ∧
      ¬ (e.count (some c)).ReadsView e := by
  obtain ⟨⟨e, c⟩, hall, hrun⟩ : ∃ p : Entity × BoundCondition, (do
      let e ← Entity.ofSpec (Dialect.builtin .hsqldb) postSpec
      let c ← authorTree.build (Dialect.builtin .hsqldb) e
      return (e, c)) = .ok p ∧ (p.2.viewOnly && (p.1.count (some p.2)).command.text .compact ==
        "SELECT COUNT(*) FROM PUBLIC.POST WHERE AUTHOR_NAME = ?" &&
        (p.1.view.map (·.written) == some "PUBLIC.V_POST") &&
        (p.1.table.written == "PUBLIC.POST")) = true :=
    exists_ok_of_any (by decide +kernel)
  obtain ⟨e, he, hall⟩ := bind_eq_ok_iff.1 hall
  obtain ⟨c, hc, hall⟩ := bind_eq_ok_iff.1 hall
  cases pure_eq_ok_iff.1 hall
  simp only [Bool.and_eq_true, beq_iff_eq, Option.map_eq_some_iff] at hrun
  obtain ⟨⟨⟨hmark, htext⟩, view, hview, hwritten⟩, htable⟩ := hrun
  refine ⟨e, c, he, hc, (ConditionTree.viewOnly_build hc).1 hmark, htext, ?_⟩
  rintro ⟨other, hother, hsource⟩
  obtain rfl := Option.some.inj (hview.symm.trans hother)
  have hnames : e.table.written = view.written := hsource
  rw [hwritten, htable] at hnames
  exact absurd hnames (by decide)

end SqlDialects
