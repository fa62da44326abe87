import SqlDialects.Proofs.ConstraintStep

/-!
# The script of an upgrade, part by part

An upgrade brings the tables of entities up to date in order, and the view of each after its table.
Views may go before all of that. This module says which statements each part has, so that nothing
later opens the planner again.

Results:
1. `Registry.upgrade_eq_ok`: the parts of an upgrade.
2. `Entity.upgradeView_eq_ok`: the statements on one view.
3. `Entity.isOnTable_upgradeTable`: what bringing a table up to date states, none of it on a view.
-/

namespace SqlDialects

/-- Names of the views of a catalog. -/
def Catalog.views (c : Catalog) : Finset String :=
  ((c.objects.filter (·.kind == .view)).map fun o => Text.asciiLower o.name).toFinset

/-- Whether a statement creates or drops a view. -/
def Statement.isOnView : Statement → Bool
  | .createView .. | .dropView .. => true
  | _ => false

/-! ## The parts of an upgrade -/

theorem planning_eq_ok_iff {α : Type} {x : Except Error α} {a : α} :
    planning x = .ok a ↔ x = .ok a := by
  cases x with
  | error _ => simp [planning, Except.mapError]
  | ok _ => simp [planning, Except.mapError]

namespace Entity

variable {e : Entity} {r : Registry} {catalog : Catalog} {view : Name}

theorem existingView_eq_ok {found : Option CatalogObject}
    (h : existingView catalog view = .ok found) :
    view.caseless ∈ catalog.views ↔ found.isSome := by
  have hmem : view.caseless ∈ catalog.views ↔
      ∃ o ∈ catalog.objects, o.kind = .view ∧ Text.sameName o.name view.raw = true := by
    simp [Catalog.views, Name.caseless, Text.sameName_iff, and_assoc]
  rw [hmem]
  unfold existingView Catalog.find? at h
  split at h
  · next hnone =>
    cases h
    have hall := List.find?_eq_none.1 hnone
    simp only [Option.isSome_none, Bool.false_eq_true, iff_false]
    rintro ⟨o, ho, _, hname⟩
    exact hall o ho hname
  · next existing hfind =>
    split at h
    · next hkind =>
      cases h
      exact iff_of_true
        ⟨existing, List.mem_of_find?_eq_some hfind, hkind, by simpa using List.find?_some hfind⟩ rfl
    · cases h

theorem dropExistingView_eq_ok {statements : List Statement}
    (h : e.dropExistingView catalog = .ok statements) :
    statements = (e.view.toList.filter (·.caseless ∈ catalog.views)).map .dropView := by
  unfold dropExistingView at h
  split at h
  · next hview =>
    cases h
    rw [hview]
    rfl
  · next view hview =>
    obtain ⟨found, hfound, h⟩ := bind_eq_ok_iff.1 h
    have hmem := existingView_eq_ok hfound
    cases found with
    | some existing =>
      cases h
      rw [hview, Option.toList_some, List.filter_cons_of_pos (by simp [hmem])]
      rfl
    | none =>
      cases h
      rw [hview, Option.toList_some, List.filter_cons_of_neg (by simp [hmem])]
      rfl

theorem createView_eq_ok {create : Option Statement} (hview : e.view = some view)
    (h : e.createView r = .ok create) :
    ∃ columns joins, create = some (.createView view e.table columns joins) := by
  obtain ⟨hnone, -⟩ | ⟨_, parts, hsome, -, rfl⟩ := createView_cases h
  · rw [hview] at hnone
    cases hnone
  · cases hview.symm.trans hsome
    exact ⟨_, _, rfl⟩

/-- A view is left as it is, dropped and created, or only created where it is not there any more. -/
theorem upgradeView_eq_ok {changed dropped : Bool} {statements : List Statement}
    (hview : e.view = some view)
    (h : e.upgradeView r catalog changed dropped = .ok statements) :
    (view.caseless ∈ catalog.views ∧ dropped = false ∧ statements = []) ∨
      ∃ columns joins,
        e.createView r = .ok (some (.createView view e.table columns joins)) ∧
          ((view.caseless ∈ catalog.views ∧ dropped = false ∧
              statements = [.dropView view, .createView view e.table columns joins]) ∨
            ((view.caseless ∈ catalog.views → dropped = true) ∧
              statements = [.createView view e.table columns joins])) := by
  unfold upgradeView at h
  rw [hview] at h
  obtain ⟨found, hfound, h⟩ := bind_eq_ok_iff.1 h
  have hmem := existingView_eq_ok hfound
  cases found with
  | none =>
    obtain ⟨create, hcreate, h⟩ := bind_eq_ok_iff.1 h
    cases h
    have hcreate := planning_eq_ok_iff.1 hcreate
    obtain ⟨columns, joins, rfl⟩ := createView_eq_ok hview hcreate
    exact .inr ⟨columns, joins, hcreate, .inr ⟨fun hv => by simp [hmem] at hv, rfl⟩⟩
  | some existing =>
    have hmem : view.caseless ∈ catalog.views := hmem.2 rfl
    simp only at h
    split at h
    · next hdropped =>
      obtain ⟨create, hcreate, h⟩ := bind_eq_ok_iff.1 h
      cases h
      have hcreate := planning_eq_ok_iff.1 hcreate
      obtain ⟨columns, joins, rfl⟩ := createView_eq_ok hview hcreate
      exact .inr ⟨columns, joins, hcreate, .inr ⟨fun _ => hdropped, rfl⟩⟩
    · next hdropped =>
      rw [Bool.not_eq_true] at hdropped
      split at h
      · obtain ⟨_, hsteps, h⟩ := bind_eq_ok_iff.1 h
        obtain ⟨create, hcreate, hsteps⟩ := bind_eq_ok_iff.1 hsteps
        cases hsteps
        cases h
        have hcreate := planning_eq_ok_iff.1 hcreate
        obtain ⟨columns, joins, rfl⟩ := createView_eq_ok hview hcreate
        exact .inr ⟨columns, joins, hcreate, .inl ⟨hmem, hdropped, rfl⟩⟩
      · cases h
        exact .inl ⟨hmem, hdropped, rfl⟩

theorem upgradeView_of_none {changed dropped : Bool} {statements : List Statement}
    (hview : e.view = none) (h : e.upgradeView r catalog changed dropped = .ok statements) :
    statements = [] := by
  unfold upgradeView at h
  rw [hview] at h
  cases h
  rfl

end Entity

namespace Registry

variable {r : Registry} {keys : Bool} {names : List String} {catalog : Catalog} {plan : Upgrade}
  {entities : List Entity}

theorem dropViews_eq_ok {statements : List Statement}
    (h : dropViews entities catalog = .ok statements) :
    statements =
      ((entities.filterMap (·.view)).filter (·.caseless ∈ catalog.views)).map .dropView := by
  obtain ⟨drops, hdrops, h⟩ := bind_eq_ok_iff.1 h
  cases h
  clear h
  replace hdrops := mapM_eq_ok_iff.1 hdrops
  induction hdrops with
  | nil => rfl
  | @cons e drop rest drops he _ ih =>
    rw [List.flatten_cons, ih, Entity.dropExistingView_eq_ok he, List.filterMap_eq_flatMap_toList,
      List.filterMap_eq_flatMap_toList, List.flatMap_cons, List.filter_append, List.map_append]

/-- Whether all views go before tables change. -/
def rebuilds (r : Registry) (entities : List Entity) (tables : Entity → List Statement) : Bool :=
  r.dialect.rebuildsViews && entities.any fun e => !(tables e).isEmpty

/-- What an upgrade of some entities consists of: for each the statements on its table and on its
view, and the views that go before any table changes. -/
structure IsUpgrade (r : Registry) (keys : Bool) (catalog : Catalog) (entities : List Entity)
    (plan : Upgrade) (tables views : Entity → List Statement) : Prop where
  table : ∀ e ∈ entities, e.upgradeTable r keys catalog = .ok (tables e)
  view : ∀ e ∈ entities,
    e.upgradeView r catalog (!(tables e).isEmpty) (r.rebuilds entities tables) = .ok (views e)
  viewDrops : plan.viewDrops =
    if r.rebuilds entities tables then
      ((entities.filterMap (·.view)).filter (·.caseless ∈ catalog.views)).map .dropView
    else []
  scripts : plan.scripts = entities.map fun e => ⟨e.name, tables e ++ views e⟩

theorem upgrade_eq_ok (h : r.upgrade keys names catalog = .ok plan)
    (horder : r.referenceOrder names = .ok entities) :
    ∃ tables views, r.IsUpgrade keys catalog entities plan tables views := by
  obtain ⟨entities', horder', h⟩ := bind_eq_ok_iff.1 h
  cases horder.symm.trans (planning_eq_ok_iff.1 horder')
  obtain ⟨pairs, hpairs, h⟩ := bind_eq_ok_iff.1 h
  obtain ⟨tables, htables, rfl⟩ := exists_results hpairs
  have hrebuilds : (r.dialect.rebuildsViews &&
      (entities.map fun e => (e, tables e)).any fun t => !t.2.isEmpty) = r.rebuilds entities tables := by
    rw [List.any_map]
    rfl
  simp only [hrebuilds, List.mapM_map] at h
  cases hdropped : r.rebuilds entities tables with
  | true =>
    rw [hdropped] at h
    obtain ⟨drops, hdrops, h⟩ := bind_eq_ok_iff.1 h
    obtain ⟨scripts, hscripts, h⟩ := bind_eq_ok_iff.1 h
    obtain ⟨views, hviews, rfl⟩ := exists_results hscripts
    cases h
    exact ⟨tables, views, htables, hdropped ▸ hviews, (dropViews_eq_ok hdrops).trans (if_pos hdropped).symm,
      rfl⟩
  | false =>
    rw [hdropped] at h
    obtain ⟨_, hdrops, h⟩ := bind_eq_ok_iff.1 h
    obtain ⟨scripts, hscripts, h⟩ := bind_eq_ok_iff.1 h
    obtain ⟨views, hviews, rfl⟩ := exists_results hscripts
    cases hdrops
    cases h
    exact ⟨tables, views, htables, hdropped ▸ hviews, (if_neg (Bool.eq_false_iff.1 hdropped)).symm, rfl⟩

end Registry

/-! ## Statements on views -/

theorem Entity.isOnView_upgradeView {e : Entity} {r : Registry} {catalog : Catalog}
    {changed dropped : Bool} {statements : List Statement}
    (h : e.upgradeView r catalog changed dropped = .ok statements) :
    ∀ s ∈ statements, s.isOnView = true := by
  cases hview : e.view with
  | none =>
    rw [upgradeView_of_none hview h]
    simp
  | some view =>
    obtain ⟨_, _, rfl⟩ | ⟨columns, joins, _, ⟨_, _, rfl⟩ | ⟨_, rfl⟩⟩ := upgradeView_eq_ok hview h
    · simp
    · simp [Statement.isOnView]
    · simp [Statement.isOnView]

/-- A view is created by the last statement on it. -/
theorem Entity.upgradeView_eq_append {e : Entity} {r : Registry} {catalog : Catalog}
    {changed dropped : Bool} {view table : Name} {columns : List ViewColumn}
    {joins : List ViewJoin} {opening tail : List Statement}
    (h : e.upgradeView r catalog changed dropped =
      .ok (opening ++ .createView view table columns joins :: tail)) :
    e.view = some view ∧
      e.createView r = .ok (some (.createView view table columns joins)) ∧ tail = [] := by
  cases hview : e.view with
  | none =>
    have := upgradeView_of_none hview h
    simp at this
  | some name =>
    obtain ⟨_, _, hs⟩ | ⟨columns', joins', hcreate, ⟨_, _, hs⟩ | ⟨_, hs⟩⟩ :=
      upgradeView_eq_ok hview h
    · simp at hs
    · cases opening with
      | nil => cases hs
      | cons _ rest =>
        obtain ⟨-, hs⟩ := List.cons.inj hs
        cases rest with
        | nil =>
          cases hs
          exact ⟨rfl, hcreate, rfl⟩
        | cons _ rest =>
          obtain ⟨-, hs⟩ := List.cons.inj hs
          simp at hs
    · cases opening with
      | nil =>
        cases hs
        exact ⟨rfl, hcreate, rfl⟩
      | cons _ rest =>
        obtain ⟨-, hs⟩ := List.cons.inj hs
        simp at hs

namespace Registry

variable {r : Registry} {keys : Bool} {catalog : Catalog} {plan : Upgrade}
  {entities : List Entity} {tables views : Entity → List Statement}

theorem IsUpgrade.statements (h : r.IsUpgrade keys catalog entities plan tables views) :
    plan.statements = plan.viewDrops ++ entities.flatMap fun e => tables e ++ views e := by
  rw [Upgrade.statements, h.scripts, List.flatMap_map]

theorem IsUpgrade.isOnView_viewDrops (h : r.IsUpgrade keys catalog entities plan tables views) :
    ∀ s ∈ plan.viewDrops, ∃ view, s = .dropView view := by
  rw [h.viewDrops]
  split
  · intro s hs
    obtain ⟨view, _, rfl⟩ := List.mem_map.1 hs
    exact ⟨view, rfl⟩
  · simp

end Registry

/-! ## Statements on tables -/

/-- Whether a statement changes a table that is there, other than by a foreign key. -/
def Statement.isOnPart : Statement → Bool
  | .createTable .. | .addForeignKey .. | .createView .. | .dropView .. => false
  | _ => true

theorem Statement.isOnPart_of_changedColumn? {s : Statement} {column : Name}
    (h : s.changedColumn? = some column) : s.isOnPart = true := by
  cases s with
  | createTable | addForeignKey | createView | dropView => cases h
  | _ => rfl

/-- What bringing the table of an entity up to date may state: that it is created, that a foreign key
of a field is added, or a change to another part of it. -/
inductive Entity.IsOnTable (e : Entity) (r : Registry) : Statement → Prop
  | creation (items : List TableItem) : IsOnTable e r (.createTable e.table items)
  | key {name : String} {s : Statement} : e.addForeignKey r name = .ok s → IsOnTable e r s
  | part {s : Statement} : s.isOnPart = true → IsOnTable e r s

section OnTables

variable {e : Entity} {r : Registry} {d : Dialect} {s : Statement} {statements : List Statement}

namespace Entity

/-- A key field of the table, and the entity that it refers to. -/
structure LeadsTo (e : Entity) (r : Registry) (name : String) (key : Field)
    (reference : FieldReference) (g : Entity) : Prop where
  found : e.tableField name = .ok key
  refers : key.foreignKey = some reference
  registered : r.get reference.entity = .ok g

/-- A key field leads to one entity. -/
theorem LeadsTo.unique {name : String} {key key' : Field} {reference reference' : FieldReference}
    {g g' : Entity} (h : e.LeadsTo r name key reference g)
    (h' : e.LeadsTo r name key' reference' g') :
    key = key' ∧ reference = reference' ∧ g = g' := by
  obtain rfl : key = key' := Except.ok.inj (h.found.symm.trans h'.found)
  obtain rfl : reference = reference' := Option.some.inj (h.refers.symm.trans h'.refers)
  exact ⟨rfl, rfl, Except.ok.inj (h.registered.symm.trans h'.registered)⟩

theorem sourceEntity_eq_ok_iff {source : ViewSource} {key : Field} {reference : FieldReference}
    {g : Entity} :
    e.sourceEntity r source = .ok (key, reference, g) ↔
      e.LeadsTo r source.keyField key reference g := by
  constructor
  · intro h
    obtain ⟨found, hkey, h⟩ := bind_eq_ok_iff.1 h
    split at h
    · cases h
    · next _ href =>
      obtain ⟨_, hget, h⟩ := bind_eq_ok_iff.1 h
      cases h
      exact ⟨hkey, href, hget⟩
  · intro h
    refine bind_eq_ok_iff.2 ⟨key, h.found, ?_⟩
    simp only [h.refers]
    exact bind_eq_ok_iff.2 ⟨g, h.registered, rfl⟩

/-- The foreign key of a field leads to a registered entity, and to a field of that. -/
theorem addForeignKey_eq_ok_iff {name : String} :
    e.addForeignKey r name = .ok s ↔
      ∃ key reference g target, e.LeadsTo r name key reference g ∧
        g.field reference.field = .ok target ∧
          s = .addForeignKey e.table (r.dialect.naming.name (e.foreignKeyName key)) key.column
            g.table target.column := by
  constructor
  · intro h
    obtain ⟨key, hkey, h⟩ := bind_eq_ok_iff.1 h
    split at h
    · cases h
    · next reference href =>
      obtain ⟨g, hget, h⟩ := bind_eq_ok_iff.1 h
      obtain ⟨target, htarget, h⟩ := bind_eq_ok_iff.1 h
      cases h
      exact ⟨key, reference, g, target, ⟨hkey, href, hget⟩, htarget, rfl⟩
  · rintro ⟨key, reference, g, target, hkey, htarget, rfl⟩
    refine bind_eq_ok_iff.2 ⟨key, hkey.found, ?_⟩
    simp only [hkey.refers]
    exact bind_eq_ok_iff.2 ⟨g, hkey.registered, bind_eq_ok_iff.2 ⟨target, htarget, rfl⟩⟩

/-- The foreign key of a field refers from the table of its entity to that of the registered one. -/
theorem addForeignKey_eq_ok {name : String} (h : e.addForeignKey r name = .ok s) :
    ∃ f ∈ e.tableFields, ∃ reference, f.foreignKey = some reference ∧
      ∃ target, r.get reference.entity = .ok target ∧
        ∃ key column, s = .addForeignKey e.table key f.column target.table column := by
  obtain ⟨key, reference, g, target, hkey, _, rfl⟩ := addForeignKey_eq_ok_iff.1 h
  exact ⟨key, (mem_tableFields_of_tableField hkey.found).1, reference, hkey.refers, g,
    hkey.registered, _, _, rfl⟩

theorem isOnPart_addUnique {u : UniqueSpec} (h : e.addUnique d u = .ok s) : s.isOnPart = true := by
  obtain ⟨columns, _, h⟩ := bind_eq_ok_iff.1 h
  cases h
  rfl

theorem isOnPart_createIndex {i : IndexSpec} (h : e.createIndex d i = .ok s) :
    s.isOnPart = true := by
  obtain ⟨columns, _, h⟩ := bind_eq_ok_iff.1 h
  cases h
  rfl

theorem isOnPart_addCheck {c : CheckSpec} (h : e.addCheck d c = .ok s) : s.isOnPart = true := by
  obtain ⟨f, _, h⟩ := bind_eq_ok_iff.1 h
  obtain ⟨literals, _, h⟩ := bind_eq_ok_iff.1 h
  cases h
  rfl

theorem createAll_eq (e : Entity) (r : Registry) (keys : Bool) :
    e.createAll r keys = (do
      let table ← e.createTable r.dialect
      let foreignKeys ← (if keys then
          (e.tableFields.filter (·.foreignKey.isSome)).mapM fun f => e.addForeignKey r f.name
        else .ok [])
      let uniques ← (if r.dialect.inlineConstraints then .ok [] else
        e.source.uniqueConstraints.mapM (e.addUnique r.dialect))
      let indexes ← (if r.dialect.inlineConstraints then .ok [] else
        e.source.indexes.mapM (e.createIndex r.dialect))
      let checks ← e.source.checkConstraints.mapM (e.addCheck r.dialect)
      return table ++ foreignKeys ++ uniques ++ indexes ++ checks) := by
  rw [createAll]
  cases keys <;> cases r.dialect.inlineConstraints <;> rfl

/-- A new table is created with its parts one after the other. -/
theorem exists_parts_of_createAll {keys : Bool} (h : e.createAll r keys = .ok statements) :
    ∃ table foreignKeys uniques indexes checks, e.createTable r.dialect = .ok table ∧
      (if keys then
        (e.tableFields.filter (·.foreignKey.isSome)).mapM fun f => e.addForeignKey r f.name
      else .ok []) = .ok foreignKeys ∧
      (if r.dialect.inlineConstraints then .ok [] else
        e.source.uniqueConstraints.mapM (e.addUnique r.dialect)) = .ok uniques ∧
      (if r.dialect.inlineConstraints then .ok [] else
        e.source.indexes.mapM (e.createIndex r.dialect)) = .ok indexes ∧
      e.source.checkConstraints.mapM (e.addCheck r.dialect) = .ok checks ∧
      statements = table ++ foreignKeys ++ uniques ++ indexes ++ checks := by
  rw [createAll_eq] at h
  obtain ⟨table, htable, h⟩ := bind_eq_ok_iff.1 h
  obtain ⟨foreignKeys, hkeys, h⟩ := bind_eq_ok_iff.1 h
  obtain ⟨uniques, huniques, h⟩ := bind_eq_ok_iff.1 h
  obtain ⟨indexes, hindexes, h⟩ := bind_eq_ok_iff.1 h
  obtain ⟨checks, hchecks, h⟩ := bind_eq_ok_iff.1 h
  cases h
  exact ⟨table, foreignKeys, uniques, indexes, checks, htable, hkeys, huniques, hindexes, hchecks,
    rfl⟩

/-- The table is created before anything else. -/
theorem createAll_eq_ok {keys : Bool} (h : e.createAll r keys = .ok statements) :
    ∃ items rest, statements = .createTable e.table items :: rest ∧
      ∀ s ∈ statements, e.IsOnTable r s := by
  obtain ⟨table, foreignKeys, uniques, indexes, checks, htable, hkeys, huniques, hindexes, hchecks,
    rfl⟩ := exists_parts_of_createAll h
  obtain ⟨inline, support, -, rfl, hsupport⟩ := createTable_eq_ok htable
  have hparts : ∀ s ∈ support, s.isOnPart = true := fun s hs => by
    obtain rfl | ⟨_, rfl⟩ := hsupport s hs
    · rfl
    · rfl
  refine ⟨_, _, rfl, ?_⟩
  simp only [List.forall_mem_append, List.forall_mem_cons]
  refine ⟨⟨⟨⟨⟨.creation _, fun s hs => .part (hparts s hs)⟩, ?_⟩, ?_⟩, ?_⟩,
    forall_of_mapM (fun _ _ _ hs => .part (isOnPart_addCheck hs)) hchecks⟩
  · split at hkeys
    · exact forall_of_mapM (fun _ _ _ => .key) hkeys
    · cases hkeys
      simp
  · split at huniques
    · cases huniques
      simp
    · exact forall_of_mapM (fun _ _ _ hs => .part (isOnPart_addUnique hs)) huniques
  · split at hindexes
    · cases hindexes
      simp
    · exact forall_of_mapM (fun _ _ _ hs => .part (isOnPart_createIndex hs)) hindexes

theorem isOnPart_addColumn {name : String} (h : e.addColumn d name = .ok statements) :
    ∀ s ∈ statements, s.isOnPart = true := by
  obtain ⟨f, _, ⟨_, rfl⟩ | ⟨_, literal, _, rfl⟩⟩ := addColumn_eq_ok h
  · simp [Statement.isOnPart]
  · simp [Statement.isOnPart]

theorem convergeFields_cons (e : Entity) (d : Dialect) (columns : List CatalogColumn) (f : Field)
    (rest : List Field) :
    e.convergeFields d columns (f :: rest) = (do
      let here ← (match (takeColumn f.column.raw columns).1 with
        | some observed => e.alterColumn d f.name observed
        | none => e.addColumn d f.name)
      let (more, left) ← e.convergeFields d (takeColumn f.column.raw columns).2 rest
      return (here ++ more, left)) := by
  rw [convergeFields]
  obtain ⟨_ | observed, left⟩ := takeColumn f.column.raw columns
  · rfl
  · rfl

theorem isOnPart_convergeFields {fields : List Field} {columns : List CatalogColumn}
    {result : List Statement × List CatalogColumn}
    (h : e.convergeFields d columns fields = .ok result) :
    ∀ s ∈ result.1, s.isOnPart = true := by
  induction fields generalizing columns result with
  | nil =>
    cases h
    simp
  | cons f rest ih =>
    rw [convergeFields_cons] at h
    obtain ⟨here, hhere, h⟩ := bind_eq_ok_iff.1 h
    obtain ⟨more, hmore, h⟩ := bind_eq_ok_iff.1 h
    cases h
    refine List.forall_mem_append.2 ⟨?_, ih hmore⟩
    split at hhere
    · obtain ⟨g, _, hhere⟩ := bind_eq_ok_iff.1 hhere
      exact fun s hs =>
        Statement.isOnPart_of_changedColumn? (changedColumn?_of_mem_convergeColumn hhere hs)
    · exact isOnPart_addColumn hhere

theorem isOnPart_convergeColumns {existing : CatalogObject}
    (h : e.convergeColumns d existing = .ok statements) :
    ∀ s ∈ statements, s.isOnPart = true := by
  obtain ⟨result, hresult, h⟩ := bind_eq_ok_iff.1 h
  cases h
  refine List.forall_mem_append.2 ⟨isOnPart_convergeFields hresult, ?_⟩
  rintro s hs
  obtain ⟨c, _, rfl⟩ := List.mem_map.1 hs
  rfl

/-! Reconciling constraints only ever adds what one of four builders gives. -/

theorem convergeConstraints_eq (e : Entity) (r : Registry) (keys : Bool)
    (existing : CatalogObject) :
    e.convergeConstraints r keys existing = (do
      let withKeys ← (if keys then
          e.tableFields.foldlM (e.reconcileForeignKey r existing) ⟨existing.constraints, []⟩
        else .ok ⟨existing.constraints, []⟩)
      let withUniques ←
        e.source.uniqueConstraints.foldlM (e.reconcileUnique r.dialect existing) withKeys
      let withIndexes ← e.source.indexes.foldlM (e.reconcileIndex r.dialect existing) withUniques
      let final ←
        e.source.checkConstraints.foldlM (e.reconcileCheck r.dialect existing) withIndexes
      return final.leftovers.map (Reconciliation.dropLeftover e r.dialect) ++ final.additions) := by
  rw [convergeConstraints]
  cases keys <;> rfl

/-- Whether all additions so far are on the table of an entity. -/
def AddsOnTable (e : Entity) (r : Registry) (s : Reconciliation) : Prop :=
  ∀ a ∈ s.additions, e.IsOnTable r a

theorem AddsOnTable.claimOrAdd {s t : Reconciliation} {isMatch : Bool}
    {name : String} {kind : ConstraintKind} {addition : Except Error Statement}
    (hs : e.AddsOnTable r s) (ha : ∀ a, addition = .ok a → e.IsOnTable r a)
    (h : s.claimOrAdd isMatch name kind addition = .ok t) : e.AddsOnTable r t := fun a hmem =>
  (Reconciliation.mem_additions_claimOrAdd h hmem).elim (hs a) (ha a)

theorem isOnTable_convergeConstraints {keys : Bool} {existing : CatalogObject}
    (h : e.convergeConstraints r keys existing = .ok statements) :
    ∀ s ∈ statements, e.IsOnTable r s := by
  rw [convergeConstraints_eq] at h
  obtain ⟨withKeys, hkeys, h⟩ := bind_eq_ok_iff.1 h
  obtain ⟨withUniques, huniques, h⟩ := bind_eq_ok_iff.1 h
  obtain ⟨withIndexes, hindexes, h⟩ := bind_eq_ok_iff.1 h
  obtain ⟨final, hchecks, h⟩ := bind_eq_ok_iff.1 h
  cases h
  have hk : e.AddsOnTable r withKeys := by
    split at hkeys
    · refine foldlM_invariant (p := e.AddsOnTable r) (fun f _ s t hs ht => ?_)
        (fun _ ha => absurd ha List.not_mem_nil) hkeys
      obtain rfl | ⟨_, _, -, -, ht⟩ := reconcileForeignKey_eq_ok ht
      · exact hs
      · exact hs.claimOrAdd (fun _ => .key) ht
    · cases hkeys
      exact fun _ ha => absurd ha List.not_mem_nil
  have hu := foldlM_invariant (p := e.AddsOnTable r) (fun u _ s t hs ht => by
    obtain ⟨_, -, ht⟩ := bind_eq_ok_iff.1 (reconcileUnique_eq ▸ ht)
    exact hs.claimOrAdd (fun _ ha => .part (isOnPart_addUnique ha)) ht) hk huniques
  have hi := foldlM_invariant (p := e.AddsOnTable r) (fun i _ s t hs ht => by
    obtain ⟨_, -, ht⟩ := bind_eq_ok_iff.1 (reconcileIndex_eq ▸ ht)
    exact hs.claimOrAdd (fun _ ha => .part (isOnPart_createIndex ha)) ht) hu hindexes
  have hc := foldlM_invariant (p := e.AddsOnTable r) (fun c _ s t hs ht => by
    obtain rfl | ⟨a, ha, rfl⟩ := reconcileCheck_eq_ok ht
    · exact hs
    · exact List.forall_mem_append.2
        ⟨hs, List.forall_mem_singleton.2 (.part (isOnPart_addCheck ha))⟩) hi hchecks
  refine List.forall_mem_append.2 ⟨fun s hs => .part ?_, hc⟩
  obtain ⟨c, _, rfl⟩ := List.mem_map.1 hs
  unfold Reconciliation.dropLeftover
  cases c.kind with
  | foreignKey => rfl
  | unique => rfl
  | index => rfl

/-- A table that the catalog does not have is created first. -/
theorem upgradeTable_of_missing {keys : Bool} {catalog : Catalog}
    (h : e.upgradeTable r keys catalog = .ok statements) (hmissing : catalog.find? e.table.raw = none) :
    ∃ items rest, statements = .createTable e.table items :: rest := by
  unfold upgradeTable at h
  simp only [hmissing] at h
  obtain ⟨items, rest, hrest, _⟩ := createAll_eq_ok (planning_eq_ok_iff.1 h)
  exact ⟨items, rest, hrest⟩

/-- Bringing a table up to date creates it, adds its foreign keys and changes its other parts. -/
theorem isOnTable_upgradeTable {keys : Bool} {catalog : Catalog}
    (h : e.upgradeTable r keys catalog = .ok statements) :
    ∀ s ∈ statements, e.IsOnTable r s := by
  unfold upgradeTable at h
  split at h
  · obtain ⟨_, _, _, hall⟩ := createAll_eq_ok (planning_eq_ok_iff.1 h)
    exact hall
  · split at h
    · obtain ⟨columns, hcolumns, h⟩ := bind_eq_ok_iff.1 h
      obtain ⟨constraints, hconstraints, h⟩ := bind_eq_ok_iff.1 h
      cases h
      refine List.forall_mem_append.2
        ⟨fun s hs => .part ?_, isOnTable_convergeConstraints (planning_eq_ok_iff.1 hconstraints)⟩
      exact isOnPart_convergeColumns (planning_eq_ok_iff.1 hcolumns) s hs
    · cases h

/-- Bringing a table up to date concerns no view. -/
theorem isOnView_upgradeTable {keys : Bool} {catalog : Catalog}
    (h : e.upgradeTable r keys catalog = .ok statements) :
    ∀ s ∈ statements, s.isOnView = false := by
  intro s hs
  cases isOnTable_upgradeTable h s hs with
  | creation => rfl
  | key hkey =>
    obtain ⟨_, _, _, _, _, _, _, _, rfl⟩ := addForeignKey_eq_ok hkey
    rfl
  | part hpart =>
    cases s with
    | createView | dropView => cases hpart
    | _ => rfl

end Entity

end OnTables

end SqlDialects
