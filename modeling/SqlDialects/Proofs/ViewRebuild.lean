import SqlDialects.Proofs.KeyTargets

/-!
# Views over tables that an upgrade changes

Some dialects do not change a table under a view that reads it: the view has to go before the first
statement on the table and come back after the last one. An upgrade knows the views of the entities
that it brings up to date. Views lead to other entities the way keys do, from the one that reads to the
one that is read, so what an upgrade reaches from a table is not what reads it.

Results:
1. `Registry.IsUpgrade.rebuilds_iff`: a view is rebuilt exactly if an entity in order no earlier than
   the changed one creates it.
2. `Registry.not_mem_before_of_reads`: unless references go in a circle, the entity of a view is in
   order no earlier than the tables that the view reads.
3. `Registry.upgrade_rebuilds`: which views an upgrade rebuilds around the changes to a table;
   `unplanned_view_stays`: a view that reads the table and is not rebuilt.
-/

namespace SqlDialects

/-! ## Rebuilding a view -/

namespace Upgrade

/-- Whether an upgrade has statements on the table of an entity. -/
def ChangesTable (p : Upgrade) (entity : String) : Prop :=
  ∃ script ∈ p.scripts, script.entity = entity ∧ ∃ s ∈ script.statements, s.isOnView = false

instance (p : Upgrade) (entity : String) : Decidable (p.ChangesTable entity) :=
  inferInstanceAs (Decidable (∃ script ∈ p.scripts, _))

/-- Whether each statement on the table of an entity comes after a view is dropped, and before the view
is created again. -/
def Rebuilds (p : Upgrade) (entity : String) (view table : Name) (columns : List ViewColumn)
    (joins : List ViewJoin) : Prop :=
  ∀ before script after, p.scripts = before ++ script :: after → script.entity = entity →
    ∀ first s last, script.statements = first ++ s :: last → s.isOnView = false →
      .dropView view ∈ p.viewDrops ++ before.flatMap (·.statements) ++ first ∧
        .createView view table columns joins ∈ last ++ after.flatMap (·.statements)

/-- What comes before and after a statement of a script, in the whole upgrade. -/
theorem statements_split {p : Upgrade} {before after : List Script} {script : Script}
    {first last : List Statement} {s : Statement} (hscripts : p.scripts = before ++ script :: after)
    (hstatements : script.statements = first ++ s :: last) :
    p.statements = p.viewDrops ++ before.flatMap (·.statements) ++ first ++
      s :: (last ++ after.flatMap (·.statements)) := by
  rw [statements, hscripts, List.flatMap_append, List.flatMap_cons, hstatements]
  simp only [List.append_assoc, List.cons_append]

end Upgrade

/-- An entry of a list without repetitions has one place in it. -/
theorem eq_of_append_cons {α : Type} {before after first last : List α} {a : α}
    (hd : (before ++ a :: after).Nodup) (h : before ++ a :: after = first ++ a :: last) :
    before = first ∧ after = last := by
  rw [List.nodup_middle, List.nodup_cons, List.mem_append, not_or] at hd
  obtain ⟨hbefore, -, hafter⟩ := (List.append_cons_inj_of_notMem hd.1.1 hd.1.2).1 h
  exact ⟨hbefore, hafter⟩

/-- The view that a statement drops or creates. -/
def Statement.view? : Statement → Option Name
  | .dropView view | .createView view .. => some view
  | _ => none

theorem Statement.view?_of_isOnView {s : Statement} (h : s.isOnView = false) : s.view? = none := by
  cases s with
  | createView | dropView => cases h
  | _ => rfl

/-- The statements on the view of an entity are on no other view. -/
theorem Entity.view?_upgradeView {e : Entity} {r : Registry} {catalog : Catalog}
    {changed dropped : Bool} {statements : List Statement}
    (h : e.upgradeView r catalog changed dropped = .ok statements) :
    ∀ s ∈ statements, s.view? = e.view := by
  cases hview : e.view with
  | none =>
    rw [upgradeView_of_none hview h]
    exact List.forall_mem_nil _
  | some view =>
    obtain ⟨_, _, rfl⟩ | ⟨_, _, _, ⟨_, _, rfl⟩ | ⟨_, rfl⟩⟩ := upgradeView_eq_ok hview h
    · exact List.forall_mem_nil _
    · simp [Statement.view?]
    · simp [Statement.view?]

/-- The view that an entity creates is its own. -/
theorem Entity.view_of_createView {e : Entity} {r : Registry} {view table : Name}
    {columns : List ViewColumn} {joins : List ViewJoin}
    (h : e.createView r = .ok (some (.createView view table columns joins))) :
    e.view = some view := by
  obtain ⟨-, hnone⟩ | ⟨_, _, hview, -, hcreate⟩ := createView_cases h
  · cases hnone
  · cases hcreate
    exact hview

namespace Registry

variable {r : Registry} {keys : Bool} {names : List String} {catalog : Catalog} {plan : Upgrade}
  {entities before after : List Entity} {e g : Entity} {tables views : Entity → List Statement}
  {view table : Name} {columns : List ViewColumn} {joins : List ViewJoin}

/-- The scripts of an upgrade are those of its entities, so the script of one is found at its place. -/
theorem IsUpgrade.eq_of_scripts (h : r.IsUpgrade keys catalog (before ++ e :: after) plan tables views)
    (hnames : ((before ++ e :: after).map (·.name)).Nodup) {first last : List Script}
    {script : Script} (hscripts : plan.scripts = first ++ script :: last)
    (hname : script.entity = e.name) :
    first.flatMap (·.statements) = before.flatMap (fun g => tables g ++ views g) ∧
      script.statements = tables e ++ views e ∧
      last.flatMap (·.statements) = after.flatMap (fun g => tables g ++ views g) := by
  rw [h.scripts] at hscripts
  obtain ⟨before', rest, hsplit, rfl, hrest⟩ := List.map_eq_append_iff.1 hscripts
  obtain ⟨e', after', rfl, rfl, rfl⟩ := List.map_eq_cons_iff.1 hrest
  have hmem : e ∈ before' ++ e' :: after' := hsplit ▸ by simp
  have he' : e' = e :=
    List.inj_on_of_nodup_map hnames (hsplit ▸ by simp) (hsplit ▸ hmem) hname
  subst he'
  obtain ⟨rfl, rfl⟩ := eq_of_append_cons (List.Nodup.of_map _ hnames) hsplit
  simp only [List.flatMap_map, and_self]

/-- A view that is created for an entity is its own. -/
theorem IsUpgrade.createView_eq_ok_of_mem (h : r.IsUpgrade keys catalog entities plan tables views)
    (hg : g ∈ entities) (hs : .createView view table columns joins ∈ tables g ++ views g) :
    g.createView r = .ok (some (.createView view table columns joins)) := by
  rcases List.mem_append.1 hs with htable | hview
  · cases Entity.isOnView_upgradeTable (h.table g hg) _ htable
  · obtain ⟨opening, tail, hsplit⟩ := List.append_of_mem hview
    have hupgrade := h.view g hg
    rw [hsplit] at hupgrade
    exact (Entity.upgradeView_eq_append hupgrade).2.1

/-- Where views are built anew, an entity creates its view whether or not it is there. -/
theorem IsUpgrade.createView_mem (h : r.IsUpgrade keys catalog entities plan tables views)
    (hrebuilds : r.rebuilds entities tables = true) (hg : g ∈ entities)
    (hcreate : g.createView r = .ok (some (.createView view table columns joins))) :
    .createView view table columns joins ∈ views g := by
  have hview := h.view g hg
  rw [hrebuilds] at hview
  obtain ⟨_, hkept, _⟩ | ⟨_, _, hcreate', ⟨_, hkept, _⟩ | ⟨_, hstatements⟩⟩ :=
    Entity.upgradeView_eq_ok (Entity.view_of_createView hcreate) hview
  · cases hkept
  · cases hkept
  · cases hcreate.symm.trans hcreate'
    rw [hstatements]
    exact List.mem_cons_self

/-- A view that is there is rebuilt around the changes to a table exactly if the entity of the table
creates it, or one that is brought up to date later. -/
theorem IsUpgrade.rebuilds_iff (h : r.IsUpgrade keys catalog (before ++ e :: after) plan tables views)
    (hnames : ((before ++ e :: after).map (·.name)).Nodup) (hr : r.dialect.rebuildsViews = true)
    (hchange : plan.ChangesTable e.name) (hthere : view.caseless ∈ catalog.views) :
    plan.Rebuilds e.name view table columns joins ↔
      ∃ g ∈ e :: after, g.createView r = .ok (some (.createView view table columns joins)) := by
  have hlater : ∀ g ∈ e :: after, g ∈ before ++ e :: after := fun g hg =>
    List.mem_append_right _ hg
  constructor
  · intro hrebuilt
    obtain ⟨script, hscript, hname, s, hs, htable⟩ := hchange
    obtain ⟨start, rest, hscripts⟩ := List.append_of_mem hscript
    obtain ⟨first, last, hstatements⟩ := List.append_of_mem hs
    obtain ⟨_, hown, hrest⟩ := h.eq_of_scripts hnames hscripts hname
    obtain ⟨_, hcreated⟩ :=
      hrebuilt start script rest hscripts hname first s last hstatements htable
    rcases List.mem_append.1 hcreated with hmem | hmem
    · have hmem : .createView view table columns joins ∈ tables e ++ views e := by
        rw [← hown, hstatements]
        exact List.mem_append_right _ (List.mem_cons_of_mem _ hmem)
      exact ⟨e, List.mem_cons_self, h.createView_eq_ok_of_mem (by simp) hmem⟩
    · rw [hrest] at hmem
      obtain ⟨g, hg, hmem⟩ := List.mem_flatMap.1 hmem
      have hg : g ∈ e :: after := List.mem_cons_of_mem _ hg
      exact ⟨g, hg, h.createView_eq_ok_of_mem (hlater g hg) hmem⟩
  · rintro ⟨g, hg, hcreate⟩ start script rest hscripts hname first s last hstatements hs
    obtain ⟨_, hown, hrest⟩ := h.eq_of_scripts hnames hscripts hname
    have hsplit := Upgrade.statements_split hscripts hstatements
    rw [hown] at hstatements
    have hnotView : s ∉ views e := fun hmem => by
      rw [Entity.isOnView_upgradeView (h.view e (by simp)) s hmem] at hs
      cases hs
    obtain ⟨more, htables, rfl⟩ := exists_prepend_of_notMem hstatements hnotView
    have hchanged : s ∈ tables e := by
      rw [htables]
      exact List.mem_append_right _ List.mem_cons_self
    have hmem := h.createView_mem (rebuilds_of_mem hr (by simp) hchanged) (hlater g hg) hcreate
    refine ⟨h.dropView_mem hr hsplit hs (hlater g hg) (Entity.view_of_createView hcreate) hthere, ?_⟩
    rw [hrest]
    rcases List.mem_cons.1 hg with rfl | hg
    · exact List.mem_append_left _ (List.mem_append_right _ hmem)
    · exact List.mem_append_right _ (List.mem_flatMap.2 ⟨g, hg, List.mem_append_right _ hmem⟩)

/-- Only views of the entities that are brought up to date are dropped or created. -/
theorem IsUpgrade.exists_view (h : r.IsUpgrade keys catalog entities plan tables views)
    {s : Statement} (hs : s ∈ plan.statements) (hview : s.view? = some view) :
    ∃ g ∈ entities, g.view = some view := by
  rw [h.statements] at hs
  rcases List.mem_append.1 hs with hdrop | hscript
  · rw [h.viewDrops] at hdrop
    split at hdrop
    · obtain ⟨name, hname, rfl⟩ := List.mem_map.1 hdrop
      cases hview
      exact List.mem_filterMap.1 (List.mem_filter.1 hname).1
    · cases hdrop
  · obtain ⟨g, hg, hscript⟩ := List.mem_flatMap.1 hscript
    rcases List.mem_append.1 hscript with htable | hown
    · have hnone := Statement.view?_of_isOnView (Entity.isOnView_upgradeTable (h.table g hg) s htable)
      cases hnone.symm.trans hview
    · exact ⟨g, hg, (Entity.view?_upgradeView (h.view g hg) s hown).symm.trans hview⟩

/-! ## The order of what views read -/

/-- Unless references go in a circle, an entity whose view reads a table is in order no earlier than
the entity of the table. -/
theorem not_mem_before_of_reads (horder : r.referenceOrder names = .ok (before ++ e :: after))
    (hacyclic : ReferenceOrder.IsAcyclic (before ++ e :: after))
    (htables : ((before ++ e :: after).map (·.table)).Nodup) (hg : g ∈ before ++ e :: after)
    (hcreate : g.createView r = .ok (some (.createView view table columns joins)))
    (hreads : e.table ∈ table :: joins.map (·.table)) : g ∈ e :: after := by
  obtain ⟨start, rest, hsplit⟩ := List.append_of_mem hg
  obtain ⟨x, hx, hxtable⟩ := Entity.reads_of_createView hcreate hreads
  have hmem : x ∈ start ++ [g] := by
    rw [hsplit] at horder hacyclic
    exact hx.mem_of_isSorted horder (isSorted_of_referenceOrder horder hacyclic)
  have hxe : x = e := by
    refine List.inj_on_of_nodup_map htables ?_ (by simp) hxtable
    rw [hsplit]
    rcases List.mem_append.1 hmem with hx | hx
    · exact List.mem_append_left _ hx
    · simp [List.mem_singleton.1 hx]
  subst hxe
  refine (List.mem_append.1 hg).resolve_left fun hbefore => ?_
  obtain ⟨start', middle, rfl⟩ := List.append_of_mem hbefore
  have hnodup := htables.of_map
  have hstart : start' = start := by
    rw [List.append_assoc, List.cons_append] at hsplit hnodup
    exact (eq_of_append_cons hnodup hsplit).1
  -- An entity that the view reads comes before the one that it is.
  have hbefore : x ∈ start' ++ g :: middle := by
    rw [hstart]
    rcases List.mem_append.1 hmem with hx | hx
    · exact List.mem_append_left _ hx
    · simp [List.mem_singleton.1 hx]
  exact (List.nodup_append.1 hnodup).2.2 x hbefore x List.mem_cons_self rfl

/-- The views over an upgrade on a dialect that builds them anew. A view that is there is rebuilt around
the changes to a table exactly if the entity of the table creates it, or one that is brought up to date
later. Unless references go in a circle, these are all views of the upgrade that read the table. A view
of no entity of the upgrade stays, whether or not it reads the table. -/
theorem upgrade_rebuilds (h : r.upgrade keys names catalog = .ok plan)
    (horder : r.referenceOrder names = .ok (before ++ e :: after))
    (hr : r.dialect.rebuildsViews = true) (hchange : plan.ChangesTable e.name)
    (hthere : view.caseless ∈ catalog.views) :
    (plan.Rebuilds e.name view table columns joins ↔
      ∃ g ∈ e :: after, g.createView r = .ok (some (.createView view table columns joins))) ∧
    (ReferenceOrder.IsAcyclic (before ++ e :: after) →
      ((before ++ e :: after).map (·.table)).Nodup → ∀ g ∈ before ++ e :: after,
        g.createView r = .ok (some (.createView view table columns joins)) →
          e.table ∈ table :: joins.map (·.table) →
            plan.Rebuilds e.name view table columns joins) ∧
    ((∀ g ∈ before ++ e :: after, g.view ≠ some view) →
      ∀ s ∈ plan.statements, s.view? ≠ some view) := by
  obtain ⟨tables, views, hplan⟩ := upgrade_eq_ok h horder
  have hiff : plan.Rebuilds e.name view table columns joins ↔ _ :=
    hplan.rebuilds_iff (nodup_of_referenceOrder horder) hr hchange hthere
  refine ⟨hiff, fun hacyclic htables g hg hcreate hreads => ?_, fun hnone s hs hview => ?_⟩
  · exact hiff.2
      ⟨g, not_mem_before_of_reads horder hacyclic htables hg hcreate hreads, hcreate⟩
  · obtain ⟨g, hg, hgview⟩ := hplan.exists_view hs hview
    exact hnone g hg hgview

end Registry

/-! ## A blog whose authors have longer names from now on -/

/-- A catalog of a blog in which names of authors are too short. -/
def shortNames : Catalog :=
  ⟨[{ name := "AUTHOR"
      columns := [{ name := "ID", typeCode := .bigInt, nullable := false },
        { name := "NAME", typeCode := .varchar, size := 32, nullable := false }]
      uniqueConstraints := [⟨"uq_author", ["NAME"]⟩] },
    { name := "POST"
      columns := [{ name := "ID", typeCode := .bigInt, nullable := false },
        { name := "STATE", typeCode := .varchar, size := 64, nullable := false,
          defaultValue := some "'draft'" },
        { name := "AUTHOR", typeCode := .bigInt, nullable := false }]
      foreignKeys := [⟨"FK_POST_AUTHOR", "AUTHOR", ["ID"]⟩]
      indexes := [{ name := "ix_post", columns := ["AUTHOR", "STATE"] }]
      checkConstraints := ["ck_post"] },
    { name := "V_POST"
      kind := .view
      columns := [{ name := "ID", typeCode := .bigInt, nullable := false },
        { name := "STATE", typeCode := .varchar, size := 64, nullable := false },
        { name := "AUTHOR", typeCode := .bigInt, nullable := false },
        { name := "AUTHOR_NAME", typeCode := .varchar, size := 32, nullable := false }] }]⟩

/-- The tables that a view is created over. -/
def Statement.tablesRead : Statement → List Name
  | .createView _ table _ joins => table :: joins.map (·.table)
  | _ => []

/-- The view of posts reads the table of authors, and is there. -/
theorem exists_view_of_blog :
    ∃ author post view table columns joins, (blogRegistry .hsqldb).entities = [author, post] ∧
      author.name = "Author" ∧ [author, post].map (·.table.raw) = ["AUTHOR", "POST"] ∧
      post.createView (blogRegistry .hsqldb) = .ok (some (.createView view table columns joins)) ∧
      author.table ∈ table :: joins.map (·.table) ∧ view.caseless ∈ shortNames.views := by
  obtain ⟨author, post, hentities, hname, htables, hview, hreads⟩ : ∃ author post,
      (blogRegistry .hsqldb).entities = [author, post] ∧ author.name = "Author" ∧
        [author, post].map (·.table.raw) = ["AUTHOR", "POST"] ∧
        post.view = some ⟨"V_POST", "PUBLIC.V_POST"⟩ ∧
        ((post.createView (blogRegistry .hsqldb)).toOption.any fun create =>
          create.any fun s => decide (author.table ∈ s.tablesRead)) = true :=
    ⟨_, _, rfl, rfl, rfl, rfl, by decide +kernel⟩
  obtain ⟨create, hcreate, hreads⟩ := exists_ok_of_any hreads
  obtain ⟨columns, joins, rfl⟩ := Entity.createView_eq_ok hview hcreate
  exact ⟨author, post, _, _, columns, joins, hentities, hname, htables, hcreate,
    of_decide_eq_true hreads, by decide⟩

/-- Where posts are brought up to date, their view is rebuilt around the change to authors. -/
theorem blog_view_rebuilt :
    ∃ author post plan view table columns joins,
      (blogRegistry .hsqldb).referenceOrder ["Post"] = .ok [author, post] ∧
      (blogRegistry .hsqldb).upgrade true ["Post"] shortNames = .ok plan ∧
      plan.ChangesTable author.name ∧ view.caseless ∈ shortNames.views ∧
      post.createView (blogRegistry .hsqldb) = .ok (some (.createView view table columns joins)) ∧
      author.table ∈ table :: joins.map (·.table) ∧
      plan.Rebuilds author.name view table columns joins := by
  obtain ⟨author, post, view, table, columns, joins, hentities, hname, htables, hcreate, hreads,
    hthere⟩ := exists_view_of_blog
  have hplan : ∃ plan, (blogRegistry .hsqldb).upgrade true ["Post"] shortNames = .ok plan ∧
      decide (plan.ChangesTable "Author") = true := by
    unfold Registry.upgrade
    rw [referenceOrder_blogRegistry]
    exact exists_ok_of_any (by decide +kernel)
  obtain ⟨plan, hplan, hchange⟩ := hplan
  have hchange : plan.ChangesTable author.name := hname ▸ of_decide_eq_true hchange
  have horder : (blogRegistry .hsqldb).referenceOrder ["Post"] = .ok ([] ++ author :: [post]) :=
    hentities ▸ referenceOrder_blogRegistry .hsqldb
  have hacyclic := isAcyclic_blogRegistry
  rw [hentities] at hacyclic
  have hdistinct : ([author, post].map (·.table)).Nodup := by
    refine List.Nodup.of_map Name.raw ?_
    rw [List.map_map]
    exact htables ▸ (by decide : ["AUTHOR", "POST"].Nodup)
  obtain ⟨_, hread, _⟩ := Registry.upgrade_rebuilds hplan horder rfl hchange hthere
  exact ⟨author, post, plan, view, table, columns, joins, horder, hplan, hchange, hthere, hcreate,
    hreads, hread hacyclic hdistinct post (by simp) hcreate hreads⟩

theorem referenceOrder_author :
    (blogRegistry .hsqldb).referenceOrder ["Author"] =
      .ok ((blogRegistry .hsqldb).entities.take 1) := by
  obtain ⟨author, post, he, hname, hnone⟩ : ∃ author post,
      (blogRegistry .hsqldb).entities = [author, post] ∧ author.name = "Author" ∧
        author.references = [] := ⟨_, _, rfl, rfl, rfl⟩
  have hauthor : (blogRegistry .hsqldb).get "Author" = .ok author := by
    simp [Registry.get, Registry.get?, he, hname]
  simp [Registry.referenceOrder_eq_run, ReferenceOrder.run_cons, ReferenceOrder.run_nil, hauthor,
    hnone, bind, Except.bind, he, Except.map]

/-- Where only authors are brought up to date, the view of posts stays while their table changes. -/
theorem unplanned_view_stays :
    (blogRegistry .hsqldb).IsReachable ∧ (blogRegistry .hsqldb).dialect.rebuildsViews = true ∧
    ∃ author post plan view table columns joins,
      (blogRegistry .hsqldb).entities = [author, post] ∧
      (blogRegistry .hsqldb).upgrade true ["Author"] shortNames = .ok plan ∧
      plan.ChangesTable author.name ∧ view.caseless ∈ shortNames.views ∧
      post.createView (blogRegistry .hsqldb) = .ok (some (.createView view table columns joins)) ∧
      author.table ∈ table :: joins.map (·.table) ∧
      ¬plan.Rebuilds author.name view table columns joins := by
  obtain ⟨author, post, view, table, columns, joins, hentities, hname, -, hcreate, hreads,
    hthere⟩ := exists_view_of_blog
  have hplan : ∃ plan, (blogRegistry .hsqldb).upgrade true ["Author"] shortNames = .ok plan ∧
      (decide (plan.ChangesTable "Author") && plan.statements.all (!·.isOnView)) = true := by
    unfold Registry.upgrade
    rw [referenceOrder_author]
    exact exists_ok_of_any (by decide +kernel)
  obtain ⟨plan, hplan, htest⟩ := hplan
  simp only [Bool.and_eq_true, decide_eq_true_eq, List.all_eq_true, Bool.not_eq_true'] at htest
  obtain ⟨hchange, hnoView⟩ := htest
  refine ⟨isReachable_blogRegistry .hsqldb, rfl, author, post, plan, view, table, columns, joins,
    hentities, hplan, hname ▸ hchange, hthere, hcreate, hreads, fun hrebuilt => ?_⟩
  obtain ⟨script, hscript, hentity, s, hs, htable⟩ := hchange
  obtain ⟨before, after, hscripts⟩ := List.append_of_mem hscript
  obtain ⟨first, last, hstatements⟩ := List.append_of_mem hs
  obtain ⟨-, hmem⟩ := hrebuilt before script after hscripts (hentity.trans hname.symm) first s last
    hstatements htable
  have hcreated : .createView view table columns joins ∈ plan.statements := by
    rw [Upgrade.statements_split hscripts hstatements]
    exact List.mem_append_right _ (List.mem_cons_of_mem _ hmem)
  cases hnoView _ hcreated

end SqlDialects
