import SqlDialects.Proofs.UpgradeScript
import SqlDialects.Proofs.UpToDate
import SqlDialects.Proofs.ViewJoins

/-!
# Views over an upgrade

An upgrade drops views for two reasons: all of them before tables change, on a dialect that builds
them anew, or one for its own sake. It creates views in four cases. This module runs the statements
of an upgrade on the views that there are, and says where drops and creations stand among the
statements on tables.

Results:
1. `runOnViews_scripts`: what the scripts of entities do to the views, whichever were dropped before.
2. `Entity.Reads.mem_of_isSorted`: what a view reads is in order before it.
3. `Registry.upgrade_views`: no view is dropped that is not there or created that is, and every view
   is there afterwards; where views are built anew, none stands while tables change, and each one is
   created after the tables that it reads.
-/

namespace SqlDialects

/-! ## What statements do to views -/

namespace Statement

/-- The views after a statement. One that is not there cannot be dropped, and one that is there
cannot be created. -/
def onViews (views : Finset String) : Statement → Option (Finset String)
  | .dropView view => if view.caseless ∈ views then some (views.erase view.caseless) else none
  | .createView view .. => if view.caseless ∈ views then none else some (insert view.caseless views)
  | _ => some views

theorem onViews_of_isOnView {s : Statement} (h : s.isOnView = false) (views : Finset String) :
    s.onViews views = some views := by
  cases s with
  | createView | dropView => cases h
  | _ => rfl

end Statement

/-- The views after the statements of a script. -/
def runOnViews (views : Finset String) (script : List Statement) : Option (Finset String) :=
  script.foldlM (fun views s => s.onViews views) views

theorem runOnViews_append (views : Finset String) (first last : List Statement) :
    runOnViews views (first ++ last) = (runOnViews views first).bind (runOnViews · last) := by
  rw [runOnViews, List.foldlM_append]
  rfl

theorem runOnViews_of_isOnView {script : List Statement} (h : ∀ s ∈ script, s.isOnView = false)
    (views : Finset String) : runOnViews views script = some views := by
  induction script with
  | nil => rfl
  | cons s rest ih =>
    obtain ⟨hs, hrest⟩ := List.forall_mem_cons.1 h
    rw [runOnViews, List.foldlM_cons, Statement.onViews_of_isOnView hs]
    exact ih hrest

/-- Views that are there can be dropped one after the other. -/
theorem runOnViews_dropView {dropped : List Name} (hd : (dropped.map (·.caseless)).Nodup)
    {views : Finset String} (h : ∀ view ∈ dropped, view.caseless ∈ views) :
    runOnViews views (dropped.map .dropView) =
      some (views \ (dropped.map (·.caseless)).toFinset) := by
  induction dropped generalizing views with
  | nil => simp [runOnViews]
  | cons view rest ih =>
    obtain ⟨hview, hrest⟩ := List.forall_mem_cons.1 h
    rw [List.map_cons, List.nodup_cons] at hd
    have hstep : (Statement.dropView view).onViews views = some (views.erase view.caseless) :=
      if_pos hview
    rw [List.map_cons, runOnViews, List.foldlM_cons, hstep]
    refine (ih hd.2 fun other hother => Finset.mem_erase.2 ⟨?_, hrest other hother⟩).trans ?_
    · rintro heq
      exact hd.1 (heq ▸ List.mem_map_of_mem hother)
    · rw [List.map_cons, List.toFinset_cons, Finset.sdiff_insert, Finset.erase_sdiff_comm]

/-! ## Running an upgrade -/

/-- Names of the views of some entities, as catalogs compare them. -/
def viewNames (entities : List Entity) : List String :=
  (entities.filterMap (·.view)).map (·.caseless)

theorem viewNames_cons (e : Entity) (entities : List Entity) :
    viewNames (e :: entities) = viewNames [e] ++ viewNames entities := by
  cases hview : e.view with
  | none => simp [viewNames, hview]
  | some view => simp [viewNames, hview]

/-- The statements on a view run where it is there, unless it was dropped, and leave it there. -/
theorem runOnViews_upgradeView {e : Entity} {r : Registry} {catalog : Catalog}
    {changed dropped : Bool} {statements : List Statement} {present : Finset String}
    (h : e.upgradeView r catalog changed dropped = .ok statements)
    (hp : ∀ name ∈ viewNames [e], name ∈ present ↔ name ∈ catalog.views ∧ dropped = false) :
    runOnViews present statements = some (present ∪ (viewNames [e]).toFinset) := by
  cases hview : e.view with
  | none =>
    rw [Entity.upgradeView_of_none hview h]
    simp [viewNames, hview, runOnViews]
  | some view =>
    have hnames : viewNames [e] = [view.caseless] := by simp [viewNames, hview]
    have hmem := hp view.caseless (by rw [hnames]; exact List.mem_singleton_self _)
    have hresult : (insert view.caseless present : Finset String) =
        present ∪ (viewNames [e]).toFinset := by
      rw [hnames, List.toFinset_cons, List.toFinset_nil, insert_empty_eq, Finset.insert_eq,
        Finset.union_comm]
    rw [← hresult]
    obtain ⟨hv, hdropped, rfl⟩ | ⟨columns, joins, _, ⟨hv, hdropped, rfl⟩ | ⟨hv, rfl⟩⟩ :=
      Entity.upgradeView_eq_ok hview h
    · rw [Finset.insert_eq_of_mem (hmem.2 ⟨hv, hdropped⟩)]
      rfl
    · have hthere := hmem.2 ⟨hv, hdropped⟩
      simp [runOnViews, Statement.onViews, hthere]
    · have hgone : view.caseless ∉ present := fun hthere => by
        obtain ⟨hold, hkept⟩ := hmem.1 hthere
        exact absurd (hv hold) (by rw [hkept]; exact Bool.false_ne_true)
      simp [runOnViews, Statement.onViews, hgone]

/-- The scripts of entities run where their views are there, unless these were dropped, and leave
them there. -/
theorem runOnViews_scripts {r : Registry} {keys : Bool} {catalog : Catalog} {dropped : Bool}
    {entities : List Entity} {tables views : Entity → List Statement}
    (ht : ∀ e ∈ entities, e.upgradeTable r keys catalog = .ok (tables e))
    (hv : ∀ e ∈ entities,
      e.upgradeView r catalog (!(tables e).isEmpty) dropped = .ok (views e))
    (hd : (viewNames entities).Nodup) {present : Finset String}
    (hp : ∀ name ∈ viewNames entities,
      name ∈ present ↔ name ∈ catalog.views ∧ dropped = false) :
    runOnViews present (entities.flatMap fun e => tables e ++ views e) =
      some (present ∪ (viewNames entities).toFinset) := by
  induction entities generalizing present with
  | nil => simp [runOnViews, viewNames]
  | cons e rest ih =>
    obtain ⟨hte, htrest⟩ := List.forall_mem_cons.1 ht
    obtain ⟨hve, hvrest⟩ := List.forall_mem_cons.1 hv
    rw [viewNames_cons] at hd hp ⊢
    obtain ⟨_, hdrest, hdisjoint⟩ := List.nodup_append.1 hd
    obtain ⟨hpe, hprest⟩ := List.forall_mem_append.1 hp
    -- The statements of this entity do not touch the views of the others.
    have hothers : ∀ name ∈ viewNames rest,
        name ∈ present ∪ (viewNames [e]).toFinset ↔ name ∈ catalog.views ∧ dropped = false := by
      intro name hn
      have hother : name ∉ viewNames [e] := fun hmem => hdisjoint name hmem name hn rfl
      rw [Finset.mem_union, List.mem_toFinset, or_iff_left hother]
      exact hprest name hn
    rw [List.flatMap_cons, runOnViews_append, runOnViews_append,
      runOnViews_of_isOnView (Entity.isOnView_upgradeTable hte), Option.bind_some,
      runOnViews_upgradeView hve hpe, Option.bind_some, ih htrest hvrest hdrest hothers,
      List.toFinset_append, Finset.union_assoc]

/-- An entry that the first of two lists does not have splits the second one. -/
theorem exists_append_of_notMem {α : Type} {before after first last : List α} {a : α}
    (h : before ++ after = first ++ a :: last) (ha : a ∉ before) :
    ∃ more, first = before ++ more ∧ after = more ++ a :: last := by
  rcases List.append_eq_append_iff.1 h with ⟨more, hfirst, hafter⟩ | ⟨more, hbefore, hlast⟩
  · exact ⟨more, hfirst, hafter⟩
  · cases more with
    | nil => exact ⟨[], by rw [hbefore, List.append_nil, List.append_nil], hlast.symm⟩
    | cons _ _ =>
      cases hlast
      exact absurd (by simp [hbefore]) ha

/-- An entry that the second of two lists does not have splits the first one. -/
theorem exists_prepend_of_notMem {α : Type} {before after first last : List α} {a : α}
    (h : before ++ after = first ++ a :: last) (ha : a ∉ after) :
    ∃ more, before = first ++ a :: more ∧ last = more ++ after := by
  rcases List.append_eq_append_iff.1 h with ⟨more, _, hafter⟩ | ⟨more, hbefore, hlast⟩
  · exact absurd (by simp [hafter]) ha
  · cases more with
    | nil => exact absurd (by rw [← List.nil_append after, ← hlast]; exact List.mem_cons_self) ha
    | cons _ more =>
      cases hlast
      exact ⟨more, hbefore, rfl⟩

namespace Registry

variable {r : Registry} {keys : Bool} {names : List String} {catalog : Catalog} {plan : Upgrade}
  {entities : List Entity} {tables views : Entity → List Statement}

/-- The statements of an upgrade run on the views of the catalog, and leave every view there. -/
theorem IsUpgrade.runOnViews (h : r.IsUpgrade keys catalog entities plan tables views)
    (hd : (viewNames entities).Nodup) :
    runOnViews catalog.views plan.statements =
      some (catalog.views ∪ (viewNames entities).toFinset) := by
  rw [h.statements, runOnViews_append, h.viewDrops]
  cases hrebuilds : r.rebuilds entities tables with
  | true =>
    have hview := hrebuilds ▸ h.view
    have hsublist : (((entities.filterMap (·.view)).filter (·.caseless ∈ catalog.views)).map
        (·.caseless)).Sublist (viewNames entities) := List.Sublist.map _ List.filter_sublist
    rw [if_pos rfl, runOnViews_dropView (hd.sublist hsublist)
      (fun view hv => by simpa using (List.mem_filter.1 hv).2), Option.bind_some]
    refine (runOnViews_scripts h.table hview hd fun name hn => ?_).trans (congrArg some ?_)
    · obtain ⟨view, hv, rfl⟩ := List.mem_map.1 hn
      refine iff_of_false (fun hmem => ?_) (fun hmem => absurd hmem.2 (by simp))
      obtain ⟨hthere, hkept⟩ := Finset.mem_sdiff.1 hmem
      exact hkept (List.mem_toFinset.2 (List.mem_map_of_mem
        (List.mem_filter.2 ⟨hv, by simpa using hthere⟩)))
    · -- What was dropped is among what is there again.
      ext name
      have hback := hsublist.subset (a := name)
      simp only [Finset.mem_union, Finset.mem_sdiff, List.mem_toFinset]
      tauto
  | false =>
    have hview := hrebuilds ▸ h.view
    rw [if_neg Bool.false_ne_true]
    exact runOnViews_scripts h.table hview hd fun name _ => by simp

theorem rebuilds_of_mem (hr : r.dialect.rebuildsViews = true) {e : Entity} (he : e ∈ entities)
    {s : Statement} (hs : s ∈ tables e) : r.rebuilds entities tables = true := by
  rw [rebuilds, hr, Bool.true_and]
  exact List.any_eq_true.2 ⟨e, he, by simpa using List.ne_nil_of_mem hs⟩

/-- On a dialect that builds views anew, no table changes while a view is there. -/
theorem IsUpgrade.dropView_mem (h : r.IsUpgrade keys catalog entities plan tables views)
    (hr : r.dialect.rebuildsViews = true) {first last : List Statement} {s : Statement}
    (hsplit : plan.statements = first ++ s :: last) (hs : s.isOnView = false) {e : Entity}
    (he : e ∈ entities) {view : Name} (hview : e.view = some view)
    (hthere : view.caseless ∈ catalog.views) : .dropView view ∈ first := by
  have hnotDrop : s ∉ plan.viewDrops := fun hmem => by
    obtain ⟨_, rfl⟩ := h.isOnView_viewDrops s hmem
    cases hs
  rw [h.statements] at hsplit
  obtain ⟨more, rfl, hscripts⟩ := exists_append_of_notMem hsplit hnotDrop
  refine List.mem_append_left _ ?_
  -- Since there is a statement on a table, all views that are there go first.
  have hrebuilds : r.rebuilds entities tables = true := by
    obtain ⟨f, hf, hsf⟩ := List.mem_flatMap.1 (by rw [hscripts]; simp : s ∈ _)
    rcases List.mem_append.1 hsf with htable | honView
    · exact rebuilds_of_mem hr hf htable
    · exact absurd (Entity.isOnView_upgradeView (h.view f hf) s honView) (by simp [hs])
  rw [h.viewDrops, if_pos hrebuilds]
  exact List.mem_map_of_mem (List.mem_filter.2
    ⟨List.mem_filterMap.2 ⟨e, he, hview⟩, decide_eq_true hthere⟩)

end Registry

/-! ## What a view reads -/

/-- Entities that a view takes columns from: its own, and those that the keys of list-only fields
refer to. -/
inductive Entity.Reads (e : Entity) (r : Registry) : Entity → Prop
  | own : Reads e r e
  | source {f : Field} {source : ViewSource} {key : Field} {reference : FieldReference}
      {g : Entity} : f ∈ e.viewFields → f.viewSource = some source →
      e.sourceEntity r source = .ok (key, reference, g) → Reads e r g

namespace Entity

variable {e : Entity} {r : Registry}

/-- A view is of its own table, joined with tables of what it reads. -/
theorem reads_of_createView {view table : Name} {columns : List ViewColumn}
    {joins : List ViewJoin}
    (h : e.createView r = .ok (some (.createView view table columns joins))) {t : Name}
    (ht : t ∈ table :: joins.map (·.table)) : ∃ g, e.Reads r g ∧ g.table = t := by
  obtain ⟨_, arranged, _, _, harranged, heq⟩ := createView_eq_some h
  cases heq
  rcases List.mem_cons.1 ht with rfl | ht
  · exact ⟨e, .own, rfl⟩
  · obtain ⟨join, hjoin, rfl⟩ := List.mem_map.1 ht
    obtain ⟨entry, hentry, rfl⟩ := List.mem_map.1 hjoin
    obtain ⟨_, _, g, _, hkey, _, htable, _⟩ := harranged.joined entry hentry
    -- The key of the join is that of a list-only field.
    have hused : entry.1 ∈ keysInUse e.viewFields := harranged.keys ▸ List.mem_map_of_mem hentry
    obtain ⟨f, hf, source, hsource, hname⟩ := mem_keysInUse.1 hused
    rw [← hname] at hkey
    exact ⟨g, .source hf hsource (sourceEntity_eq_ok_iff.2 hkey), htable.symm⟩

/-- In an order in which entities come after what they refer to, a view reads its own entity and
some before it. -/
theorem Reads.mem_of_isSorted {names : List String} {before after : List Entity}
    (horder : r.referenceOrder names = .ok (before ++ e :: after))
    (hsorted : ReferenceOrder.IsSorted (before ++ e :: after)) {g : Entity} (h : e.Reads r g) :
    g ∈ before ++ [e] := by
  cases h with
  | own => simp
  | @source f source key reference g _ _ hg =>
    have hkey := sourceEntity_eq_ok_iff.1 hg
    have hget : r.get? reference.entity = some g := Registry.get_eq_ok_iff.1 hkey.registered
    have hsame : ∀ f ∈ before ++ e :: after, f.name = reference.entity → f = g := by
      rintro f hf hfname
      have hfget := Registry.get?_of_referenceOrder horder hf
      rw [hfname, hget] at hfget
      exact (Option.some.inj hfget).symm
    by_cases hself : reference.entity = e.name
    · rw [← hsame e (by simp) hself.symm]
      simp
    · have hrefers : reference.entity ∈ e.references :=
        mem_references (mem_tableFields_of_tableField hkey.found).1 hkey.refers hself
      obtain ⟨f, hf, hfname⟩ := List.mem_map.1 (hsorted before e after rfl hrefers)
      rw [← hsame f (List.mem_append_left _ hf) hfname]
      exact List.mem_append_left _ hf

end Entity

/-! ## Where a view is created -/

/-- An entry of a list that is put together from parts is in one of the parts. -/
theorem exists_split_of_flatMap {α β : Type} {f : α → List β} {as : List α} {first last : List β}
    {b : β} (h : as.flatMap f = first ++ b :: last) :
    ∃ before a after head tail, as = before ++ a :: after ∧ f a = head ++ b :: tail ∧
      first = before.flatMap f ++ head ∧ last = tail ++ after.flatMap f := by
  induction as generalizing first with
  | nil => simp at h
  | cons a rest ih =>
    rw [List.flatMap_cons] at h
    rcases List.append_eq_append_iff.1 h with ⟨more, rfl, hrest⟩ | ⟨more, ha, hlast⟩
    · obtain ⟨before, c, after, head, tail, rfl, hc, rfl, rfl⟩ := ih hrest
      exact ⟨a :: before, c, after, head, tail, rfl, hc, by simp, rfl⟩
    · cases more with
      | nil =>
        have hrest : rest.flatMap f = [] ++ b :: last := hlast.symm
        obtain ⟨before, c, after, head, tail, rfl, hc, hnil, rfl⟩ := ih hrest
        refine ⟨a :: before, c, after, head, tail, rfl, hc, ?_, rfl⟩
        rw [List.flatMap_cons, List.append_assoc, ← hnil, ha, List.append_nil, List.append_nil]
      | cons _ tail =>
        cases hlast
        exact ⟨[], a, rest, first, tail, rfl, ha, rfl, rfl⟩

namespace Registry

variable {r : Registry} {keys : Bool} {names : List String} {catalog : Catalog} {plan : Upgrade}
  {entities : List Entity} {tables views : Entity → List Statement}

/-- Statements that bring the tables of some entities up to date. -/
def tableStatements (r : Registry) (keys : Bool) (catalog : Catalog) (entities : List Entity) :
    Except UpgradeError (List Statement) :=
  return (← entities.mapM fun e => e.upgradeTable r keys catalog).flatten

theorem tableStatements_eq_ok (h : ∀ e ∈ entities, e.upgradeTable r keys catalog = .ok (tables e)) :
    r.tableStatements keys catalog entities = .ok (entities.flatMap tables) := by
  have hall : entities.mapM (fun e => e.upgradeTable r keys catalog) = .ok (entities.map tables) :=
    mapM_eq_ok_iff.2 (List.forall₂_map_right_iff.2 (List.forall₂_same.2 h))
  exact bind_eq_ok_iff.2 ⟨_, hall, by rw [List.flatMap_def]; rfl⟩

theorem IsUpgrade.filter_scripts (h : r.IsUpgrade keys catalog entities plan tables views)
    {some' : List Entity} (hsub : some' ⊆ entities) :
    (some'.flatMap fun e => tables e ++ views e).filter (fun s => !s.isOnView) =
      some'.flatMap tables := by
  rw [List.filter_flatMap]
  refine List.flatMap_congr fun e he => ?_
  have htable := Entity.isOnView_upgradeTable (h.table e (hsub he))
  have hview := Entity.isOnView_upgradeView (h.view e (hsub he))
  rw [List.filter_append, List.filter_eq_self.2 (fun s hs => by simp [htable s hs]),
    List.filter_eq_nil_iff.2 (fun s hs => by simp [hview s hs]), List.append_nil]

/-- A view is created right after its table is brought up to date, before any later entity. -/
theorem IsUpgrade.exists_created (h : r.IsUpgrade keys catalog entities plan tables views)
    {first last : List Statement} {view table : Name} {columns : List ViewColumn}
    {joins : List ViewJoin}
    (hsplit : plan.statements = first ++ .createView view table columns joins :: last) :
    ∃ before e after, entities = before ++ e :: after ∧ e.view = some view ∧
      e.createView r = .ok (some (.createView view table columns joins)) ∧
      first.filter (fun s => !s.isOnView) = (before ++ [e]).flatMap tables ∧
      last.filter (fun s => !s.isOnView) = after.flatMap tables := by
  have hnotDrop : Statement.createView view table columns joins ∉ plan.viewDrops := fun hmem => by
    obtain ⟨_, hs⟩ := h.isOnView_viewDrops _ hmem
    cases hs
  rw [h.statements] at hsplit
  obtain ⟨more, rfl, hscripts⟩ := exists_append_of_notMem hsplit hnotDrop
  obtain ⟨before, e, after, head, tail, rfl, he, rfl, rfl⟩ := exists_split_of_flatMap hscripts
  have hmem : e ∈ before ++ e :: after := by simp
  have htable := Entity.isOnView_upgradeTable (h.table e hmem)
  -- No statement on the table is the creation, so the creation is the last one on the view.
  obtain ⟨opening, rfl, hview⟩ := exists_append_of_notMem he fun hs => by
    exact absurd (htable _ hs) (by simp [Statement.isOnView])
  have hall := h.view e hmem
  rw [hview] at hall
  obtain ⟨hname, hcreate, rfl⟩ := Entity.upgradeView_eq_append hall
  have hopening : ∀ s ∈ opening, s.isOnView = true := fun s hs =>
    Entity.isOnView_upgradeView hall s (List.mem_append_left _ hs)
  refine ⟨before, e, after, rfl, hname, hcreate, ?_, ?_⟩
  · have hdrops : ∀ s ∈ plan.viewDrops, s.isOnView = true := fun s hs => by
      obtain ⟨_, rfl⟩ := h.isOnView_viewDrops s hs
      rfl
    have hnoDrop : plan.viewDrops.filter (fun s => !s.isOnView) = [] :=
      List.filter_eq_nil_iff.2 fun s hs => by simp [hdrops s hs]
    have hnoView : opening.filter (fun s => !s.isOnView) = [] :=
      List.filter_eq_nil_iff.2 fun s hs => by simp [hopening s hs]
    have hown : (tables e).filter (fun s => !s.isOnView) = tables e :=
      List.filter_eq_self.2 fun s hs => by simp [htable s hs]
    rw [List.filter_append, List.filter_append, List.filter_append, hnoDrop, hnoView, hown,
      h.filter_scripts (List.subset_append_left _ _), List.flatMap_append, List.flatMap_singleton,
      List.nil_append, List.append_nil]
  · exact h.filter_scripts fun f hf => by simp [hf]

/-- Views over an upgrade. Its statements never drop a view that is not there or create one that is,
and leave every view there. On a dialect that builds views anew, every view that is there goes before
the first statement on a table. Unless references go in a circle, a view is created after all
statements on the tables that it reads. -/
theorem upgrade_views (h : r.upgrade keys names catalog = .ok plan)
    (horder : r.referenceOrder names = .ok entities) (hd : (viewNames entities).Nodup) :
    runOnViews catalog.views plan.statements =
        some (catalog.views ∪ (viewNames entities).toFinset) ∧
      (r.dialect.rebuildsViews = true → ∀ first s last, plan.statements = first ++ s :: last →
        s.isOnView = false → ∀ e ∈ entities, ∀ view, e.view = some view →
          view.caseless ∈ catalog.views → .dropView view ∈ first) ∧
      (ReferenceOrder.IsAcyclic entities → ∀ first view table columns joins last,
        plan.statements = first ++ .createView view table columns joins :: last →
          ∃ before e after, entities = before ++ e :: after ∧ e.view = some view ∧
            (∀ g, e.Reads r g → g ∈ before ++ [e] ∧ g ∉ after) ∧
            (∀ t ∈ table :: joins.map (·.table), ∃ g, e.Reads r g ∧ g.table = t) ∧
            r.tableStatements keys catalog (before ++ [e]) =
              .ok (first.filter fun s => !s.isOnView) ∧
            r.tableStatements keys catalog after = .ok (last.filter fun s => !s.isOnView)) := by
  obtain ⟨tables, views, hplan⟩ := upgrade_eq_ok h horder
  refine ⟨hplan.runOnViews hd, fun hr first s last hsplit hs e he view hview hthere =>
    hplan.dropView_mem hr hsplit hs he hview hthere, ?_⟩
  intro hacyclic first view table columns joins last hsplit
  obtain ⟨before, e, after, rfl, hview, hcreate, hfirst, hlast⟩ := hplan.exists_created hsplit
  have hsorted := isSorted_of_referenceOrder horder hacyclic
  have hnames := nodup_of_referenceOrder horder
  have hsplit : before ++ e :: after = before ++ [e] ++ after := by simp
  refine ⟨before, e, after, rfl, hview, fun g hg => ?_,
    fun t ht => Entity.reads_of_createView hcreate ht, ?_, ?_⟩
  · have hmem := hg.mem_of_isSorted horder hsorted
    refine ⟨hmem, fun hafter => ?_⟩
    rw [hsplit, List.map_append] at hnames
    exact (List.nodup_append.1 hnames).2.2 _ (List.mem_map_of_mem hmem) _
      (List.mem_map_of_mem hafter) rfl
  · rw [hfirst]
    exact tableStatements_eq_ok fun f hf => hplan.table f (hsplit ▸ List.mem_append_left _ hf)
  · rw [hlast]
    exact tableStatements_eq_ok fun f hf => hplan.table f (by simp [hf])

end Registry

/-! ## A blog whose tables are missing -/

/-- A catalog in which the view of the blog outlived its tables. -/
def strandedView : Catalog := ⟨[{ name := "v_post", kind := .view }]⟩

theorem isAcyclic_blogRegistry : ReferenceOrder.IsAcyclic (blogRegistry .hsqldb).entities := by
  have hnames : (blogRegistry .hsqldb).entities.map (fun e => (e.name, e.references)) =
      [("Author", []), ("Post", ["Author"])] := rfl
  have hstep : ∀ a b, ReferenceOrder.RefersTo (blogRegistry .hsqldb).entities a b →
      a = "Post" ∧ b = "Author" := by
    rintro a b ⟨e, he, rfl, hb⟩
    have hmem := List.mem_map_of_mem (f := fun e : Entity => (e.name, e.references)) he
    rw [hnames] at hmem
    rcases List.mem_pair.1 hmem with h | h
    · obtain ⟨-, h⟩ := Prod.mk.inj h
      rw [h] at hb
      cases hb
    · obtain ⟨hname, h⟩ := Prod.mk.inj h
      rw [h] at hb
      exact ⟨hname, List.mem_singleton.1 hb⟩
  intro name hloop
  obtain ⟨_, hfirst, _⟩ := Relation.TransGen.head'_iff.1 hloop
  obtain ⟨_, _, hlast⟩ := Relation.TransGen.tail'_iff.1 hloop
  exact absurd ((hstep _ _ hfirst).1.symm.trans (hstep _ _ hlast).2) (by decide)

/-- The view of a blog that lost its tables goes before they are created, and comes back after. -/
theorem upgrade_stranded_view :
    ∃ plan, (blogRegistry .hsqldb).upgrade true ["Post"] strandedView = .ok plan ∧
      plan.statements.map (·.isOnView) =
        [true, false, false, false, false, false, false, true] ∧
      runOnViews strandedView.views plan.statements = some {"v_post"} ∧
      (∀ first s last, plan.statements = first ++ s :: last → s.isOnView = false →
        .dropView ⟨"V_POST", "PUBLIC.V_POST"⟩ ∈ first) ∧
      ∀ first view table columns joins last,
        plan.statements = first ++ .createView view table columns joins :: last →
          (blogRegistry .hsqldb).tableStatements true strandedView
            (blogRegistry .hsqldb).entities = .ok (first.filter fun s => !s.isOnView) := by
  have horder := referenceOrder_blogRegistry .hsqldb
  have hplan : ∃ plan, (blogRegistry .hsqldb).upgrade true ["Post"] strandedView = .ok plan ∧
      (plan.statements.map (·.isOnView) ==
        [true, false, false, false, false, false, false, true]) = true := by
    unfold Registry.upgrade
    rw [horder]
    exact exists_ok_of_any (by decide +kernel)
  obtain ⟨plan, hplan, hkinds⟩ := hplan
  obtain ⟨hrun, hdrop, hcreate⟩ := Registry.upgrade_views hplan horder (by decide)
  obtain ⟨author, post, he⟩ : ∃ author post, (blogRegistry .hsqldb).entities = [author, post] :=
    ⟨_, _, rfl⟩
  have hviews : (blogRegistry .hsqldb).entities.map (·.view) =
      [none, some ⟨"V_POST", "PUBLIC.V_POST"⟩] := rfl
  rw [he] at hviews
  have hauthor : author.view = none := (List.cons.inj hviews).1
  have hpost : post.view = some ⟨"V_POST", "PUBLIC.V_POST"⟩ :=
    (List.cons.inj (List.cons.inj hviews).2).1
  refine ⟨plan, hplan, by simpa using hkinds, hrun.trans (congrArg some (by decide)), ?_, ?_⟩
  · intro first s last hsplit hs
    exact hdrop rfl first s last hsplit hs post (by simp [he]) _ hpost (by decide)
  · intro first view table columns joins last hsplit
    obtain ⟨before, e, after, hentities, hview, _, _, hfirst, _⟩ :=
      hcreate isAcyclic_blogRegistry first view table columns joins last hsplit
    -- Only the later of the two entities has a view.
    rw [he] at hentities
    have hall : before ++ [e] = [author, post] := by
      rcases before with _ | ⟨_, _ | ⟨_, _⟩⟩
      · cases hentities
        rw [hauthor] at hview
        cases hview
      · cases hentities
        rfl
      · simp at hentities
    rwa [he, ← hall]

end SqlDialects
