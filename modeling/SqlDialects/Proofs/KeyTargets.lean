import SqlDialects.Proofs.ReferenceReach
import SqlDialects.Proofs.ViewScript

/-!
# Foreign keys and the tables that they refer to

An upgrade adds the foreign keys of a table in the script of its entity. The table that a key refers
to has to be there by then: in the catalog, or created by a statement before. Entities are brought up
to date after what they refer to, so only a key that closes a circle can come too early.

Results:
1. `Registry.IsUpgrade.exists_table_split`, `Registry.IsUpgrade.creates_iff`: where a key is added,
   and which tables are created before it.
2. `Registry.mem_or_back_of_key`: a key refers to an entity in order no later than its own, or to one
   that leads back.
3. `Registry.upgrade_findsTargets`: when every key finds its target.
-/

namespace SqlDialects

/-- Whether each foreign key that is added refers to a table of the catalog, or to one that a statement
before it creates. -/
def FindsTargets (catalog : Catalog) (script : List Statement) : Prop :=
  ∀ first last table name column target targetColumn,
    script = first ++ .addForeignKey table name column target targetColumn :: last →
      catalog.find? target.raw = none → ∃ items, .createTable target items ∈ first

/-- Whether bringing the table of an entity up to date adds a foreign key to the table of another one,
which the key of a field refers to. -/
def Entity.AddsKeyTo (e : Entity) (r : Registry) (keys : Bool) (catalog : Catalog) (g : Entity) :
    Prop :=
  ∃ statements, e.upgradeTable r keys catalog = .ok statements ∧
    ∃ f ∈ e.tableFields, ∃ reference, f.foreignKey = some reference ∧
      r.get reference.entity = .ok g ∧
        ∃ name column, .addForeignKey e.table name f.column g.table column ∈ statements

namespace Registry

variable {r : Registry} {keys : Bool} {names : List String} {catalog : Catalog} {plan : Upgrade}
  {entities before after : List Entity} {e g : Entity} {tables views : Entity → List Statement}

/-! ## Where keys are added and tables created -/

/-- A statement that concerns no view is on the table of an entity. -/
theorem IsUpgrade.exists_table_split (h : r.IsUpgrade keys catalog entities plan tables views)
    {first last : List Statement} {s : Statement} (hs : s.isOnView = false)
    (hsplit : plan.statements = first ++ s :: last) :
    ∃ before e after head tail, entities = before ++ e :: after ∧
      tables e = head ++ s :: tail ∧
      first = plan.viewDrops ++ ((before.flatMap fun e => tables e ++ views e) ++ head) := by
  have hnotDrop : s ∉ plan.viewDrops := fun hmem => by
    obtain ⟨_, rfl⟩ := h.isOnView_viewDrops _ hmem
    cases hs
  rw [h.statements] at hsplit
  obtain ⟨more, rfl, hscripts⟩ := exists_append_of_notMem hsplit hnotDrop
  obtain ⟨before, e, after, head, tail, rfl, he, rfl, rfl⟩ := exists_split_of_flatMap hscripts
  have hnotView : s ∉ views e := fun hmem => by
    have hview := Entity.isOnView_upgradeView (h.view e (by simp)) s hmem
    rw [hs] at hview
    cases hview
  obtain ⟨more, htable, _⟩ := exists_prepend_of_notMem he hnotView
  exact ⟨before, e, after, head, more, rfl, htable, rfl⟩

/-- The statements before one on the table of an entity are those of the entities before it, and those
on its table that come first. -/
theorem IsUpgrade.exists_statements_split
    (h : r.IsUpgrade keys catalog (before ++ e :: after) plan tables views)
    {head tail : List Statement} {s : Statement} (he : tables e = head ++ s :: tail) :
    ∃ last, plan.statements =
      plan.viewDrops ++ ((before.flatMap fun e => tables e ++ views e) ++ head) ++ s :: last := by
  refine ⟨tail ++ views e ++ after.flatMap fun e => tables e ++ views e, ?_⟩
  rw [h.statements, List.flatMap_append, List.flatMap_cons, he]
  simp only [List.append_assoc, List.cons_append]

/-- No entity creates a table other than its own. -/
theorem IsUpgrade.eq_of_createTable_mem (h : r.IsUpgrade keys catalog entities plan tables views)
    (he : e ∈ entities) {created : Name} {items : List TableItem}
    (hs : .createTable created items ∈ tables e ++ views e) : created = e.table := by
  rcases List.mem_append.1 hs with hs | hs
  · cases Entity.isOnTable_upgradeTable (h.table e he) _ hs with
    | creation => rfl
    | key hkey =>
      obtain ⟨_, _, _, _, _, _, _, _, hs⟩ := Entity.addForeignKey_eq_ok hkey
      cases hs
    | part hpart => cases hpart
  · cases Entity.isOnView_upgradeView (h.view e he) _ hs

/-- Before a foreign key of an entity, the missing tables of the entities up to it are created, and no
others. -/
theorem IsUpgrade.creates_iff (h : r.IsUpgrade keys catalog (before ++ e :: after) plan tables views)
    {head tail : List Statement} {table name column target targetColumn : Name}
    (he : tables e = head ++ .addForeignKey table name column target targetColumn :: tail)
    {created : Name} (hmissing : catalog.find? created.raw = none) :
    (∃ items, .createTable created items ∈
        plan.viewDrops ++ ((before.flatMap fun e => tables e ++ views e) ++ head)) ↔
      created ∈ (before ++ [e]).map (·.table) := by
  constructor
  · rintro ⟨items, hs⟩
    rcases List.mem_append.1 hs with hdrop | hs
    · obtain ⟨_, hdrop⟩ := h.isOnView_viewDrops _ hdrop
      cases hdrop
    · rcases List.mem_append.1 hs with hbefore | hhead
      · obtain ⟨g, hg, hs⟩ := List.mem_flatMap.1 hbefore
        rw [h.eq_of_createTable_mem (List.mem_append_left _ hg) hs]
        exact List.mem_map_of_mem (List.mem_append_left _ hg)
      · have hs : .createTable created items ∈ tables e ++ views e :=
          List.mem_append_left _ (he ▸ List.mem_append_left _ hhead)
        rw [h.eq_of_createTable_mem (by simp) hs]
        exact List.mem_map_of_mem (by simp)
  · intro hmem
    obtain ⟨g, hg, rfl⟩ := List.mem_map.1 hmem
    have hall : g ∈ before ++ e :: after := by
      rcases List.mem_append.1 hg with hg | hg
      · exact List.mem_append_left _ hg
      · simp [List.mem_singleton.1 hg]
    obtain ⟨items, rest, htable⟩ := Entity.upgradeTable_of_missing (h.table g hall) hmissing
    refine ⟨items, List.mem_append_right _ ?_⟩
    rcases List.mem_append.1 hg with hg | hg
    · refine List.mem_append_left _ (List.mem_flatMap.2 ⟨g, hg, List.mem_append_left _ ?_⟩)
      rw [htable]
      exact List.mem_cons_self
    · -- The entity's own table is created by its first statement, which is not the one at hand.
      obtain rfl := List.mem_singleton.1 hg
      rw [he] at htable
      cases head with
      | nil => cases htable
      | cons s head =>
        cases htable
        exact List.mem_append_right _ List.mem_cons_self

/-! ## What keys refer to -/

/-- A foreign key is added for a field, to the table of a registered entity. -/
theorem IsUpgrade.exists_addsKeyTo (h : r.IsUpgrade keys catalog entities plan tables views)
    (he : e ∈ entities) {table name column target targetColumn : Name}
    (hs : .addForeignKey table name column target targetColumn ∈ tables e) :
    ∃ g, e.AddsKeyTo r keys catalog g ∧ g.table = target := by
  cases Entity.isOnTable_upgradeTable (h.table e he) _ hs with
  | key hkey =>
    obtain ⟨f, hf, reference, href, g, hg, _, _, heq⟩ := Entity.addForeignKey_eq_ok hkey
    cases heq
    exact ⟨g, ⟨_, h.table e he, f, hf, reference, href, hg, _, _, hs⟩, rfl⟩
  | part hpart => cases hpart

/-- A foreign key refers to an entity in order no later than its own, or to one after it that leads
back to it. -/
theorem mem_or_back_of_key (horder : r.referenceOrder names = .ok (before ++ e :: after))
    (h : e.AddsKeyTo r keys catalog g) :
    g ∈ before ++ [e] ∨ g ∈ after ∧
      ReferenceOrder.RefersTo (before ++ e :: after) e.name g.name ∧
      Relation.TransGen (ReferenceOrder.RefersTo (before ++ e :: after)) g.name e.name := by
  obtain ⟨_, _, f, hf, reference, href, hg, _⟩ := h
  have hget : r.get? reference.entity = some g := get_eq_ok_iff.1 hg
  have hname : g.name = reference.entity := (ReferenceOrder.mem_of_get? hget).2
  have hsame : ∀ x ∈ before ++ e :: after, x.name = reference.entity → x = g := by
    intro x hx hxname
    have hxget := get?_of_referenceOrder horder hx
    rw [hxname, hget] at hxget
    exact (Option.some.inj hxget).symm
  have hmem : e ∈ before ++ e :: after := by simp
  by_cases hself : reference.entity = e.name
  · rw [← hsame e hmem hself.symm]
    exact .inl (by simp)
  · have hrefers : reference.entity ∈ e.references := Entity.mem_references hf href hself
    rcases (isSortedButBack_of_referenceOrder horder).1 before e after rfl _ hrefers with
      hbefore | hback
    · obtain ⟨x, hx, hxname⟩ := List.mem_map.1 hbefore
      rw [← hsame x (List.mem_append_left _ hx) hxname]
      exact .inl (List.mem_append_left _ hx)
    · obtain ⟨x, hx, hxname⟩ := exists_mem_of_reference horder hmem hrefers
      rw [hsame x hx hxname] at hx
      rcases List.mem_append.1 hx with hx | hx
      · exact .inl (List.mem_append_left _ hx)
      · rcases List.mem_cons.1 hx with rfl | hx
        · exact .inl (by simp)
        · exact .inr ⟨hx, ⟨e, hmem, rfl, hname ▸ hrefers⟩, hname ▸ hback⟩

theorem IsUpgrade.findsTargets_iff (h : r.IsUpgrade keys catalog entities plan tables views) :
    FindsTargets catalog plan.statements ↔
      ∀ before e after, entities = before ++ e :: after → ∀ g, e.AddsKeyTo r keys catalog g →
        catalog.find? g.table.raw = none → g.table ∈ (before ++ [e]).map (·.table) := by
  constructor
  · rintro hfinds before e after rfl g ⟨statements, hs, f, _, _, _, _, name, column, hkey⟩ hmissing
    have hmem : e ∈ before ++ e :: after := by simp
    cases (h.table e hmem).symm.trans hs
    obtain ⟨head, tail, htable⟩ := List.append_of_mem hkey
    obtain ⟨last, hlast⟩ := h.exists_statements_split htable
    exact (h.creates_iff htable hmissing).1 (hfinds _ last _ _ _ _ _ hlast hmissing)
  · intro hall first last table name column target targetColumn hsplit hmissing
    obtain ⟨before, e, after, head, tail, rfl, htable, rfl⟩ := h.exists_table_split rfl hsplit
    have hkey : .addForeignKey table name column target targetColumn ∈ tables e := by
      rw [htable]
      exact List.mem_append_right _ List.mem_cons_self
    obtain ⟨g, hg, rfl⟩ := h.exists_addsKeyTo (by simp) hkey
    exact (h.creates_iff htable hmissing).2 (hall before e after rfl g hg hmissing)

/-- The foreign keys of an upgrade. Each one finds its target exactly if the table that it refers to is
in the catalog, or that of an entity in order no later than the one with the key. Only a key to an
entity that leads back may come too early, so unless references go in a circle every key finds its
target. -/
theorem upgrade_findsTargets (h : r.upgrade keys names catalog = .ok plan)
    (horder : r.referenceOrder names = .ok entities) :
    (FindsTargets catalog plan.statements ↔
      ∀ before e after, entities = before ++ e :: after → ∀ g, e.AddsKeyTo r keys catalog g →
        catalog.find? g.table.raw = none → g.table ∈ (before ++ [e]).map (·.table)) ∧
    (∀ before e after, entities = before ++ e :: after → ∀ g, e.AddsKeyTo r keys catalog g →
      g ∈ before ++ [e] ∨ g ∈ after ∧ ReferenceOrder.RefersTo entities e.name g.name ∧
        Relation.TransGen (ReferenceOrder.RefersTo entities) g.name e.name) ∧
    (ReferenceOrder.IsAcyclic entities → FindsTargets catalog plan.statements) := by
  obtain ⟨tables, views, hplan⟩ := upgrade_eq_ok h horder
  have hback : ∀ before e after, entities = before ++ e :: after → ∀ g,
      e.AddsKeyTo r keys catalog g →
        g ∈ before ++ [e] ∨ g ∈ after ∧ ReferenceOrder.RefersTo entities e.name g.name ∧
          Relation.TransGen (ReferenceOrder.RefersTo entities) g.name e.name := by
    rintro before e after rfl g hg
    exact mem_or_back_of_key horder hg
  refine ⟨hplan.findsTargets_iff, hback, fun hacyclic => hplan.findsTargets_iff.2 ?_⟩
  intro before e after hsplit g hg _
  rcases hback before e after hsplit g hg with hmem | ⟨_, hstep, hback⟩
  · exact List.mem_map_of_mem hmem
  · exact absurd (hback.head hstep) (hacyclic e.name)

end Registry

/-! ## A blog and teams whose tables are missing -/

namespace Statement

/-- The table that a statement creates. -/
def createdTable? : Statement → Option Name
  | .createTable table _ => some table
  | _ => none

/-- The table that a foreign key refers to, for a statement that adds one. -/
def keyTarget? : Statement → Option Name
  | .addForeignKey _ _ _ target _ => some target
  | _ => none

theorem eq_addForeignKey_of_keyTarget? {s : Statement} {target : Name}
    (h : s.keyTarget? = some target) :
    ∃ table name column targetColumn, s = .addForeignKey table name column target targetColumn := by
  unfold keyTarget? at h
  split at h
  · cases h
    exact ⟨_, _, _, _, rfl⟩
  · cases h

end Statement

/-- The key of a blog whose tables are missing, from posts to authors, finds its target. -/
theorem blog_findsTargets :
    ∃ plan, (blogRegistry .hsqldb).upgrade true ["Post"] strandedView = .ok plan ∧
      strandedView.find? "AUTHOR" = none ∧
      (plan.statements.filterMap (·.keyTarget?)).map (·.raw) = ["AUTHOR"] ∧
      FindsTargets strandedView plan.statements := by
  have horder := referenceOrder_blogRegistry .hsqldb
  have hplan : ∃ plan, (blogRegistry .hsqldb).upgrade true ["Post"] strandedView = .ok plan ∧
      ((plan.statements.filterMap (·.keyTarget?)).map (·.raw) == ["AUTHOR"]) = true := by
    unfold Registry.upgrade
    rw [horder]
    exact exists_ok_of_any (by decide +kernel)
  obtain ⟨plan, hplan, hkey⟩ := hplan
  obtain ⟨_, _, hfinds⟩ := Registry.upgrade_findsTargets hplan horder
  exact ⟨plan, hplan, by decide, eq_of_beq hkey, hfinds isAcyclic_blogRegistry⟩

/-- Players are brought up to date before their teams, although each refers to the other. Where neither
table is there, the key of a player to its team comes before the table of teams. -/
theorem teams_do_not_find_targets :
    teamRegistry.IsReachable ∧
    ∃ plan, teamRegistry.upgrade true ["Team"] ⟨[]⟩ = .ok plan ∧
      ¬FindsTargets ⟨[]⟩ plan.statements := by
  have hplan : ∃ plan, teamRegistry.upgrade true ["Team"] ⟨[]⟩ = .ok plan ∧
      ((plan.statements.take 2).map (fun s => (s.createdTable?, s.keyTarget?)) ==
        [(some ⟨"PLAYER", "PUBLIC.PLAYER"⟩, none), (none, some ⟨"TEAM", "PUBLIC.TEAM"⟩)]) = true := by
    unfold Registry.upgrade
    rw [referenceOrder_teamRegistry]
    exact exists_ok_of_any (by decide +kernel)
  obtain ⟨plan, hplan, hshape⟩ := hplan
  refine ⟨isReachable_teamRegistry, plan, hplan, fun hfinds => ?_⟩
  obtain ⟨creation, rest, htake, hcreation, hrest⟩ := List.map_eq_cons_iff.1 (eq_of_beq hshape)
  obtain ⟨key, rest, rfl, hkey, -⟩ := List.map_eq_cons_iff.1 hrest
  obtain ⟨table, name, column, targetColumn, rfl⟩ :=
    Statement.eq_addForeignKey_of_keyTarget? (Prod.mk.inj hkey).2
  have hstatements : plan.statements = [creation] ++ .addForeignKey table name column
      ⟨"TEAM", "PUBLIC.TEAM"⟩ targetColumn :: (rest ++ plan.statements.drop 2) := by
    conv_lhs => rw [← List.take_append_drop 2 plan.statements, htake]
    rfl
  obtain ⟨items, hmem⟩ := hfinds [creation] _ table name column _ targetColumn hstatements rfl
  obtain rfl := List.mem_singleton.1 hmem
  have hname : (⟨"TEAM", "PUBLIC.TEAM"⟩ : Name) = ⟨"PLAYER", "PUBLIC.PLAYER"⟩ :=
    Option.some.inj (Prod.mk.inj hcreation).1
  exact absurd hname (by decide)

end SqlDialects
