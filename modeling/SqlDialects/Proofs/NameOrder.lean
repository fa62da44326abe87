import SqlDialects.Proofs.ReferenceReach
import SqlDialects.Proofs.UpgradeScript

/-!
# The order in which entities are named

An upgrade visits entities in an order that depends on how they are named, and decides from all
their scripts whether views have to go first. What it plans for each entity does not depend on that
order: only which entities are reached does matter.

Results:
1. `Registry.exists_referenceOrder_iff`, `Registry.perm_of_reaches`: whether there is an order, and
   that two orders of what is reached hold the same entities.
2. `Registry.exists_upgrade_iff`: when an upgrade is planned, by entity.
3. `Registry.IsUpgrade.perm`: upgrades of the same entities have the same parts.
4. `Registry.upgrade_perm`: the upgrades of two lists of names that reach the same.
-/

namespace SqlDialects

/-- In a list where at most one entry passes a test, it is found whatever the order is. -/
theorem find?_eq_of_perm {α : Type} {p : α → Bool} {first second : List α}
    (hperm : first.Perm second)
    (hone : ∀ a ∈ first, ∀ b ∈ first, p a = true → p b = true → a = b) :
    first.find? p = second.find? p := by
  cases hfound : second.find? p with
  | none =>
    rw [List.find?_eq_none] at hfound ⊢
    exact fun a ha => hfound a (hperm.mem_iff.1 ha)
  | some b =>
    have hb : b ∈ first := hperm.mem_iff.2 (List.mem_of_find?_eq_some hfound)
    have hpb : p b = true := List.find?_some hfound
    cases hown : first.find? p with
    | none => exact absurd hpb (List.find?_eq_none.1 hown b hb)
    | some a =>
      rw [hone a (List.mem_of_find?_eq_some hown) b hb (List.find?_some hown) hpb]

namespace Registry

variable {r : Registry} {keys : Bool} {names others : List String} {catalog : Catalog}
  {entities reordered : List Entity}

/-! ## Orders of what is reached -/

/-- Names that are reached from each other reach the same. -/
theorem reaches_iff_of_reaches (hnames : ∀ name ∈ names, r.Reaches others name)
    (hothers : ∀ name ∈ others, r.Reaches names name) (name : String) :
    r.Reaches names name ↔ r.Reaches others name := by
  constructor
  · rintro ⟨start, hstart, hpath⟩
    obtain ⟨origin, horigin, hstep⟩ := hnames start hstart
    exact ⟨origin, horigin, hstep.trans hpath⟩
  · rintro ⟨start, hstart, hpath⟩
    obtain ⟨origin, horigin, hstep⟩ := hothers start hstart
    exact ⟨origin, horigin, hstep.trans hpath⟩

/-- There is an order exactly if all that is reached is registered. -/
theorem exists_referenceOrder_iff (r : Registry) (names : List String) :
    (∃ entities, r.referenceOrder names = .ok entities) ↔
      ∀ name, r.Reaches names name → (r.get? name).isSome := by
  constructor
  · rintro ⟨entities, h⟩ name hreach
    obtain ⟨e, he, rfl⟩ := hreach.exists_mem h
    rw [get?_of_referenceOrder h he, Option.isSome_some]
  · intro hall
    cases h : r.referenceOrder names with
    | ok entities => exact ⟨entities, rfl⟩
    | error err =>
      obtain ⟨name, hreach, hunknown, -⟩ := exists_unknown_of_referenceOrder h
      have hknown := hall name hreach
      rw [hunknown] at hknown
      cases hknown

theorem mem_of_reaches (h : r.referenceOrder names = .ok entities) {e : Entity}
    (hreach : r.Reaches names e.name) (hget : r.get? e.name = some e) : e ∈ entities := by
  obtain ⟨g, hg, hname⟩ := hreach.exists_mem h
  have hfound := get?_of_referenceOrder h hg
  rw [hname, hget] at hfound
  obtain rfl := Option.some.inj hfound
  exact hg

/-- Orders of what is reached hold the same entities. -/
theorem perm_of_reaches (hsame : ∀ name, r.Reaches names name ↔ r.Reaches others name)
    (h : r.referenceOrder names = .ok entities) (hr : r.referenceOrder others = .ok reordered) :
    entities.Perm reordered := by
  refine (List.perm_ext_iff_of_nodup (.of_map _ (nodup_of_referenceOrder h))
    (.of_map _ (nodup_of_referenceOrder hr))).2 fun e => ⟨fun he => ?_, fun he => ?_⟩
  · exact mem_of_reaches hr ((hsame e.name).1 (reaches_of_mem h he)) (get?_of_referenceOrder h he)
  · exact mem_of_reaches h ((hsame e.name).2 (reaches_of_mem hr he)) (get?_of_referenceOrder hr he)

/-! ## Upgrades by entity -/

/-- A view whose statements are found may be dropped, as far as it is one. -/
theorem exists_dropExistingView {e : Entity} {changed dropped : Bool} {statements : List Statement}
    (h : e.upgradeView r catalog changed dropped = .ok statements) :
    ∃ drops, e.dropExistingView catalog = .ok drops := by
  unfold Entity.upgradeView at h
  unfold Entity.dropExistingView
  cases hview : e.view with
  | none => exact ⟨[], rfl⟩
  | some view =>
    rw [hview] at h
    obtain ⟨found, hfound, -⟩ := bind_eq_ok_iff.1 h
    simp only [hfound]
    cases found with
    | none => exact ⟨[], rfl⟩
    | some existing => exact ⟨[.dropView view], rfl⟩

/-- An upgrade is planned where the table and the view of each entity can be brought up to date. -/
theorem exists_upgrade {tables views : Entity → List Statement}
    (horder : r.referenceOrder names = .ok entities)
    (htables : ∀ e ∈ entities, e.upgradeTable r keys catalog = .ok (tables e))
    (hviews : ∀ e ∈ entities,
      e.upgradeView r catalog (!(tables e).isEmpty) (r.rebuilds entities tables) = .ok (views e)) :
    ∃ plan, r.upgrade keys names catalog = .ok plan := by
  have hpairs : (entities.mapM fun e => do return (e, ← e.upgradeTable r keys catalog)) =
      .ok (entities.map fun e => (e, tables e)) := by
    rw [mapM_eq_ok_iff, List.forall₂_map_right_iff, List.forall₂_same]
    intro e he
    rw [htables e he]
    rfl
  have hrebuilds : (r.dialect.rebuildsViews &&
      (entities.map fun e => (e, tables e)).any fun t => !t.2.isEmpty) =
        r.rebuilds entities tables := by
    rw [List.any_map]
    rfl
  obtain ⟨drops, hdrops⟩ : ∃ drops, dropViews entities catalog = .ok drops := by
    obtain ⟨drops, hdrops⟩ := exists_mapM_eq_ok fun e he => exists_dropExistingView (hviews e he)
    exact ⟨drops.flatten, bind_eq_ok_iff.2 ⟨drops, hdrops, rfl⟩⟩
  obtain ⟨scripts, hscripts⟩ : ∃ scripts,
      ((entities.map fun e => (e, tables e)).mapM fun t => do
        let view ← t.1.upgradeView r catalog (!t.2.isEmpty) (r.rebuilds entities tables)
        return Script.mk t.1.name (t.2 ++ view)) = .ok scripts := by
    rw [List.mapM_map]
    refine exists_mapM_eq_ok fun e he => ⟨⟨e.name, tables e ++ views e⟩, ?_⟩
    exact bind_eq_ok_iff.2 ⟨views e, hviews e he, rfl⟩
  refine ⟨⟨if r.rebuilds entities tables then drops else [], scripts⟩,
    bind_eq_ok_iff.2 ⟨entities, planning_eq_ok_iff.2 horder, bind_eq_ok_iff.2 ⟨_, hpairs, ?_⟩⟩⟩
  simp only [hrebuilds]
  cases hdropped : r.rebuilds entities tables with
  | true =>
    rw [hdropped] at hscripts
    exact bind_eq_ok_iff.2 ⟨drops, hdrops, bind_eq_ok_iff.2 ⟨scripts, hscripts, rfl⟩⟩
  | false =>
    rw [hdropped] at hscripts
    exact bind_eq_ok_iff.2 ⟨[], rfl, bind_eq_ok_iff.2 ⟨scripts, hscripts, rfl⟩⟩

/-! ## Upgrades of the same entities -/

section SameEntities

variable {plan other : Upgrade} {tables views own ownViews : Entity → List Statement}

theorem rebuilds_of_perm (hperm : entities.Perm reordered)
    (htables : ∀ e ∈ reordered, own e = tables e) :
    r.rebuilds reordered own = r.rebuilds entities tables := by
  unfold rebuilds
  rw [hperm.any_eq, Bool.eq_iff_iff]
  have hsame : (∃ e ∈ reordered, (!(own e).isEmpty) = true) ↔
      ∃ e ∈ reordered, (!(tables e).isEmpty) = true :=
    exists_congr fun e => and_congr_right fun he => by rw [htables e he]
  simp only [Bool.and_eq_true, List.any_eq_true, hsame]

/-- What is planned for an entity depends only on which entities there are. -/
theorem IsUpgrade.eq_of_perm (h : r.IsUpgrade keys catalog entities plan tables views)
    (hother : r.IsUpgrade keys catalog reordered other own ownViews)
    (hperm : entities.Perm reordered) :
    r.rebuilds reordered own = r.rebuilds entities tables ∧
      ∀ e ∈ reordered, own e = tables e ∧ ownViews e = views e := by
  have htables : ∀ e ∈ reordered, own e = tables e := fun e he =>
    Except.ok.inj ((hother.table e he).symm.trans (h.table e (hperm.mem_iff.2 he)))
  have hrebuilds := rebuilds_of_perm (r := r) hperm htables
  refine ⟨hrebuilds, fun e he => ⟨htables e he, ?_⟩⟩
  have hown := hother.view e he
  rw [htables e he, hrebuilds, h.view e (hperm.mem_iff.2 he)] at hown
  exact (Except.ok.inj hown).symm

/-- Upgrades of the same entities drop the same views and have the same scripts. -/
theorem IsUpgrade.perm (h : r.IsUpgrade keys catalog entities plan tables views)
    (hother : r.IsUpgrade keys catalog reordered other own ownViews)
    (hperm : entities.Perm reordered) :
    plan.viewDrops.Perm other.viewDrops ∧ plan.scripts.Perm other.scripts := by
  obtain ⟨hrebuilds, hsame⟩ := h.eq_of_perm hother hperm
  constructor
  · rw [h.viewDrops, hother.viewDrops, hrebuilds]
    split
    · exact ((hperm.filterMap _).filter _).map _
    · exact .nil
  · rw [h.scripts, hother.scripts]
    refine (hperm.map _).trans (.of_eq (List.map_congr_left fun e he => ?_))
    obtain ⟨htable, hview⟩ := hsame e he
    rw [htable, hview]

theorem script?_eq_of_perm (hperm : plan.scripts.Perm other.scripts)
    (honce : (plan.scripts.map (·.entity)).Nodup) (entity : String) :
    plan.script? entity = other.script? entity := by
  refine find?_eq_of_perm hperm fun a ha b hb hpa hpb => ?_
  rw [Bool.and_eq_true, beq_iff_eq] at hpa hpb
  exact List.inj_on_of_nodup_map honce ha hb (hpa.1.trans hpb.1.symm)

end SameEntities

theorem exists_upgrade_of_reaches
    (hsame : ∀ name, r.Reaches names name ↔ r.Reaches others name)
    (h : ∃ plan, r.upgrade keys names catalog = .ok plan) :
    ∃ plan, r.upgrade keys others catalog = .ok plan := by
  obtain ⟨plan, hplan⟩ := h
  obtain ⟨entities, horder, -⟩ := bind_eq_ok_iff.1 hplan
  have horder := planning_eq_ok_iff.1 horder
  obtain ⟨reordered, hreordered⟩ := (exists_referenceOrder_iff r others).2 fun name hreach =>
    (exists_referenceOrder_iff r names).1 ⟨entities, horder⟩ name ((hsame name).2 hreach)
  have hperm := perm_of_reaches hsame horder hreordered
  obtain ⟨tables, views, hupgrade⟩ := upgrade_eq_ok hplan horder
  have hviews : ∀ e ∈ reordered, e.upgradeView r catalog (!(tables e).isEmpty)
      (r.rebuilds reordered tables) = .ok (views e) := by
    intro e he
    rw [rebuilds_of_perm hperm fun _ _ => rfl]
    exact hupgrade.view e (hperm.mem_iff.2 he)
  exact exists_upgrade hreordered (fun e he => hupgrade.table e (hperm.mem_iff.2 he)) hviews

/-- The order in which entities are named does not matter. If two lists of names reach the same,
both upgrades are planned or neither is, and the plans drop the same views and have the same script
for each entity. -/
theorem upgrade_perm (hsame : ∀ name, r.Reaches names name ↔ r.Reaches others name) :
    ((∃ plan, r.upgrade keys names catalog = .ok plan) ↔
        ∃ plan, r.upgrade keys others catalog = .ok plan) ∧
      ∀ plan other, r.upgrade keys names catalog = .ok plan →
        r.upgrade keys others catalog = .ok other →
          plan.viewDrops.Perm other.viewDrops ∧ plan.scripts.Perm other.scripts ∧
            (plan.scripts.map (·.entity)).Nodup ∧
            ∀ entity, plan.script? entity = other.script? entity := by
  refine ⟨⟨exists_upgrade_of_reaches hsame, exists_upgrade_of_reaches fun n => (hsame n).symm⟩,
    fun plan other hplan hother => ?_⟩
  obtain ⟨entities, horder, -⟩ := bind_eq_ok_iff.1 hplan
  obtain ⟨reordered, hreordered, -⟩ := bind_eq_ok_iff.1 hother
  have horder := planning_eq_ok_iff.1 horder
  have hreordered := planning_eq_ok_iff.1 hreordered
  obtain ⟨tables, views, hupgrade⟩ := upgrade_eq_ok hplan horder
  obtain ⟨own, ownViews, hown⟩ := upgrade_eq_ok hother hreordered
  obtain ⟨hdrops, hscripts⟩ := hupgrade.perm hown (perm_of_reaches hsame horder hreordered)
  have honce : (plan.scripts.map (·.entity)).Nodup := by
    rw [hupgrade.scripts, List.map_map]
    exact nodup_of_referenceOrder horder
  exact ⟨hdrops, hscripts, honce, script?_eq_of_perm hscripts honce⟩

end Registry

/-! ## Teams named in two ways -/

theorem referenceOrder_players :
    teamRegistry.referenceOrder ["Player", "Team", "Player"] = .ok teamRegistry.entities := by
  obtain ⟨team, player, he, hteam, hcaptain, hplayer, hback⟩ := exists_entities_teamRegistry
  simp [Registry.referenceOrder_eq_run, ReferenceOrder.run_cons, ReferenceOrder.run_cons_of_mem,
    ReferenceOrder.run_nil, hteam, hplayer, hcaptain, hback, he, bind, Except.bind, Except.map]

/-- Players lead to their teams and teams to their captains, so it is all the same which of them an
upgrade is asked for, and how often; only the order of the two scripts differs. -/
theorem teams_perm :
    (∀ name, teamRegistry.Reaches ["Team"] name ↔
        teamRegistry.Reaches ["Player", "Team", "Player"] name) ∧
      ∃ plan other, teamRegistry.upgrade true ["Team"] ⟨[]⟩ = .ok plan ∧
        teamRegistry.upgrade true ["Player", "Team", "Player"] ⟨[]⟩ = .ok other ∧
        plan.scripts.map (·.entity) = ["Player", "Team"] ∧
        other.scripts.map (·.entity) = ["Team", "Player"] ∧
        plan.scripts.Perm other.scripts ∧
        ∀ entity, plan.script? entity = other.script? entity := by
  have hteam : teamRegistry.Reaches ["Team"] "Team" := .of_mem List.mem_cons_self
  have hplayer : teamRegistry.Reaches ["Team"] "Player" := hteam.step
    ⟨_, rfl, _, List.mem_cons_of_mem _ (List.mem_cons_of_mem _ List.mem_cons_self), _, rfl, rfl⟩
  have hsame : ∀ name, teamRegistry.Reaches ["Team"] name ↔
      teamRegistry.Reaches ["Player", "Team", "Player"] name := by
    refine Registry.reaches_iff_of_reaches (fun name hname => .of_mem ?_) ?_
    · simp [List.mem_singleton.1 hname]
    · simp [hteam, hplayer]
  have hplan : ∃ plan, teamRegistry.upgrade true ["Team"] ⟨[]⟩ = .ok plan ∧
      (plan.scripts.map (·.entity) == ["Player", "Team"]) = true := by
    unfold Registry.upgrade
    rw [referenceOrder_teamRegistry]
    exact exists_ok_of_any (by decide +kernel)
  have hother : ∃ plan, teamRegistry.upgrade true ["Player", "Team", "Player"] ⟨[]⟩ = .ok plan ∧
      (plan.scripts.map (·.entity) == ["Team", "Player"]) = true := by
    unfold Registry.upgrade
    rw [referenceOrder_players]
    exact exists_ok_of_any (by decide +kernel)
  obtain ⟨plan, hplan, hfirst⟩ := hplan
  obtain ⟨other, hother, hsecond⟩ := hother
  obtain ⟨hscripts, -, hscript⟩ := ((Registry.upgrade_perm hsame).2 plan other hplan hother).2
  exact ⟨hsame, plan, other, hplan, hother, eq_of_beq hfirst, eq_of_beq hsecond, hscripts, hscript⟩

end SqlDialects
