import SqlDialects.Proofs.ColumnConvergence
import SqlDialects.Proofs.UpToDate
import SqlDialects.Proofs.UpgradeScript

/-!
# The view over a version upgrade

A version upgrade drops the view of the earlier version first and creates that of the new one last, if
it has any other statement. What the view shows depends on more than the table: its own name, list-only
fields, and where their keys lead. This module says for which versions there are statements on the
table, and so for which of them the view follows.

Results:
1. `Entity.fieldSteps_eq_nil_iff`: the fields that need no statement.
2. `Entity.versionStatements_eq_nil_iff`: the versions between which the planner sees no difference;
   `Entity.HasSameTable.perm_columns`: they have the same columns besides the key.
3. `Registry.versionUpgrade_rebuildsView_iff`: a view that changed is rebuilt exactly if the planner
   sees a difference; `unlisted_post_not_rebuilt`: a change that it does not see.
-/

namespace SqlDialects

/-! ## Versions of one table -/

namespace Entity

/-- Whether the column of a field is what an earlier version made it, as far as the planner compares
them. -/
def HasSameColumn (e previous : Entity) (d : Dialect) (f : Field) : Prop :=
  ∃ before, previous.upgradableField? f.marker = some before ∧
    Text.sameName before.column.raw f.column.raw = true ∧
      ∃ g, e.tableField f.name = .ok g ∧ (g.difference d (before.asReported d)).isAny = false

/-- Whether the planner sees no difference between an earlier version and this one: the table has the
same name, and each version has the columns of the other. -/
structure HasSameTable (e previous : Entity) (d : Dialect) : Prop where
  table : Text.sameName previous.table.raw e.table.raw = true
  columns : ∀ f ∈ e.upgradableFields, e.HasSameColumn previous d f
  kept : ∀ before ∈ previous.upgradableFields, (e.upgradableField? before.marker).isSome = true

variable {e previous : Entity} {d : Dialect} {f : Field} {observed : CatalogColumn}
  {statements : List Statement}

theorem convergeColumn_eq_nil_iff (h : e.convergeColumn d f observed = .ok statements) :
    statements = [] ↔ (f.difference d observed).isAny = false := by
  obtain ⟨fill, hfill, rfl⟩ := convergeColumn_eq_parts h
  rw [(isConvergence_parts hfill).eq_nil_iff]
  exact ⟨fun hdiff => by rw [hdiff]; rfl, ColumnDifference.eq_of_isAny_eq_false⟩

/-- A field needs no statement exactly if its column is what it was. -/
theorem fieldSteps_eq_nil_iff {steps : FieldSteps} (h : e.fieldSteps previous d f = .ok steps) :
    (steps.renames = [] ∧ steps.alterations = [] ∧ steps.additions = []) ↔
      e.HasSameColumn previous d f := by
  cases hb : previous.upgradableField? f.marker with
  | none =>
    obtain ⟨_, _, hadd⟩ := fieldSteps_of_added hb h
    constructor
    · rintro ⟨_, _, hnil⟩
      rw [hnil] at hadd
      obtain ⟨g, _, ⟨_, hs⟩ | ⟨_, literal, _, hs⟩⟩ := addColumn_eq_ok hadd
      · cases hs
      · cases hs
    · rintro ⟨before, hbefore, _⟩
      cases hb.symm.trans hbefore
  | some before =>
    obtain ⟨g, hg, hrenames, halterations, hadditions⟩ := fieldSteps_of_paired hb h
    rw [hrenames, hadditions, convergeColumn_eq_nil_iff halterations]
    constructor
    · rintro ⟨hsame, hany, _⟩
      refine ⟨before, hb, ?_, g, hg, hany⟩
      by_contra hdiffers
      rw [if_neg hdiffers] at hsame
      cases hsame
    · rintro ⟨before', hbefore, hsame, g', hg', hany⟩
      cases hb.symm.trans hbefore
      cases hg.symm.trans hg'
      exact ⟨if_pos hsame, hany, rfl⟩

theorem abandonedFields_eq_nil_iff : e.abandonedFields previous = [] ↔
    ∀ before ∈ previous.upgradableFields, (e.upgradableField? before.marker).isSome = true := by
  simp only [abandonedFields, List.filter_eq_nil_iff, Option.isNone_iff_eq_none,
    Option.isSome_iff_ne_none, ne_eq]

/-- The planner has nothing to do on a table exactly if it sees no difference. -/
theorem versionStatements_eq_nil_iff (h : e.versionStatements previous d = .ok statements) :
    statements = [] ↔ e.HasSameTable previous d := by
  obtain ⟨steps, hsteps, rfl⟩ := versionStatements_eq_ok h
  simp only [columnStatements, List.append_eq_nil_iff, List.flatMap_eq_nil_iff, List.map_eq_nil_iff]
  constructor
  · rintro ⟨hrename, ⟨⟨hrenames, halterations⟩, hadditions⟩, habandoned⟩
    refine ⟨?_, fun f hf => ?_, fun before hbefore => ?_⟩
    · by_contra hdiffers
      rw [tableRename, if_neg hdiffers] at hrename
      cases hrename
    · exact (fieldSteps_eq_nil_iff (hsteps f hf)).1
        ⟨hrenames f hf, halterations f hf, hadditions f hf⟩
    · exact abandonedFields_eq_nil_iff.1 habandoned before hbefore
  · intro hsame
    have hnil : ∀ f ∈ e.upgradableFields,
        (steps f).renames = [] ∧ (steps f).alterations = [] ∧ (steps f).additions = [] :=
      fun f hf => (fieldSteps_eq_nil_iff (hsteps f hf)).2 (hsame.columns f hf)
    refine ⟨if_pos hsame.table, ⟨⟨fun f hf => (hnil f hf).1, fun f hf => (hnil f hf).2.1⟩,
      fun f hf => (hnil f hf).2.2⟩, abandonedFields_eq_nil_iff.2 hsame.kept⟩

/-- Versions of one table have the same columns besides the key, as catalogs compare them. -/
theorem HasSameTable.perm_columns (h : e.HasSameTable previous d)
    (he : (e.fields.map (·.marker)).Nodup) (hp : (previous.fields.map (·.marker)).Nodup) :
    (e.upgradableFields.map (·.column.caseless)).Perm
      (previous.upgradableFields.map (·.column.caseless)) := by
  have hadded : e.addedFields previous = [] := by
    refine List.filter_eq_nil_iff.2 fun f hf => ?_
    obtain ⟨before, hbefore, _⟩ := h.columns f hf
    simp [hbefore]
  have habandoned : e.abandonedFields previous = [] :=
    abandonedFields_eq_nil_iff.2 h.kept
  have hnew := perm_upgradableFields e previous
  have hold := perm_previous_upgradableFields he hp
  rw [hadded, List.append_nil] at hnew
  rw [habandoned, List.append_nil] at hold
  have hpairs : (e.pairedFields previous).map (fun p => p.2.column.caseless) =
      (e.pairedFields previous).map fun p => p.1.column.caseless := by
    refine List.map_congr_left fun p hpair => ?_
    obtain ⟨hf, hbefore⟩ := mem_pairedFields.1 hpair
    obtain ⟨before, hbefore', hsame, _⟩ := h.columns p.2 hf
    cases hbefore.symm.trans hbefore'
    exact (Name.caseless_eq_iff.2 hsame).symm
  refine (hnew.map _).trans (.trans (.of_eq ?_) (hold.map _).symm)
  rw [List.map_map, List.map_map]
  exact hpairs

end Entity

/-! ## Rebuilding the view -/

/-- Whether a script drops the view of an earlier version, and creates that of this one. -/
def Script.RebuildsView (script : Script) (r : Registry) (previous e : Entity) : Prop :=
  (∀ view, previous.view = some view → .dropView view ∈ script.statements) ∧
    (e.view.isSome = true →
      ∃ create, e.createView r = .ok (some create) ∧ create ∈ script.statements)

section

variable {r : Registry} {old : EntitySpec} {name : String} {script : Script} {e previous : Entity}

/-- An empty script would do only for versions that have no view. -/
theorem Script.not_rebuildsView_of_nil
    (hview : previous.view ≠ e.view ∨ previous.createView r ≠ e.createView r)
    (hnil : script.statements = []) : ¬script.RebuildsView r previous e := by
  rintro ⟨hdrop, hcreate⟩
  rw [hnil] at hdrop hcreate
  have hold : previous.view = none :=
    Option.eq_none_iff_forall_ne_some.2 fun view hview => List.not_mem_nil (hdrop view hview)
  have hnew : e.view = none := by
    rw [← Option.not_isSome_iff_eq_none]
    intro hsome
    obtain ⟨_, _, hmem⟩ := hcreate hsome
    cases hmem
  rcases hview with hname | hcreates
  · exact hname (hold.trans hnew.symm)
  · refine hcreates ?_
    unfold Entity.createView
    rw [hold, hnew]

theorem Script.rebuildsView_of_eq_append {statements : List Statement} {create : Option Statement}
    (hcreate : e.createView r = .ok create)
    (hscript : script.statements = previous.dropView.toList ++ statements ++ create.toList) :
    script.RebuildsView r previous e := by
  constructor
  · intro view hview
    rw [hscript, Entity.dropView, hview]
    exact List.mem_append_left _ (List.mem_append_left _ List.mem_cons_self)
  · intro hsome
    obtain ⟨view, hview⟩ := Option.isSome_iff_exists.1 hsome
    obtain ⟨columns, joins, rfl⟩ := Entity.createView_eq_ok hview hcreate
    refine ⟨_, hcreate, ?_⟩
    rw [hscript]
    exact List.mem_append_right _ List.mem_cons_self

/-- The view over a version upgrade. The script is empty exactly if the planner sees no difference
between the tables of the versions. So where the view is not what it was, it is rebuilt exactly if the
planner sees a difference, and then the old one is dropped before any other statement and the new one
is created after all of them. -/
theorem Registry.versionUpgrade_rebuildsView_iff (h : r.versionUpgrade old name = .ok script)
    (he : r.get name = .ok e) (hp : Entity.ofSpec r.dialect old = .ok previous)
    (hview : previous.view ≠ e.view ∨ previous.createView r ≠ e.createView r) :
    (script.statements = [] ↔ e.HasSameTable previous r.dialect) ∧
    (script.RebuildsView r previous e ↔ ¬e.HasSameTable previous r.dialect) ∧
    (script.RebuildsView r previous e → ∃ statements create,
      e.versionStatements previous r.dialect = .ok statements ∧ e.createView r = .ok create ∧
        script.statements = previous.dropView.toList ++ statements ++ create.toList) := by
  obtain ⟨statements, hs, hscript⟩ := versionUpgrade_eq_nil_or he hp h
  have hiff := Entity.versionStatements_eq_nil_iff hs
  rcases hscript with ⟨hnil, hempty⟩ | ⟨hne, create, hcreate, hscript⟩
  · have hsame : e.HasSameTable previous r.dialect := hiff.1 hnil
    have hstays := Script.not_rebuildsView_of_nil hview hempty
    exact ⟨iff_of_true hempty hsame, iff_of_false hstays (not_not_intro hsame),
      fun hrebuilt => absurd hrebuilt hstays⟩
  · have hdiffers : ¬e.HasSameTable previous r.dialect := fun hsame => hne (hiff.2 hsame)
    have hfull : script.statements ≠ [] := by
      rw [hscript]
      simp [hne]
    exact ⟨iff_of_false hfull hdiffers,
      iff_of_true (Script.rebuildsView_of_eq_append hcreate hscript) hdiffers,
      fun _ => ⟨statements, create, hs, hcreate, hscript⟩⟩

end

/-! ## A blog whose posts were listed without their authors -/

/-- Posts before they had a state, and before they were listed with the names of their authors. -/
def statelessPostSpec : EntitySpec :=
  { EntitySpec.named "Post" with
    view := some "V_POST"
    fields := [(FieldSpec.named "id" .long).asPrimaryKey,
      { FieldSpec.named "author" .long with foreignKey := some ⟨"Author", "id"⟩ }] }

/-- Posts before they were listed with the names of their authors. -/
def unlistedPostSpec : EntitySpec :=
  { postSpec with fields := postSpec.fields.filter fun f => !f.isViewOnly }

/-- The text that creates a view. -/
def Entity.viewText? (e : Entity) (r : Registry) : Option String :=
  (e.createView r).toOption.join.map (r.dialect.ddl.text .compact)

/-- The view of posts, with the names of their authors. -/
def listedPosts : String :=
  "CREATE VIEW PUBLIC.V_POST AS SELECT T1.ID, T1.STATE, T1.AUTHOR, T2.NAME AS AUTHOR_NAME " ++
    "FROM PUBLIC.POST T1 LEFT JOIN PUBLIC.AUTHOR T2 ON T1.AUTHOR = T2.ID"

theorem exists_listed_post :
    ∃ e, (blogRegistry .hsqldb).get "Post" = .ok e ∧ e.view.isSome = true ∧
      e.viewText? (blogRegistry .hsqldb) = some listedPosts := by
  obtain ⟨e, he, htext⟩ : ∃ e, (blogRegistry .hsqldb).get "Post" = .ok e ∧
      (e.view.isSome && e.viewText? (blogRegistry .hsqldb) == some listedPosts) = true :=
    exists_ok_of_any (by decide +kernel)
  rw [Bool.and_eq_true, beq_iff_eq] at htext
  exact ⟨e, he, htext⟩

/-- Posts that get a state are listed with the names of their authors from then on. -/
theorem stateless_post_rebuilt :
    ∃ script e previous,
      (blogRegistry .hsqldb).versionUpgrade statelessPostSpec "Post" = .ok script ∧
      (blogRegistry .hsqldb).get "Post" = .ok e ∧
      Entity.ofSpec (blogRegistry .hsqldb).dialect statelessPostSpec = .ok previous ∧
      previous.createView (blogRegistry .hsqldb) ≠ e.createView (blogRegistry .hsqldb) ∧
      script.RebuildsView (blogRegistry .hsqldb) previous e := by
  obtain ⟨script, hscript, hfull⟩ : ∃ script,
      (blogRegistry .hsqldb).versionUpgrade statelessPostSpec "Post" = .ok script ∧
        (!script.statements.isEmpty) = true := exists_ok_of_any (by decide +kernel)
  obtain ⟨e, he, _, hnew⟩ := exists_listed_post
  obtain ⟨previous, hp, hold⟩ : ∃ previous,
      Entity.ofSpec (blogRegistry .hsqldb).dialect statelessPostSpec = .ok previous ∧
        (previous.viewText? (blogRegistry .hsqldb) ==
          some "CREATE VIEW PUBLIC.V_POST AS SELECT T1.ID, T1.AUTHOR FROM PUBLIC.POST T1") = true :=
    exists_ok_of_any (by decide +kernel)
  have hview : previous.createView (blogRegistry .hsqldb) ≠ e.createView (blogRegistry .hsqldb) := by
    intro heq
    rw [Entity.viewText?] at hnew
    rw [beq_iff_eq, Entity.viewText?, heq, hnew] at hold
    exact absurd hold (by decide)
  obtain ⟨hempty, hrebuilt, _⟩ :=
    Registry.versionUpgrade_rebuildsView_iff hscript he hp (.inr hview)
  refine ⟨script, e, previous, hscript, he, hp, hview, hrebuilt.2 fun hsame => ?_⟩
  rw [hempty.2 hsame] at hfull
  cases hfull

/-- Posts whose table stays as it is are listed as before, without the names of their authors. -/
theorem unlisted_post_not_rebuilt :
    (blogRegistry .hsqldb).IsReachable ∧ unlistedPostSpec.IsFinished ∧
    ∃ script e previous,
      (blogRegistry .hsqldb).versionUpgrade unlistedPostSpec "Post" = .ok script ∧
      (blogRegistry .hsqldb).get "Post" = .ok e ∧
      Entity.ofSpec (blogRegistry .hsqldb).dialect unlistedPostSpec = .ok previous ∧
      previous.viewText? (blogRegistry .hsqldb) =
        some "CREATE VIEW PUBLIC.V_POST AS SELECT T1.ID, T1.STATE, T1.AUTHOR FROM PUBLIC.POST T1" ∧
      e.viewText? (blogRegistry .hsqldb) = some listedPosts ∧
      ¬script.RebuildsView (blogRegistry .hsqldb) previous e := by
  obtain ⟨script, hscript, hempty⟩ : ∃ script,
      (blogRegistry .hsqldb).versionUpgrade unlistedPostSpec "Post" = .ok script ∧
        script.statements.isEmpty = true := exists_ok_of_any (by decide +kernel)
  obtain ⟨e, he, hview, hnew⟩ := exists_listed_post
  obtain ⟨previous, hp, hold⟩ : ∃ previous,
      Entity.ofSpec (blogRegistry .hsqldb).dialect unlistedPostSpec = .ok previous ∧
        (previous.viewText? (blogRegistry .hsqldb) == some ("CREATE VIEW PUBLIC.V_POST AS SELECT " ++
          "T1.ID, T1.STATE, T1.AUTHOR FROM PUBLIC.POST T1")) = true :=
    exists_ok_of_any (by decide +kernel)
  rw [beq_iff_eq] at hold
  refine ⟨isReachable_blogRegistry .hsqldb, EntitySpec.isFinished_of_build (by decide), script, e,
    previous, hscript, he, hp, hold, hnew, ?_⟩
  rintro ⟨_, hcreated⟩
  obtain ⟨create, _, hmem⟩ := hcreated hview
  rw [List.isEmpty_iff.1 hempty] at hmem
  cases hmem

end SqlDialects
