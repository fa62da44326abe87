import SqlDialects.Proofs.VersionView

/-!
# A version that is its own successor

A release whose entities are as they were upgrades from each description to itself. Fields then meet
themselves: looked up by marker, declared as columns once more and compared with what they were read
from. This module says when nothing comes of that.

Results:
1. `Registry.IsReachable.get_of_mem`, `Registry.IsReachable.ofSpec_source`: a registered entity is
   found by its name, and is what its description gives.
2. `Entity.fieldSteps_self`: a field that meets itself is changed at most.
3. `Registry.versionUpgrade_source_eq_nil_iff`: an entity needs no upgrade from its own description
   exactly if its defaults read back.
-/

namespace SqlDialects

/-! ## Registered entities -/

namespace Registry

variable {r : Registry} {e : Entity}

theorem IsReachable.names_nodup (hr : r.IsReachable) : (r.entities.map (·.name)).Nodup := by
  induction hr with
  | empty d => exact List.nodup_nil
  | @register r r' spec added _ _ hregister ih =>
    rcases register_eq_ok hregister with ⟨-, rfl⟩ | ⟨hnew, hof, rfl⟩
    · exact ih
    · rw [← (Entity.isOfSpec hof).name] at hnew
      exact nodup_names_append ih hnew

/-- A registered entity is the one that its name finds. -/
theorem IsReachable.get_of_mem (hr : r.IsReachable) (he : e ∈ r.entities) :
    r.get e.name = .ok e := by
  rw [get_eq_ok_iff]
  cases hfound : r.get? e.name with
  | none => exact absurd (beq_self_eq_true e.name) (List.find?_eq_none.1 hfound e he)
  | some found =>
    obtain ⟨hmem, hname⟩ := ReferenceOrder.mem_of_get? hfound
    rw [List.inj_on_of_nodup_map hr.names_nodup hmem he hname]

/-- A registered entity is what its own description gives. -/
theorem IsReachable.ofSpec_source (hr : r.IsReachable) (he : e ∈ r.entities) :
    Entity.ofSpec r.dialect e.source = .ok e := by
  induction hr with
  | empty d => cases he
  | @register r r' spec added _ _ hregister ih =>
    rcases register_eq_ok hregister with ⟨-, rfl⟩ | ⟨-, hof, rfl⟩
    · exact ih he
    · rcases List.mem_append.1 he with he | he
      · exact ih he
      · obtain rfl := List.mem_singleton.1 he
        rw [(Entity.isOfSpec hof).source]
        exact hof

end Registry

/-! ## Fields that meet themselves -/

namespace Entity

variable {e : Entity} {d : Dialect} {f : Field}

/-- A field keeps its column, which is compared with what the field declares. -/
theorem fieldSteps_self (hmarkers : (e.fields.map (·.marker)).Nodup)
    (hnames : (e.fields.map (·.name)).Nodup) (hf : f ∈ e.upgradableFields) :
    e.fieldSteps e d f =
      (e.convergeColumn d f (f.asReported d)).map fun alterations => { alterations } := by
  have hself : e.upgradableField? f.marker = some f :=
    (upgradableField?_eq_some_iff hmarkers).2 ⟨hf, rfl⟩
  have hfield : e.tableField f.name = .ok f :=
    tableField_of_mem hnames (mem_upgradableFields.1 hf).1
  unfold fieldSteps alterColumn
  simp only [hself, Text.sameName_refl, if_true, hfield]
  show (do
    let alterations ← e.convergeColumn d f (f.asReported d)
    return ({ alterations } : FieldSteps)) = _
  cases e.convergeColumn d f (f.asReported d) with
  | error err => rfl
  | ok alterations => rfl

theorem defaultChange_of_upgradable (hf : f ∈ e.upgradableFields) (observed : CatalogColumn) :
    (f.difference d observed).defaultChange =
      !d.defaults.isMatch observed.defaultValue f.defaultValue (d.columnRule f.columnType) := by
  rw [Field.difference, isIdentity_of_upgradable hf, Bool.not_false, Bool.true_and]

/-- A field that an upgrade may change meets itself without a difference exactly if its default
reads back. -/
theorem isAny_difference_asReported (hf : f ∈ e.upgradableFields) :
    (f.difference d (f.asReported d)).isAny = false ↔
      d.defaults.isMatch f.defaultLiteral f.defaultValue (d.columnRule f.columnType) = true := by
  refine ⟨fun h => ?_, Field.difference_asReported⟩
  simp only [ColumnDifference.isAny, Bool.or_eq_false_iff] at h
  have hdefault := defaultChange_of_upgradable (d := d) hf (f.asReported d)
  rw [h.1.2, eq_comm, Bool.not_eq_false'] at hdefault
  exact hdefault

/-- Without a difference there is nothing to do on the table. -/
theorem versionStatements_self (hmarkers : (e.fields.map (·.marker)).Nodup)
    (hnames : (e.fields.map (·.name)).Nodup)
    (hreads : ∀ f ∈ e.upgradableFields,
      d.defaults.isMatch f.defaultLiteral f.defaultValue (d.columnRule f.columnType) = true) :
    e.versionStatements e d = .ok [] := by
  have hsteps : e.upgradableFields.mapM (e.fieldSteps e d) =
      .ok (e.upgradableFields.map fun _ => {}) := by
    rw [mapM_eq_ok_iff, List.forall₂_map_right_iff, List.forall₂_same]
    intro f hf
    rw [fieldSteps_self hmarkers hnames hf, convergeColumn_asReported (hreads f hf)]
    rfl
  have habandoned : e.abandonedFields e = [] := by
    refine abandonedFields_eq_nil_iff.2 fun before hbefore => ?_
    rw [(upgradableField?_eq_some_iff hmarkers).2 ⟨hbefore, rfl⟩, Option.isSome_some]
  unfold versionStatements
  rw [hsteps, habandoned, Text.sameName_refl]
  simp [bind, Except.bind, pure, Except.pure]

end Entity

/-- An entity needs no upgrade from its own description exactly if the defaults of the fields that
an upgrade may change read back as they were rendered. -/
theorem Registry.versionUpgrade_source_eq_nil_iff {r : Registry} {e : Entity} (hr : r.IsReachable)
    (he : e ∈ r.entities) (hnames : (e.fields.map (·.name)).Nodup) :
    r.versionUpgrade e.source e.name = .ok ⟨e.name, []⟩ ↔
      ∀ f ∈ e.upgradableFields, f.defaultValue.isSome = true →
        r.dialect.defaults.isMatch f.defaultLiteral f.defaultValue
          (r.dialect.columnRule f.columnType) = true := by
  have hget := hr.get_of_mem he
  have hsource := hr.ofSpec_source he
  have hmarkers := hr.markers_nodup he
  constructor
  · intro h f hf _
    obtain ⟨statements, hs, ⟨hempty, -⟩ | ⟨hfull, create, -, hscript⟩⟩ :=
      versionUpgrade_eq_nil_or hget hsource h
    · obtain ⟨before, hbefore, -, g, hg, hany⟩ :=
        ((Entity.versionStatements_eq_nil_iff hs).1 hempty).columns f hf
      cases ((Entity.upgradableField?_eq_some_iff hmarkers).2 ⟨hf, rfl⟩).symm.trans hbefore
      cases (Entity.tableField_of_mem hnames (Entity.mem_upgradableFields.1 hf).1).symm.trans hg
      exact (Entity.isAny_difference_asReported hf).1 hany
    · simp [hfull] at hscript
  · intro hreads
    obtain ⟨spec, -, hof⟩ := hr.exists_finished he
    have hstatements := Entity.versionStatements_self hmarkers hnames fun f hf =>
      hof.isMatch (Entity.mem_tableFields.1 (Entity.mem_upgradableFields.1 hf).1).1 (hreads f hf)
    exact bind_eq_ok_iff.2 ⟨e, hget, bind_eq_ok_iff.2 ⟨e, hsource, bind_eq_ok_iff.2
      ⟨[], hstatements, rfl⟩⟩⟩

/-- Posts need no upgrade in MySQL while their description stays as it is: the state that they have
at first reads back. -/
theorem posts_unchanged :
    (blogRegistry .mysql).IsReachable ∧
    ∃ e ∈ (blogRegistry .mysql).entities, e.name = "Post" ∧ (e.fields.map (·.name)).Nodup ∧
      (∃ f ∈ e.upgradableFields, f.defaultValue = some "draft") ∧
      (∀ f ∈ e.upgradableFields, f.defaultValue.isSome = true →
        (blogRegistry .mysql).dialect.defaults.isMatch f.defaultLiteral f.defaultValue
          ((blogRegistry .mysql).dialect.columnRule f.columnType) = true) ∧
      (blogRegistry .mysql).versionUpgrade e.source e.name = .ok ⟨e.name, []⟩ := by
  have hr := isReachable_blogRegistry .mysql
  obtain ⟨e, he, hpost⟩ : ∃ e, (blogRegistry .mysql).get "Post" = .ok e ∧
      (e.name == "Post" && e.upgradableFields.any (·.defaultValue == some "draft")) = true :=
    exists_ok_of_any (by decide +kernel)
  rw [Bool.and_eq_true, beq_iff_eq, List.any_eq_true] at hpost
  obtain ⟨hname, f, hf, hdraft⟩ := hpost
  have hmem := Registry.mem_of_get he
  have hnames := (isComparable_blogRegistry.distinct e hmem).fields
  have hreads := fun g hg => isComparable_blogRegistry.defaults e hmem g
    (Entity.mem_upgradableFields.1 hg).1
  exact ⟨hr, e, hmem, hname, hnames, ⟨f, hf, eq_of_beq hdraft⟩, hreads,
    (Registry.versionUpgrade_source_eq_nil_iff hr hmem hnames).2 hreads⟩

end SqlDialects
