import Mathlib
import SqlDialects.Entity.Tables
import SqlDialects.Proofs.Text

/-!
# Descriptions, entities and registries that come about

A description is finished, or read, and its types may be settled afterwards. A registry starts empty
and takes such descriptions. This module says what holds of every description and registry that
comes about this way, how an entity finds its fields, and what its table is created with.

Results:
1. `EntitySpec.IsFinished.markers_nodup`: markers tell the fields of a description apart.
2. `EntitySpec.IsFinished.hasConstrainable`: constraints are over fields of the table.
3. `Entity.tableField_eq_ok_iff`, `Entity.fieldOfMarker?_eq_some_iff`: what looking up a field
   gives.
4. `Entity.createTable_eq_ok`: what creates a table.
5. `Registry.register_eq_ok`: what a registration does.
6. `Registry.IsReachable.exists_finished`: registered entities come from finished descriptions.
-/

namespace SqlDialects

/-! ## Runs that succeed -/

section Runs

variable {ε α β : Type}

theorem bind_eq_ok_iff {x : Except ε α} {f : α → Except ε β} {b : β} :
    x >>= f = .ok b ↔ ∃ a, x = .ok a ∧ f a = .ok b := by
  cases x with
  | error e => simp [bind, Except.bind]
  | ok a => simp [bind, Except.bind]

theorem pure_eq_ok_iff {a b : α} : (pure a : Except ε α) = .ok b ↔ a = b := by
  simp [pure, Except.pure]

theorem mapM_eq_ok_iff {f : α → Except ε β} {as : List α} {bs : List β} :
    as.mapM f = .ok bs ↔ List.Forall₂ (fun a b => f a = .ok b) as bs := by
  induction as generalizing bs with
  | nil => rw [List.mapM_nil, pure_eq_ok_iff, List.forall₂_nil_left_iff, eq_comm]
  | cons a as ih =>
    simp only [List.mapM_cons, bind_eq_ok_iff, pure_eq_ok_iff, ih, List.forall₂_cons_left_iff]
    constructor
    · rintro ⟨b, hb, rest, hrest, rfl⟩
      exact ⟨b, rest, hb, hrest, rfl⟩
    · rintro ⟨b, rest, hb, hrest, rfl⟩
      exact ⟨b, hb, rest, hrest, rfl⟩

/-- A run over a list that succeeds is a map by what each entry gives. -/
theorem mapM_eq_ok [Inhabited β] {f : α → Except ε β} {as : List α} {bs : List β}
    (h : as.mapM f = .ok bs) :
    (∀ a ∈ as, f a = .ok ((f a).toOption.getD default)) ∧
      bs = as.map fun a => (f a).toOption.getD default := by
  induction mapM_eq_ok_iff.1 h with
  | nil => simp
  | @cons a b as bs hab _ ih =>
    obtain ⟨hall, rfl⟩ := ih (mapM_eq_ok_iff.2 ‹_›)
    simp only [List.forall_mem_cons, List.map_cons]
    refine ⟨⟨?_, hall⟩, ?_⟩
    · simp [hab, Except.toOption]
    · simp [hab, Except.toOption]

theorem forM_eq_ok_iff {f : α → Except ε Unit} {as : List α} :
    as.forM f = .ok () ↔ ∀ a ∈ as, f a = .ok () := by
  induction as with
  | nil => exact iff_of_true rfl fun _ h => absurd h List.not_mem_nil
  | cons a as ih =>
    rw [List.forM, bind_eq_ok_iff, List.forall_mem_cons]
    exact ⟨fun ⟨_, ha, has⟩ => ⟨ha, ih.1 has⟩, fun ⟨ha, has⟩ => ⟨(), ha, ih.2 has⟩⟩

theorem find?_of_forall₂ {R : α → β → Prop} {p : α → Bool} {q : β → Bool} {as : List α}
    {bs : List β} {a : α} (h : List.Forall₂ R as bs) (hpq : ∀ a b, R a b → p a = q b)
    (ha : as.find? p = some a) : ∃ b, bs.find? q = some b ∧ R a b := by
  induction h with
  | nil => cases ha
  | @cons x y as bs hxy hrest ih =>
    by_cases hx : p x
    · rw [List.find?_cons_of_pos hx] at ha
      cases ha
      exact ⟨y, List.find?_cons_of_pos (hpq a y hxy ▸ hx), hxy⟩
    · rw [List.find?_cons_of_neg hx] at ha
      obtain ⟨b, hb, hab⟩ := ih ha
      exact ⟨b, by rw [List.find?_cons_of_neg (hpq x y hxy ▸ hx), hb], hab⟩

theorem map_eq_of_forall₂ {R : α → β → Prop} {f : α → ε} {g : β → ε} {as : List α} {bs : List β}
    (h : List.Forall₂ R as bs) (hfg : ∀ a b, R a b → f a = g b) : as.map f = bs.map g := by
  induction h with
  | nil => rfl
  | cons hab _ ih => rw [List.map_cons, List.map_cons, hfg _ _ hab, ih]

theorem exists_mem_of_forall₂ {R : α → β → Prop} {as : List α} {bs : List β}
    (h : List.Forall₂ R as bs) {a : α} (ha : a ∈ as) : ∃ b ∈ bs, R a b := by
  induction h with
  | nil => cases ha
  | cons hab _ ih =>
    rcases List.mem_cons.1 ha with rfl | ha
    · exact ⟨_, List.mem_cons_self, hab⟩
    · obtain ⟨b, hb, hr⟩ := ih ha
      exact ⟨b, List.mem_cons_of_mem _ hb, hr⟩

theorem exists_forall₂ {R : α → β → Prop} {as : List α} (h : ∀ a ∈ as, ∃ b, R a b) :
    ∃ bs, List.Forall₂ R as bs := by
  induction as with
  | nil => exact ⟨[], .nil⟩
  | cons a rest ih =>
    obtain ⟨⟨b, hb⟩, hrest⟩ := List.forall_mem_cons.1 h
    obtain ⟨bs, hbs⟩ := ih hrest
    exact ⟨b :: bs, .cons hb hbs⟩

/-- Entries that give nothing may be left out. -/
theorem flatMap_filter_of_nil {q : α → Bool} {l : List α} {k : α → List β}
    (h : ∀ a ∈ l, q a = false → k a = []) : (l.filter q).flatMap k = l.flatMap k := by
  induction l with
  | nil => rfl
  | cons a rest ih =>
    obtain ⟨ha, hrest⟩ := List.forall_mem_cons.1 h
    cases hq : q a with
    | true => rw [List.filter_cons_of_pos hq, List.flatMap_cons, List.flatMap_cons, ih hrest]
    | false =>
      rw [List.filter_cons_of_neg (Bool.eq_false_iff.1 hq), List.flatMap_cons, ha hq, ih hrest]
      rfl

theorem exists_mapM_eq_ok {f : α → Except ε β} {as : List α} (h : ∀ a ∈ as, ∃ b, f a = .ok b) :
    ∃ bs, as.mapM f = .ok bs := by
  induction as with
  | nil => exact ⟨[], rfl⟩
  | cons a rest ih =>
    obtain ⟨⟨b, hb⟩, hrest⟩ := List.forall_mem_cons.1 h
    obtain ⟨bs, hbs⟩ := ih hrest
    refine ⟨b :: bs, ?_⟩
    rw [List.mapM_cons]
    exact bind_eq_ok_iff.2 ⟨b, hb, bind_eq_ok_iff.2 ⟨bs, hbs, rfl⟩⟩

/-- A run that builds something of each entry and its result gives what a map builds. -/
theorem exists_results {γ : Type} [Inhabited β] {f : α → Except ε β} {build : α → β → γ}
    {as : List α} {cs : List γ} (h : (as.mapM fun a => do return build a (← f a)) = .ok cs) :
    ∃ g : α → β, (∀ a ∈ as, f a = .ok (g a)) ∧ cs = as.map fun a => build a (g a) := by
  refine ⟨fun a => (f a).toOption.getD default, ?_⟩
  induction as generalizing cs with
  | nil =>
    cases h
    exact ⟨fun _ ha => absurd ha List.not_mem_nil, rfl⟩
  | cons a rest ih =>
    rw [List.mapM_cons] at h
    obtain ⟨c, hc, h⟩ := bind_eq_ok_iff.1 h
    obtain ⟨b, hb, hc⟩ := bind_eq_ok_iff.1 hc
    obtain ⟨rest', hrest, h⟩ := bind_eq_ok_iff.1 h
    cases hc
    cases h
    obtain ⟨hall, rfl⟩ := ih hrest
    have hresult : b = (f a).toOption.getD default := by rw [hb]; rfl
    exact ⟨List.forall_mem_cons.2 ⟨hb.trans (congrArg Except.ok hresult), hall⟩,
      congrArg (build a · :: _) hresult⟩

/-- What each result has, all results of a run have. -/
theorem forall_of_mapM {p : β → Prop} {f : α → Except ε β} {as : List α} {bs : List β}
    (hf : ∀ a ∈ as, ∀ b, f a = .ok b → p b) (h : as.mapM f = .ok bs) : ∀ b ∈ bs, p b := by
  induction as generalizing bs with
  | nil =>
    cases h
    exact fun _ hb => absurd hb List.not_mem_nil
  | cons a rest ih =>
    obtain ⟨ha, hrest⟩ := List.forall_mem_cons.1 hf
    rw [List.mapM_cons] at h
    obtain ⟨b, hb, h⟩ := bind_eq_ok_iff.1 h
    obtain ⟨bs, hbs, h⟩ := bind_eq_ok_iff.1 h
    cases h
    exact List.forall_mem_cons.2 ⟨ha b hb, ih hrest hbs⟩

/-- A run over entries has a result exactly if there is an entry. -/
theorem ne_nil_iff_of_mapM {f : α → Except ε β} {as : List α} {bs : List β}
    (h : as.mapM f = .ok bs) : bs ≠ [] ↔ as ≠ [] := by
  rw [← List.length_pos_iff, ← List.length_pos_iff, (mapM_eq_ok_iff.1 h).length_eq]

/-- Results of a run all have what their entries have. -/
theorem forall_mapM_iff {p : α → Prop} {q : β → Prop} {f : α → Except ε β} {as : List α}
    {bs : List β} (hf : ∀ a b, f a = .ok b → (q b ↔ p a)) (h : as.mapM f = .ok bs) :
    (∀ b ∈ bs, q b) ↔ ∀ a ∈ as, p a := by
  have hall := mapM_eq_ok_iff.1 h
  clear h
  induction hall with
  | nil => simp
  | cons hab _ ih =>
    rw [List.forall_mem_cons, List.forall_mem_cons, hf _ _ hab]
    exact and_congr_right fun _ => ih

/-- What is read off the results of a run is what is read off each. -/
theorem filterMap_of_mapM {γ : Type} {f : α → Except ε β} {g : α → γ} {read : β → Option γ}
    {as : List α} {bs : List β} (hf : ∀ a ∈ as, ∀ b, f a = .ok b → read b = some (g a))
    (h : as.mapM f = .ok bs) : bs.filterMap read = as.map g := by
  induction as generalizing bs with
  | nil =>
    cases h
    rfl
  | cons a rest ih =>
    obtain ⟨ha, hrest⟩ := List.forall_mem_cons.1 hf
    rw [List.mapM_cons] at h
    obtain ⟨b, hb, h⟩ := bind_eq_ok_iff.1 h
    obtain ⟨bs, hbs, h⟩ := bind_eq_ok_iff.1 h
    cases h
    rw [List.filterMap_cons_some (ha b hb), ih hrest hbs, List.map_cons]

/-- A run whose result passes a test succeeds, which can be found out by running it. -/
theorem exists_ok_of_any {x : Except ε α} {p : α → Bool}
    (h : x.toOption.any p = true) : ∃ a, x = .ok a ∧ p a = true := by
  cases x with
  | error _ => cases h
  | ok a => exact ⟨a, rfl, h⟩

/-- What each step of a run keeps holds after it. -/
theorem foldlM_invariant {σ : Type} {p : σ → Prop} {step : σ → α → Except ε σ} {as : List α}
    (hstep : ∀ a ∈ as, ∀ s t, p s → step s a = .ok t → p t) {s t : σ} (hs : p s)
    (h : as.foldlM step s = .ok t) : p t := by
  induction as generalizing s with
  | nil =>
    cases h
    exact hs
  | cons a rest ih =>
    obtain ⟨ha, hrest⟩ := List.forall_mem_cons.1 hstep
    rw [List.foldlM_cons] at h
    obtain ⟨u, hu, h⟩ := bind_eq_ok_iff.1 h
    exact ih hrest (ha s u hs hu) h

end Runs

/-! ## Finished descriptions -/

namespace EntitySpec

/-- The descriptions that there are: finished, read, or with the type of a field settled since. -/
inductive IsFinished : EntitySpec → Prop
  | build {draft e : EntitySpec} : draft.build = .ok e → IsFinished e
  | read {text : String} {e : EntitySpec} : EntitySpec.read text = .ok e → IsFinished e
  | resolveField {e settled : EntitySpec} {name : String} {type : ColumnType}
      {enumType : Option String} :
      IsFinished e → e.resolveField name type enumType = .ok settled → IsFinished settled

theorem isFinished_of_build {e : EntitySpec} (h : e.build = .ok e) : e.IsFinished := .build h

theorem markers_of_checkFields {e : EntitySpec} {earlier fields : List FieldSpec}
    (h : e.checkFields earlier fields = .ok ()) (hearlier : (earlier.map (·.marker)).Nodup) :
    ((earlier ++ fields).map (·.marker)).Nodup := by
  induction fields generalizing earlier with
  | nil => simpa using hearlier
  | cons f rest ih =>
    rw [checkFields, bind_eq_ok_iff] at h
    obtain ⟨⟨⟩, hf, hrest⟩ := h
    -- A field is checked against those before it, which `earlier` gathers.
    have hnew : f.marker ∉ earlier.map (·.marker) := by
      intro hm
      obtain ⟨g, hg, hgf⟩ := List.mem_map.1 hm
      have hany : (earlier.any fun g => g.marker == f.marker) = true :=
        List.any_eq_true.2 ⟨g, hg, by simp [hgf]⟩
      simp [checkField, hany, bind, Except.bind, throw, throwThe, MonadExceptOf.throw] at hf
    have := ih hrest (by
      rw [List.map_append, List.map_cons, List.map_nil, List.nodup_append]
      refine ⟨hearlier, List.nodup_singleton _, ?_⟩
      rintro a ha b hb rfl
      exact hnew (List.mem_singleton.1 hb ▸ ha))
    simpa using this

/-- A field that constraints may be over: the first of its name, and in the table. -/
def HasConstrainable (e : EntitySpec) (name : String) : Prop :=
  ∃ f, e.fields.find? (·.name == name) = some f ∧ f.isViewOnly = false

theorem hasConstrainable_of_checkConstrained {e : EntitySpec} {name : String}
    (h : e.checkConstrained name = .ok ()) : e.HasConstrainable name := by
  obtain ⟨f, hf, hv⟩ := bind_eq_ok_iff.1 h
  unfold field at hf
  split at hf
  · next g hg =>
    cases hf
    split at hv
    · cases hv
    · next hview => exact ⟨f, hg, by simpa using hview⟩
  · cases hf

/-- What finishing a description checks. -/
structure IsValid (e : EntitySpec) : Prop where
  constrained : ∀ name ∈ e.constrainedNames, e.HasConstrainable name
  markers : (e.fields.map (·.marker)).Nodup

theorem isValid_of_validate {e : EntitySpec} (h : e.validate = .ok ()) : e.IsValid := by
  rw [validate, bind_eq_ok_iff] at h
  obtain ⟨⟨⟩, hc, hf⟩ := h
  exact ⟨fun name hn => hasConstrainable_of_checkConstrained (forM_eq_ok_iff.1 hc name hn),
    by simpa using markers_of_checkFields hf List.nodup_nil⟩

/-- What settling a type leaves of a field. -/
structure SameButType (f g : FieldSpec) : Prop where
  name : g.name = f.name
  marker : g.marker = f.marker
  isViewOnly : g.isViewOnly = f.isViewOnly

theorem sameButType_of_resolveIn {name : String} {type : ColumnType} {enumType : Option String}
    {fields settled : List FieldSpec} (h : resolveIn name type enumType fields = .ok settled) :
    List.Forall₂ SameButType fields settled := by
  induction fields generalizing settled with
  | nil =>
    cases h
    exact .nil
  | cons f rest ih =>
    rw [resolveIn] at h
    split at h
    · obtain ⟨g, hg, hs⟩ := bind_eq_ok_iff.1 h
      cases hs
      unfold FieldSpec.resolve at hg
      split at hg
      · cases hg
      · cases hg
        exact .cons ⟨rfl, rfl, rfl⟩ (List.forall₂_same.2 fun _ _ => ⟨rfl, rfl, rfl⟩)
    · obtain ⟨tail, ht, hs⟩ := bind_eq_ok_iff.1 h
      cases hs
      exact .cons ⟨rfl, rfl, rfl⟩ (ih ht)

theorem isValid_of_resolveField {e settled : EntitySpec} {name : String} {type : ColumnType}
    {enumType : Option String} (he : e.IsValid)
    (h : e.resolveField name type enumType = .ok settled) : settled.IsValid := by
  obtain ⟨_, _, h⟩ := bind_eq_ok_iff.1 h
  obtain ⟨fields, hfields, h⟩ := bind_eq_ok_iff.1 h
  cases h
  have hsame := sameButType_of_resolveIn hfields
  constructor
  · intro n hn
    obtain ⟨f, hf, hv⟩ := he.constrained n hn
    obtain ⟨g, hg, hfg⟩ := find?_of_forall₂ (q := (·.name == n)) hsame
      (fun a b hab => by rw [hab.name]) hf
    exact ⟨g, hg, hfg.isViewOnly ▸ hv⟩
  · have := map_eq_of_forall₂ (f := (·.marker)) (g := (·.marker)) hsame
      fun _ _ hab => hab.marker.symm
    exact this ▸ he.markers

theorem IsFinished.isValid {e : EntitySpec} (h : e.IsFinished) : e.IsValid := by
  induction h with
  | build hb =>
    obtain ⟨⟨⟩, hv, he⟩ := bind_eq_ok_iff.1 hb
    cases he
    exact isValid_of_validate hv
  | @read text e hr =>
    unfold EntitySpec.read at hr
    split at hr
    · obtain ⟨⟨⟩, hv, he⟩ := bind_eq_ok_iff.1 hr
      cases he
      exact isValid_of_validate hv
    · cases hr
  | resolveField _ hs ih => exact isValid_of_resolveField ih hs

/-- Markers tell the fields of a description apart. -/
theorem IsFinished.markers_nodup {e : EntitySpec} (h : e.IsFinished) :
    (e.fields.map (·.marker)).Nodup := h.isValid.markers

/-- Constraints are over fields of the table. -/
theorem IsFinished.hasConstrainable {e : EntitySpec} (h : e.IsFinished) {name : String}
    (hn : name ∈ e.constrainedNames) : e.HasConstrainable name := h.isValid.constrained name hn

end EntitySpec

/-! ## Entities of descriptions -/

/-- A field in a dialect beside its description. -/
structure Field.IsOfSpec (d : Dialect) (spec : FieldSpec) (f : Field) : Prop where
  name : f.name = spec.name
  column : f.column = d.naming.name spec.column
  marker : f.marker = spec.marker
  viewSource : f.viewSource = spec.viewSource
  typeDecl : f.typeDecl = (d.columnRule f.columnType).declaration f.length f.precision f.scale
  defaultLiteral :
    f.defaultValue.mapM (d.columnRule f.columnType).defaultLiteral = .ok f.defaultLiteral

theorem Field.isOfSpec {d : Dialect} {spec : FieldSpec} {f : Field}
    (h : Field.ofSpec d spec = .ok f) : Field.IsOfSpec d spec f := by
  obtain ⟨literal, hl, h⟩ := bind_eq_ok_iff.1 h
  cases h
  exact ⟨rfl, rfl, rfl, rfl, rfl, hl⟩

/-- An entity in a dialect beside its description. -/
structure Entity.IsOfSpec (d : Dialect) (spec : EntitySpec) (e : Entity) : Prop where
  name : e.name = spec.name
  source : e.source = spec
  fields : List.Forall₂ (Field.IsOfSpec d) spec.fields e.fields

theorem Entity.isOfSpec {d : Dialect} {spec : EntitySpec} {e : Entity}
    (h : Entity.ofSpec d spec = .ok e) : Entity.IsOfSpec d spec e := by
  obtain ⟨fields, hf, h⟩ := bind_eq_ok_iff.1 h
  cases h
  exact ⟨rfl, rfl, (mapM_eq_ok_iff.1 hf).imp fun _ _ => Field.isOfSpec⟩

/-- The columns of an entity are written as names. -/
theorem Entity.written_of_ofSpec {d : Dialect} {spec : EntitySpec} {e : Entity}
    (h : Entity.ofSpec d spec = .ok e) :
    ∀ f ∈ e.fields, f.column.written = d.naming.written f.column.raw := by
  intro f hf
  obtain ⟨fspec, -, hfield⟩ := exists_mem_of_forall₂ (Entity.isOfSpec h).fields.flip hf
  rw [hfield.column]
  rfl

namespace Entity

/-- Markers tell the fields of an entity apart. -/
theorem IsOfSpec.markers_nodup {d : Dialect} {spec : EntitySpec} {e : Entity}
    (h : IsOfSpec d spec e) (hs : spec.IsFinished) : (e.fields.map (·.marker)).Nodup := by
  have := map_eq_of_forall₂ (f := (·.marker)) (g := (·.marker)) h.fields
    fun _ _ hf => hf.marker.symm
  exact this ▸ hs.markers_nodup

/-! ## Looking up fields -/

theorem mem_tableFields {e : Entity} {f : Field} :
    f ∈ e.tableFields ↔ f ∈ e.fields ∧ f.isViewOnly = false := by
  simp [tableFields]

theorem field_eq_ok {e : Entity} {name : String} {f : Field} (h : e.field name = .ok f) :
    f ∈ e.fields ∧ f.name = name := by
  unfold field at h
  split at h
  · next g hg =>
    cases h
    exact ⟨List.mem_reverse.1 (List.mem_of_find?_eq_some hg), by simpa using List.find?_some hg⟩
  · cases h

theorem tableField_eq_ok_iff {e : Entity} {name : String} {f : Field} :
    e.tableField name = .ok f ↔ e.field name = .ok f ∧ f.isViewOnly = false := by
  rw [tableField, bind_eq_ok_iff]
  constructor
  · rintro ⟨g, hg, h⟩
    split at h
    · cases h
    · next hv =>
      cases h
      exact ⟨hg, by simpa using hv⟩
  · rintro ⟨hf, hv⟩
    exact ⟨f, hf, by simp [hv]⟩

theorem mem_tableFields_of_tableField {e : Entity} {name : String} {f : Field}
    (h : e.tableField name = .ok f) : f ∈ e.tableFields ∧ f.name = name := by
  obtain ⟨hf, hv⟩ := tableField_eq_ok_iff.1 h
  exact ⟨mem_tableFields.2 ⟨(field_eq_ok hf).1, hv⟩, (field_eq_ok hf).2⟩

theorem exists_field {e : Entity} {f : Field} (hf : f ∈ e.fields) :
    ∃ g, e.field f.name = .ok g := by
  unfold field
  cases hx : e.fields.reverse.find? (·.name == f.name) with
  | none => simpa using List.find?_eq_none.1 hx f (List.mem_reverse.2 hf)
  | some x => exact ⟨x, rfl⟩

/-- With one field for each name, looking up a name finds its field. -/
theorem field_of_mem {e : Entity} (h : (e.fields.map (·.name)).Nodup) {f : Field}
    (hf : f ∈ e.fields) : e.field f.name = .ok f := by
  obtain ⟨g, hg⟩ := exists_field hf
  obtain ⟨hmem, hname⟩ := field_eq_ok hg
  rw [hg, List.inj_on_of_nodup_map h hmem hf hname]

theorem tableField_of_mem {e : Entity} (h : (e.fields.map (·.name)).Nodup) {f : Field}
    (hf : f ∈ e.tableFields) : e.tableField f.name = .ok f :=
  tableField_eq_ok_iff.2 ⟨field_of_mem h (mem_tableFields.1 hf).1, (mem_tableFields.1 hf).2⟩

/-- With one field for each marker, looking up a marker finds its field. -/
theorem fieldOfMarker?_eq_some_iff {e : Entity} (h : (e.fields.map (·.marker)).Nodup)
    {marker : String} {f : Field} :
    e.fieldOfMarker? marker = some f ↔ f ∈ e.fields ∧ f.marker = marker := by
  constructor
  · intro hf
    exact ⟨List.mem_of_find?_eq_some hf, by simpa using List.find?_some hf⟩
  · rintro ⟨hf, rfl⟩
    cases hg : e.fieldOfMarker? f.marker with
    | none => simpa using List.find?_eq_none.1 hg f hf
    | some g =>
      have hgm : g.marker = f.marker := by simpa using List.find?_some hg
      rw [List.inj_on_of_nodup_map h (List.mem_of_find?_eq_some hg) hf hgm]

/-! ## Creating the table -/

/-- A dialect wants unique constraints and indexes in the statement that creates the table, or none
of them. -/
theorem inlineItems_eq_ok {e : Entity} {d : Dialect} {items : List TableItem}
    (h : e.inlineItems d = .ok items) :
    ∃ uniques indexes,
      (if d.inlineConstraints then e.source.uniqueConstraints else []).mapM (e.uniqueItem d) =
        .ok uniques ∧
      (if d.inlineConstraints then e.source.indexes else []).mapM (e.indexItem d) = .ok indexes ∧
      items = uniques ++ indexes := by
  unfold inlineItems at h
  split at h
  · next hd =>
    obtain ⟨uniques, huniques, h⟩ := bind_eq_ok_iff.1 h
    obtain ⟨indexes, hindexes, h⟩ := bind_eq_ok_iff.1 h
    cases h
    rw [if_pos hd, if_pos hd]
    exact ⟨uniques, indexes, huniques, hindexes, rfl⟩
  · next hd =>
    cases h
    rw [if_neg hd, if_neg hd]
    exact ⟨[], [], rfl, rfl, rfl⟩

/-- A table is created first, and then what feeds its key. -/
theorem createTable_eq_ok {e : Entity} {d : Dialect} {statements : List Statement}
    (h : e.createTable d = .ok statements) :
    ∃ inline support, e.inlineItems d = .ok inline ∧
      statements = .createTable e.table
        (e.tableFields.map (fun f => .column (e.definition f)) ++ inline) :: support ∧
      ∀ s ∈ support,
        s = .createSequence e.table ∨ ∃ column, s = .createKeyTrigger e.table column := by
  obtain ⟨inline, hinline, h⟩ := bind_eq_ok_iff.1 h
  refine ⟨inline, _, hinline, (Except.ok.inj h).symm, fun s hs => ?_⟩
  split at hs
  · unfold DdlStyle.createKeySupport at hs
    split at hs
    · rcases List.mem_cons.1 hs with rfl | hs
      · exact .inl rfl
      · exact .inr ⟨_, List.mem_singleton.1 hs⟩
    · cases hs
  · cases hs

end Entity

/-! ## Registries -/

namespace Registry

section Register

variable {r r' : Registry} {spec : EntitySpec} {e : Entity}

theorem isSome_get?_iff {name : String} :
    (r.get? name).isSome = true ↔ name ∈ r.entities.map (·.name) := by
  rw [get?, List.find?_isSome, List.mem_map]
  simp only [beq_iff_eq]

theorem nodup_names_append (h : (r.entities.map (·.name)).Nodup) (hnew : r.get? e.name = none) :
    ((r.entities ++ [e]).map (·.name)).Nodup := by
  have hname : e.name ∉ r.entities.map (·.name) := by
    rw [← isSome_get?_iff, hnew]
    exact Bool.false_ne_true
  rw [List.map_append, List.map_singleton]
  exact List.nodup_append.2 ⟨h, List.nodup_singleton _, fun a ha b hb hab =>
    hname (List.mem_singleton.1 hb ▸ hab ▸ ha)⟩

theorem register_stored (h : r.get? spec.name = some e) : r.register spec = .ok (e, r) := by
  rw [register, h]

theorem register_new (h : r.get? spec.name = none) :
    r.register spec = (Entity.ofSpec r.dialect spec).map fun e =>
      (e, { r with entities := r.entities ++ [e] }) := by
  rw [register, h]
  cases Entity.ofSpec r.dialect spec <;> rfl

/-- A registration that succeeds gives what the name has already, or adds what the dialect makes of
the description. -/
theorem register_eq_ok (h : r.register spec = .ok (e, r')) :
    r.get? spec.name = some e ∧ r' = r ∨
      r.get? spec.name = none ∧ Entity.ofSpec r.dialect spec = .ok e ∧
        r' = { r with entities := r.entities ++ [e] } := by
  cases hfound : r.get? spec.name with
  | some found =>
    rw [register_stored hfound] at h
    cases h
    exact .inl ⟨rfl, rfl⟩
  | none =>
    rw [register_new hfound] at h
    cases hof : Entity.ofSpec r.dialect spec with
    | error cause =>
      rw [hof] at h
      cases h
    | ok entity =>
      rw [hof] at h
      cases h
      exact .inr ⟨rfl, rfl, rfl⟩

end Register

/-- The registries that there are: empty, or with one more finished description. -/
inductive IsReachable : Registry → Prop
  | empty (d : Dialect) : IsReachable ⟨d, []⟩
  | register {r r' : Registry} {spec : EntitySpec} {e : Entity} :
      IsReachable r → spec.IsFinished → r.register spec = .ok (e, r') → IsReachable r'

/-- Registered entities come from finished descriptions. -/
theorem IsReachable.exists_finished {r : Registry} (h : r.IsReachable) {e : Entity}
    (he : e ∈ r.entities) : ∃ spec, spec.IsFinished ∧ e.IsOfSpec r.dialect spec := by
  induction h with
  | empty d => cases he
  | @register r r' spec added _ hs hr ih =>
    rcases register_eq_ok hr with ⟨-, rfl⟩ | ⟨-, hof, rfl⟩
    · exact ih he
    · rcases List.mem_append.1 he with he | he
      · exact ih he
      · rw [List.mem_singleton.1 he]
        exact ⟨spec, hs, Entity.isOfSpec hof⟩

theorem mem_of_get {r : Registry} {name : String} {e : Entity} (h : r.get name = .ok e) :
    e ∈ r.entities := by
  unfold get get? at h
  split at h
  · next found hf =>
    cases h
    exact List.mem_of_find?_eq_some hf
  · cases h

theorem IsReachable.markers_nodup {r : Registry} (h : r.IsReachable) {e : Entity}
    (he : e ∈ r.entities) : (e.fields.map (·.marker)).Nodup := by
  obtain ⟨spec, hs, hof⟩ := h.exists_finished he
  exact hof.markers_nodup hs

/-- A registry of some descriptions, without those that a dialect has no entity for. -/
def ofSpecs (d : Dialect) (specs : List EntitySpec) : Registry :=
  specs.foldl (fun r spec => match r.register spec with
    | .ok (_, r') => r'
    | .error _ => r) ⟨d, []⟩

theorem isReachable_ofSpecs {d : Dialect} {specs : List EntitySpec}
    (h : ∀ spec ∈ specs, spec.IsFinished) : (ofSpecs d specs).IsReachable := by
  refine List.foldlRecOn specs _ (.empty d) fun r hr spec hspec => ?_
  split
  · next _ r' hregister => exact .register hr (h spec hspec) hregister
  · exact hr

end Registry

end SqlDialects
