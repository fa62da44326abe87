import SqlDialects.Proofs.Entities

/-!
# What a description is accepted on

A description comes about by calls, field by field, and is then finished, or it is read from JSON.
Both ways end in one check. This module says what the check leaves unseen, which descriptions the
calls can make, and when the other ways come to the same.

Results:
1. `EntitySpec.validate_mapFields`: the check sees names, markers, types, versions and references of
   fields, and nothing else.
2. `FieldSpec.isBuilt_iff`, `EntitySpec.isDrafted_iff`: what calls can make.
3. `EntitySpec.isWellFormed_iff_isBuilt`: an accepted description has no blank default and has the
   view that it needs exactly if calls could have made it.
-/

namespace SqlDialects

/-! ## What the check sees -/

/-- A field beside another one that the check cannot tell from it. -/
structure FieldSpec.SameToCheck (f g : FieldSpec) : Prop where
  name : g.name = f.name
  marker : g.marker = f.marker
  type : g.type = f.type
  version : g.version = f.version
  viewSource : g.viewSource = f.viewSource
  foreignKey : g.foreignKey = f.foreignKey

namespace EntitySpec

/-- A description with its fields changed one by one. -/
def mapFields (change : FieldSpec → FieldSpec) (e : EntitySpec) : EntitySpec :=
  { e with fields := e.fields.map change }

section Check

variable {change : FieldSpec → FieldSpec} (h : ∀ f, FieldSpec.SameToCheck f (change f))

include h

theorem field_mapFields (e : EntitySpec) (name : String) :
    (e.mapFields change).field name = (e.field name).map change := by
  have hname : (fun f : FieldSpec => f.name == name) ∘ change = (·.name == name) := by
    funext f
    rw [Function.comp_apply, (h f).name]
  rw [field, field, mapFields, List.find?_map, hname]
  cases e.fields.find? (·.name == name) with
  | none => rfl
  | some f => rfl

theorem checkConstrained_mapFields (e : EntitySpec) (name : String) :
    (e.mapFields change).checkConstrained name = e.checkConstrained name := by
  rw [checkConstrained, checkConstrained, field_mapFields h]
  cases e.field name with
  | error cause => rfl
  | ok f =>
    show (if (change f).isViewOnly then _ else _) = if f.isViewOnly then _ else _
    rw [FieldSpec.isViewOnly, (h f).viewSource]
    rfl

theorem checkSource_mapFields (e : EntitySpec) (s : ViewSource) :
    (e.mapFields change).checkSource s = e.checkSource s := by
  rw [checkSource, checkSource, field_mapFields h]
  cases e.field s.keyField with
  | error cause => rfl
  | ok f =>
    show (if (change f).foreignKey.isSome then _ else _) = if f.foreignKey.isSome then _ else _
    rw [(h f).foreignKey]
    rfl

theorem checkField_mapFields (e : EntitySpec) (earlier : List FieldSpec) (f : FieldSpec) :
    (e.mapFields change).checkField (earlier.map change) (change f) = e.checkField earlier f := by
  have hmarkers : (earlier.map change).any (fun g => g.marker == (change f).marker) =
      earlier.any fun g => g.marker == f.marker := by
    rw [List.any_map]
    refine congrArg earlier.any (funext fun g => ?_)
    rw [Function.comp_apply, (h g).marker, (h f).marker]
  have hversions : (earlier.map change).any (·.version) = earlier.any (·.version) := by
    rw [List.any_map]
    exact congrArg earlier.any (funext fun g => (h g).version)
  have hgood : isGoodVersion (change f) (earlier.map change) = isGoodVersion f earlier := by
    rw [isGoodVersion, isGoodVersion, hversions, (h f).type, FieldSpec.isViewOnly, (h f).viewSource]
    rfl
  rw [checkField, checkField, hmarkers, hgood, (h f).version, (h f).viewSource, (h f).marker,
    (h f).name]
  simp only [checkSource_mapFields h]
  rfl

theorem checkFields_mapFields (e : EntitySpec) (earlier fields : List FieldSpec) :
    (e.mapFields change).checkFields (earlier.map change) (fields.map change) =
      e.checkFields earlier fields := by
  induction fields generalizing earlier with
  | nil => rfl
  | cons f rest ih =>
    have hrest := ih (earlier ++ [f])
    rw [List.map_append, List.map_singleton] at hrest
    rw [List.map_cons, checkFields, checkFields, checkField_mapFields h, hrest]

/-- Two descriptions that the check cannot tell apart are accepted alike, or refused alike. -/
theorem validate_mapFields (e : EntitySpec) : (e.mapFields change).validate = e.validate := by
  have hconstrained : (e.mapFields change).checkConstrained = e.checkConstrained :=
    funext (checkConstrained_mapFields h e)
  rw [validate, validate, hconstrained]
  exact congrArg _ (funext fun _ => checkFields_mapFields h e [] e.fields)

end Check

/-- The descriptions that are accepted: finished, or read. -/
inductive IsAccepted : EntitySpec → Prop
  | build {draft e : EntitySpec} : draft.build = .ok e → IsAccepted e
  | read {text : String} {e : EntitySpec} : EntitySpec.read text = .ok e → IsAccepted e

theorem IsAccepted.validate_eq_ok {e : EntitySpec} (h : e.IsAccepted) : e.validate = .ok () := by
  cases h with
  | @build draft _ hb =>
    obtain ⟨⟨⟩, hv, he⟩ := bind_eq_ok_iff.1 hb
    cases he
    exact hv
  | read hr =>
    unfold EntitySpec.read at hr
    split at hr
    · obtain ⟨⟨⟩, hv, he⟩ := bind_eq_ok_iff.1 hr
      cases he
      exact hv
    · cases hr

end EntitySpec

/-! ## What calls make -/

/-- The fields that calls make, one after the other. -/
inductive FieldSpec.IsBuilt : FieldSpec → Prop
  | named (name : String) (type : ColumnType) : IsBuilt (.named name type)
  | column {f : FieldSpec} (column : String) : IsBuilt f → IsBuilt { f with column }
  | enumType {f : FieldSpec} (enumType : String) :
      IsBuilt f → IsBuilt { f with enumType := some enumType }
  | length {f : FieldSpec} (length : Nat) : IsBuilt f → IsBuilt { f with length }
  | precision {f : FieldSpec} (precision scale : Nat) :
      IsBuilt f → IsBuilt { f with precision, scale }
  | nullable {f : FieldSpec} : IsBuilt f → IsBuilt { f with nullable := true }
  | withDefault {f : FieldSpec} (raw : String) : IsBuilt f → IsBuilt (f.withDefault raw)
  | asPrimaryKey {f : FieldSpec} : IsBuilt f → IsBuilt f.asPrimaryKey
  | foreignKey {f : FieldSpec} (reference : FieldReference) :
      IsBuilt f → IsBuilt { f with foreignKey := some reference }
  | viewSource {f : FieldSpec} (source : ViewSource) :
      IsBuilt f → IsBuilt { f with viewSource := some source }
  | version {f : FieldSpec} : IsBuilt f → IsBuilt { f with version := true }
  | marker {f : FieldSpec} (marker : String) :
      IsBuilt f → IsBuilt { f with givenMarker := some marker }

/-- The descriptions that calls put together, before they are finished. -/
inductive EntitySpec.IsDrafted : EntitySpec → Prop
  | named (name : String) : IsDrafted (.named name)
  | table {e : EntitySpec} (table : String) : IsDrafted e → IsDrafted { e with table }
  | view {e : EntitySpec} (view : String) : IsDrafted e → IsDrafted { e with view := some view }
  | schema {e : EntitySpec} (schema : String) :
      IsDrafted e → IsDrafted { e with schema := some schema }
  | field {e : EntitySpec} {f : FieldSpec} :
      IsDrafted e → f.IsBuilt → IsDrafted { e with fields := e.fields ++ [f] }
  | index {e : EntitySpec} (i : IndexSpec) :
      IsDrafted e → IsDrafted { e with indexes := e.indexes ++ [i] }
  | unique {e : EntitySpec} (u : UniqueSpec) :
      IsDrafted e → IsDrafted { e with uniqueConstraints := e.uniqueConstraints ++ [u] }
  | check {e : EntitySpec} (c : CheckSpec) :
      IsDrafted e → IsDrafted { e with checkConstraints := e.checkConstraints ++ [c] }

namespace FieldSpec

/-- The field with its type not settled yet. -/
def unsettled (f : FieldSpec) : FieldSpec := { f with resolved := false }

theorem sameToCheck_unsettled (f : FieldSpec) : SameToCheck f f.unsettled :=
  ⟨rfl, rfl, rfl, rfl, rfl, rfl⟩

/-- A field without a default, or with one that says something. -/
def HasGivenDefault (f : FieldSpec) : Prop :=
  ∀ raw, f.defaultValue = some raw → Text.isAllBlank raw = false

theorem hasGivenDefault_withDefault (f : FieldSpec) (raw : String) :
    (f.withDefault raw).HasGivenDefault := by
  intro given hgiven
  rw [withDefault] at hgiven
  split at hgiven
  · cases hgiven
  · next hblank =>
    cases hgiven
    exact Bool.eq_false_iff.2 hblank

/-- What calls can make of a field: anything whose default says something. -/
theorem isBuilt_iff {f : FieldSpec} : f.IsBuilt ↔ f.HasGivenDefault ∧ f.resolved = false := by
  constructor
  · intro h
    induction h with
    | named name type =>
      refine ⟨?_, rfl⟩
      intro raw hraw
      cases hraw
    | withDefault raw _ ih => exact ⟨hasGivenDefault_withDefault _ raw, ih.2⟩
    | column | enumType | length | precision | nullable | asPrimaryKey | foreignKey | viewSource
    | version | marker => assumption
  · rintro ⟨hdefault, hresolved⟩
    obtain ⟨name, column, type, enumType, length, precision, scale, nullable, defaultValue,
      primaryKey, foreignKey, viewSource, version, givenMarker, resolved⟩ := f
    cases hresolved
    have hsized : IsBuilt { name, column, type, length, precision, scale } :=
      .precision precision scale (.length length (.column column (.named name type)))
    have henum : IsBuilt { name, column, type, enumType, length, precision, scale } := by
      cases enumType with
      | none => exact hsized
      | some enumType => exact .enumType enumType hsized
    have hgiven : IsBuilt
        { name, column, type, enumType, length, precision, scale, defaultValue } := by
      cases defaultValue with
      | none => exact henum
      | some raw =>
        have h := IsBuilt.withDefault raw henum
        rwa [withDefault, hdefault raw rfl] at h
    -- A key is never NULL when it is made one, but may be said to be afterwards.
    have hkey : IsBuilt
        { name, column, type, enumType, length, precision, scale, defaultValue, primaryKey } := by
      cases primaryKey with
      | false => exact hgiven
      | true => exact .asPrimaryKey hgiven
    have hnullable : IsBuilt
        { name, column, type, enumType, length, precision, scale, nullable, defaultValue,
          primaryKey } := by
      cases nullable with
      | false => exact hkey
      | true => exact .nullable hkey
    have hreference : IsBuilt
        { name, column, type, enumType, length, precision, scale, nullable, defaultValue,
          primaryKey, foreignKey } := by
      cases foreignKey with
      | none => exact hnullable
      | some reference => exact .foreignKey reference hnullable
    have hsource : IsBuilt
        { name, column, type, enumType, length, precision, scale, nullable, defaultValue,
          primaryKey, foreignKey, viewSource } := by
      cases viewSource with
      | none => exact hreference
      | some source => exact .viewSource source hreference
    have hversion : IsBuilt
        { name, column, type, enumType, length, precision, scale, nullable, defaultValue,
          primaryKey, foreignKey, viewSource, version } := by
      cases version with
      | false => exact hsource
      | true => exact .version hsource
    cases givenMarker with
    | none => exact hversion
    | some marker => exact .marker marker hversion

end FieldSpec

namespace EntitySpec

/-- Entries that may be added one by one may be added all. -/
theorem IsDrafted.extend {α : Type} (put : List α → EntitySpec) {items : List α}
    (hadd : ∀ before, ∀ a ∈ items, (put before).IsDrafted → (put (before ++ [a])).IsDrafted)
    (h : (put []).IsDrafted) : (put items).IsDrafted := by
  induction items using List.reverseRecOn with
  | nil => exact h
  | append_singleton before a ih =>
    refine hadd before a (List.mem_append_right _ List.mem_cons_self) (ih ?_)
    intro earlier b hb
    exact hadd earlier b (List.mem_append_left _ hb)

/-- What calls can put together: any fields that calls make. -/
theorem isDrafted_iff {e : EntitySpec} : e.IsDrafted ↔ ∀ f ∈ e.fields, f.IsBuilt := by
  constructor
  · intro h
    induction h with
    | named name => exact List.forall_mem_nil _
    | field _ hf ih =>
      intro g hg
      rcases List.mem_append.1 hg with hg | hg
      · exact ih g hg
      · rw [List.mem_singleton.1 hg]
        exact hf
    | table | view | schema | index | unique | check => assumption
  · intro hbuilt
    obtain ⟨name, table, view, schema, fields, indexes, uniqueConstraints, checkConstraints⟩ := e
    have htable : IsDrafted { name, table } := .table table (.named name)
    have hview : IsDrafted { name, table, view } := by
      cases view with
      | none => exact htable
      | some view => exact .view view htable
    have hschema : IsDrafted { name, table, view, schema } := by
      cases schema with
      | none => exact hview
      | some schema => exact .schema schema hview
    have hfields : IsDrafted { name, table, view, schema, fields } :=
      .extend (fun fields => { name, table, view, schema, fields })
        (fun _ f hf h => .field h (hbuilt f hf)) hschema
    have hindexes : IsDrafted { name, table, view, schema, fields, indexes } :=
      .extend (fun indexes => { name, table, view, schema, fields, indexes })
        (fun _ i _ h => .index i h) hfields
    have huniques : IsDrafted
        { name, table, view, schema, fields, indexes, uniqueConstraints } :=
      .extend
        (fun uniqueConstraints =>
          { name, table, view, schema, fields, indexes, uniqueConstraints })
        (fun _ u _ h => .unique u h) hindexes
    exact .extend
      (fun checkConstraints =>
        { name, table, view, schema, fields, indexes, uniqueConstraints, checkConstraints })
      (fun _ c _ h => .check c h) huniques

/-- The descriptions that calls make and finish. -/
def IsBuilt (e : EntitySpec) : Prop := ∃ draft, IsDrafted draft ∧ draft.build = .ok e

/-- What is documented of every description: defaults say something, and there is a view if a field
needs one. -/
structure IsWellFormed (e : EntitySpec) : Prop where
  defaults : ∀ f ∈ e.fields, f.HasGivenDefault
  view : (∃ f ∈ e.fields, f.isViewOnly = true) → e.view.isSome = true

/-- The description with no type settled yet. -/
def unsettled (e : EntitySpec) : EntitySpec := e.mapFields FieldSpec.unsettled

theorem fields_withView (e : EntitySpec) : e.withView.fields = e.fields := by
  rw [withView]
  split <;> rfl

theorem view_withView {e : EntitySpec} (h : ∃ f ∈ e.fields, f.isViewOnly = true) :
    e.withView.view.isSome = true := by
  have hany : e.fields.any (·.isViewOnly) = true := List.any_eq_true.2 h
  rw [withView, hany, Bool.and_true]
  split
  · rfl
  · next hview => simpa [Option.isSome_iff_ne_none] using hview

theorem withView_eq_self {e : EntitySpec}
    (h : (∃ f ∈ e.fields, f.isViewOnly = true) → e.view.isSome = true) : e.withView = e := by
  rw [withView, if_neg]
  intro hneeded
  obtain ⟨hnone, hany⟩ := Bool.and_eq_true_iff.1 hneeded
  have hsome := h (List.any_eq_true.1 hany)
  rw [Option.isNone_iff_eq_none] at hnone
  rw [hnone] at hsome
  cases hsome

theorem isWellFormed_unsettled_iff {e : EntitySpec} :
    e.unsettled.IsWellFormed ↔ e.IsWellFormed := by
  constructor
  · rintro ⟨hdefaults, hview⟩
    refine ⟨fun f hf => hdefaults f.unsettled (List.mem_map_of_mem hf), ?_⟩
    rintro ⟨f, hf, hv⟩
    exact hview ⟨f.unsettled, List.mem_map_of_mem hf, hv⟩
  · rintro ⟨hdefaults, hview⟩
    refine ⟨List.forall_mem_map.2 hdefaults, ?_⟩
    rintro ⟨g, hg, hv⟩
    obtain ⟨f, hf, rfl⟩ := List.mem_map.1 hg
    exact hview ⟨f, hf, hv⟩

/-- Whatever is finished has the view that it needs. -/
theorem IsBuilt.isWellFormed {e : EntitySpec} (h : e.IsBuilt) : e.IsWellFormed := by
  obtain ⟨draft, hdraft, hb⟩ := h
  obtain ⟨⟨⟩, -, he⟩ := bind_eq_ok_iff.1 hb
  cases he
  have hfields := isDrafted_iff.1 hdraft
  rw [← fields_withView] at hfields
  refine ⟨fun f hf => (FieldSpec.isBuilt_iff.1 (hfields f hf)).1, ?_⟩
  intro hneeded
  rw [fields_withView] at hneeded
  exact view_withView hneeded

theorem IsAccepted.isBuilt_unsettled {e : EntitySpec} (h : e.IsAccepted) (hw : e.IsWellFormed) :
    e.unsettled.IsBuilt := by
  have hwell := isWellFormed_unsettled_iff.2 hw
  have hvalid : e.unsettled.validate = .ok () := by
    rw [unsettled, validate_mapFields FieldSpec.sameToCheck_unsettled]
    exact h.validate_eq_ok
  refine ⟨e.unsettled, isDrafted_iff.2 ?_, ?_⟩
  · intro g hg
    refine FieldSpec.isBuilt_iff.2 ⟨hwell.defaults g hg, ?_⟩
    obtain ⟨f, -, rfl⟩ := List.mem_map.1 hg
    rfl
  · rw [EntitySpec.build, withView_eq_self hwell.view, hvalid]
    rfl

/-- Calls make nothing but what the documentation says, and a description that was finished from
other fields, or read, is what the documentation says exactly if calls could have made it, types
that it declares settled apart. -/
theorem isWellFormed_iff_isBuilt (e : EntitySpec) :
    (e.IsBuilt → e.IsWellFormed) ∧ (e.IsAccepted → (e.IsWellFormed ↔ e.unsettled.IsBuilt)) := by
  refine ⟨IsBuilt.isWellFormed, fun h => ⟨h.isBuilt_unsettled, ?_⟩⟩
  intro hbuilt
  exact isWellFormed_unsettled_iff.1 hbuilt.isWellFormed

end EntitySpec

/-- A note as calls make it: its author, and the author's name, which only the view has. -/
def listedNote : EntitySpec :=
  { EntitySpec.named "note" with
    view := some "V_NOTE"
    fields := [
      { FieldSpec.named "author" .long with foreignKey := some ⟨"Person", "id"⟩ },
      { FieldSpec.named "name" .string with viewSource := some ⟨"author", "name"⟩ }] }

theorem listedNote_isBuilt : listedNote.IsBuilt :=
  ⟨{ listedNote with view := none },
    .field (.field (.named "note") (.foreignKey ⟨"Person", "id"⟩ (.named "author" .long)))
      (.viewSource ⟨"author", "name"⟩ (.named "name" .string)),
    by decide +kernel⟩

theorem listed_note_isWellFormed : listedNote.IsBuilt ∧ listedNote.IsAccepted ∧
    listedNote.IsWellFormed ∧ listedNote.unsettled.IsBuilt := by
  have hbuilt := listedNote_isBuilt
  have haccepted : listedNote.IsAccepted := .build hbuilt.choose_spec.2
  obtain ⟨hwell, hiff⟩ := EntitySpec.isWellFormed_iff_isBuilt listedNote
  exact ⟨hbuilt, haccepted, hwell hbuilt, (hiff haccepted).1 (hwell hbuilt)⟩

/-- The same note with a default of one blank and without its view. -/
def hollowNote : EntitySpec :=
  { EntitySpec.named "note" with
    fields := [
      { FieldSpec.named "author" .long with
        defaultValue := some " ", foreignKey := some ⟨"Person", "id"⟩ },
      { FieldSpec.named "name" .string with viewSource := some ⟨"author", "name"⟩ }] }

/-- The hollow note in JSON, with records as arrays. -/
def hollowText : String :=
  "[\"note\",\"NOTE\",null,null,[" ++
    "[\"author\",\"AUTHOR\",\"LONG\",null,0,0,0,false,\" \",false,[\"Person\",\"id\"]]," ++
    "[\"name\",\"NAME\",\"STRING\",null,0,0,0,false,null,false,null,[\"author\",\"name\"]]]]"

/-- Both the blank default and the missing view are accepted where a description is read. -/
theorem hollow_note_accepted :
    EntitySpec.read hollowText = .ok hollowNote ∧
      (∃ f ∈ hollowNote.fields, f.defaultValue = some " ") ∧ Text.isAllBlank " " = true ∧
      (∃ f ∈ hollowNote.fields, f.isViewOnly = true) ∧ hollowNote.view = none := by
  refine ⟨by decide +kernel, ?_⟩
  decide

end SqlDialects
