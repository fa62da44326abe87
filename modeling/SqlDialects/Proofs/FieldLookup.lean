import SqlDialects.Proofs.Acceptance

/-!
# Fields looked up by name

A description and the entity that a dialect makes of it are both asked for fields by name: the one
finds the first field of a name, the other the last. This module says for which descriptions these
are the same, and that nothing but the description's own names decides it: columns and keys may
repeat, whatever the check finds.

Results:
1. `EntitySpec.nodup_names_of_markers`: without markers of their own, fields have different names.
2. `EntitySpec.IsFinished.field_eq_iff`: description and entity find the same fields exactly if no
   name repeats.
-/

namespace SqlDialects

/-! ## First and last -/

/-- An entry that is both the first and the last of a kind is the only one. -/
theorem eq_of_find?_reverse {α : Type} {l : List α} (hl : l.Nodup) {p : α → Bool} {a b : α}
    (hfirst : l.find? p = some a) (hlast : l.reverse.find? p = some a) (hb : b ∈ l)
    (hp : p b = true) : b = a := by
  induction l with
  | nil => cases hb
  | cons x rest ih =>
    obtain ⟨hx, hrest⟩ := List.nodup_cons.1 hl
    rw [List.reverse_cons, List.find?_append] at hlast
    cases hpx : p x with
    | false =>
      have hne : b ≠ x := by
        rintro rfl
        rw [hp] at hpx
        cases hpx
      rw [List.find?_cons_of_neg (by simp [hpx])] at hfirst
      rw [List.find?_singleton, hpx, if_neg Bool.false_ne_true, Option.or_none] at hlast
      exact ih hrest hfirst hlast ((List.mem_cons.1 hb).resolve_left hne)
    | true =>
      rw [List.find?_cons_of_pos hpx] at hfirst
      cases hfirst
      rcases List.mem_cons.1 hb with rfl | hb
      · rfl
      · -- Another one would be the last, and the first is not among the rest.
        cases hlater : rest.reverse.find? p with
        | none => exact absurd hp (List.find?_eq_none.1 hlater b (List.mem_reverse.2 hb))
        | some y =>
          rw [hlater] at hlast
          cases hlast
          exact absurd (List.mem_reverse.1 (List.mem_of_find?_eq_some hlater)) hx

namespace EntitySpec

variable {d : Dialect} {spec : EntitySpec} {e : Entity}

/-! ## Descriptions and their entities -/

/-- The fields of an entity, one for each of its description's. -/
theorem fields_of_ofSpec (he : Entity.ofSpec d spec = .ok e) :
    List.Forall₂ (fun f g => Field.ofSpec d f = .ok g) spec.fields e.fields := by
  obtain ⟨fields, hfields, he⟩ := bind_eq_ok_iff.1 he
  cases he
  exact mapM_eq_ok_iff.1 hfields

theorem beq_name_of_ofSpec {f : FieldSpec} {g : Field} (h : Field.ofSpec d f = .ok g)
    (name : String) : (f.name == name) = (g.name == name) := by
  rw [(Field.isOfSpec h).name]

/-- What an entity finds is made of the last field of a name that its description has. -/
theorem field_of_ofSpec (he : Entity.ofSpec d spec = .ok e) (name : String) :
    e.field name = match spec.fields.reverse.find? (·.name == name) with
      | some f => Field.ofSpec d f
      | none => .error (.unknownField spec.name name) := by
  have hfields := List.rel_reverse (fields_of_ofSpec he)
  cases hlast : spec.fields.reverse.find? (·.name == name) with
  | some f =>
    obtain ⟨g, hg, hfg⟩ := find?_of_forall₂ (q := (·.name == name)) hfields
      (fun _ _ h => beq_name_of_ofSpec h name) hlast
    rw [Entity.field, hg]
    exact hfg.symm
  | none =>
    have hnone : e.fields.reverse.find? (·.name == name) = none := by
      rw [List.find?_eq_none] at hlast ⊢
      intro g hg
      obtain ⟨f, hf, hfg⟩ := exists_mem_of_forall₂ hfields.flip hg
      rw [← beq_name_of_ofSpec hfg name]
      exact hlast f hf
    rw [Entity.field, hnone, Entity.noField, (Entity.isOfSpec he).name]

/-- Description and entity find fields that stand for each other: none, or the one that the dialect
makes of the other. -/
def FindsAlike (spec : EntitySpec) (d : Dialect) (e : Entity) : Prop :=
  ∀ name, e.field name = spec.field name >>= Field.ofSpec d

/-- Where no name repeats, the first field of a name is the last. -/
theorem find?_reverse_of_nodup (h : (spec.fields.map (·.name)).Nodup) (name : String) :
    spec.fields.reverse.find? (·.name == name) = spec.fields.find? (·.name == name) := by
  cases hfirst : spec.fields.find? (·.name == name) with
  | none =>
    rw [List.find?_eq_none] at hfirst ⊢
    intro f hf
    exact hfirst f (List.mem_reverse.1 hf)
  | some f =>
    cases hlast : spec.fields.reverse.find? (·.name == name) with
    | none =>
      exact absurd (List.find?_some hfirst) (List.find?_eq_none.1 hlast f
        (List.mem_reverse.2 (List.mem_of_find?_eq_some hfirst)))
    | some g =>
      have hf : f.name = name := by simpa using List.find?_some hfirst
      have hg : g.name = name := by simpa using List.find?_some hlast
      have hmem := List.mem_reverse.1 (List.mem_of_find?_eq_some hlast)
      rw [List.inj_on_of_nodup_map h hmem (List.mem_of_find?_eq_some hfirst) (hg.trans hf.symm)]

theorem findsAlike_of_nodup (he : Entity.ofSpec d spec = .ok e)
    (h : (spec.fields.map (·.name)).Nodup) : spec.FindsAlike d e := by
  intro name
  rw [field_of_ofSpec he, find?_reverse_of_nodup h, field]
  cases spec.fields.find? (·.name == name) with
  | none => rfl
  | some f => rfl

/-- Where both find alike, the last field of a name is the first: the dialect makes the same of both,
and a marker is kept. -/
theorem find?_reverse_of_findsAlike (hs : spec.IsFinished) (he : Entity.ofSpec d spec = .ok e)
    (h : spec.FindsAlike d e) {name : String} {f : FieldSpec}
    (hf : spec.fields.find? (·.name == name) = some f) :
    spec.fields.reverse.find? (·.name == name) = some f := by
  have hmem := List.mem_of_find?_eq_some hf
  obtain ⟨g, -, hfg⟩ := exists_mem_of_forall₂ (fields_of_ofSpec he) hmem
  have hname := h name
  rw [field_of_ofSpec he, field, hf] at hname
  change _ = Field.ofSpec d f at hname
  rw [hfg] at hname
  cases hlast : spec.fields.reverse.find? (·.name == name) with
  | none =>
    rw [hlast] at hname
    cases hname
  | some last =>
    rw [hlast] at hname
    change Field.ofSpec d last = .ok g at hname
    have hmarker : last.marker = f.marker :=
      (Field.isOfSpec hname).marker.symm.trans (Field.isOfSpec hfg).marker
    have hlastmem := List.mem_reverse.1 (List.mem_of_find?_eq_some hlast)
    rw [List.inj_on_of_nodup_map hs.markers_nodup hlastmem hmem hmarker]

/-- Where both find alike, no name repeats. -/
theorem nodup_of_findsAlike (hs : spec.IsFinished) (he : Entity.ofSpec d spec = .ok e)
    (h : spec.FindsAlike d e) : (spec.fields.map (·.name)).Nodup := by
  have hnodup : spec.fields.Nodup := hs.markers_nodup.of_map _
  refine (List.nodup_map_iff_inj_on hnodup).2 ?_
  intro f hf g hg hfg
  cases hfirst : spec.fields.find? (·.name == f.name) with
  | none => exact absurd (beq_self_eq_true f.name) (List.find?_eq_none.1 hfirst f hf)
  | some first =>
    have hlast := find?_reverse_of_findsAlike hs he h hfirst
    rw [eq_of_find?_reverse hnodup hfirst hlast hf (beq_self_eq_true f.name),
      eq_of_find?_reverse hnodup hfirst hlast hg (beq_iff_eq.2 hfg.symm)]

/-! ## What names are compared with -/

/-- Where no field has a marker of its own, names are markers. -/
theorem nodup_names_of_markers (hs : spec.IsFinished)
    (h : ∀ f ∈ spec.fields, f.givenMarker = none) : (spec.fields.map (·.name)).Nodup := by
  have hmarkers : spec.fields.map (·.marker) = spec.fields.map (·.name) := by
    refine List.map_congr_left ?_
    intro f hf
    rw [FieldSpec.marker, h f hf]
    rfl
  rw [← hmarkers]
  exact hs.markers_nodup

/-- Another column for each field, and a say on whether it is a key. -/
def rekeyed (column : FieldSpec → String) (primaryKey : FieldSpec → Bool) (spec : EntitySpec) :
    EntitySpec :=
  spec.mapFields fun f => { f with column := column f, primaryKey := primaryKey f }

/-- A description and its entity find the same fields exactly if no name repeats. The check does not
see to that: it wants markers to differ, which are the names only of fields without a marker of their
own, and it looks at no column and no key, so that any of these may repeat. -/
theorem IsFinished.findsAlike_iff (hs : spec.IsFinished) (he : Entity.ofSpec d spec = .ok e) :
    (spec.FindsAlike d e ↔ (spec.fields.map (·.name)).Nodup) ∧
      ((∀ f ∈ spec.fields, f.givenMarker = none) → (spec.fields.map (·.name)).Nodup) ∧
      ∀ column primaryKey, (spec.rekeyed column primaryKey).validate = spec.validate := by
  refine ⟨⟨nodup_of_findsAlike hs he, findsAlike_of_nodup he⟩, nodup_names_of_markers hs, ?_⟩
  intro column primaryKey
  have hsame : ∀ f : FieldSpec, FieldSpec.SameToCheck f
      { f with column := column f, primaryKey := primaryKey f } :=
    fun f => ⟨rfl, rfl, rfl, rfl, rfl, rfl⟩
  exact validate_mapFields hsame spec

end EntitySpec

/-- A note with an owner, whose marker is its name. -/
def ownedNote : EntitySpec :=
  { EntitySpec.named "note" with
    fields := [(FieldSpec.named "id" .long).asPrimaryKey, FieldSpec.named "owner" .long] }

theorem owned_note_findsAlike :
    ∃ e, ownedNote.IsFinished ∧ Entity.ofSpec (Dialect.builtin .hsqldb) ownedNote = .ok e ∧
      ownedNote.FindsAlike (Dialect.builtin .hsqldb) e ∧
      (ownedNote.rekeyed (fun _ => "ID") fun _ => true).validate = ownedNote.validate := by
  have hs : ownedNote.IsFinished := EntitySpec.isFinished_of_build (by decide +kernel)
  have he : ∃ e, Entity.ofSpec (Dialect.builtin .hsqldb) ownedNote = .ok e ∧
      (e.fields.length == 2) = true := exists_ok_of_any (by decide +kernel)
  obtain ⟨e, he, -⟩ := he
  obtain ⟨hiff, hnames, hcheck⟩ := EntitySpec.IsFinished.findsAlike_iff hs he
  exact ⟨e, hs, he, hiff.2 (hnames (by decide)), hcheck _ _⟩

/-- A note with two owners, both of them keys, whose columns differ in case alone. -/
def twiceOwnedNote : EntitySpec :=
  { EntitySpec.named "note" with
    fields := [
      { (FieldSpec.named "owner" .long).asPrimaryKey with givenMarker := some "m1" },
      { (FieldSpec.named "owner" .long).asPrimaryKey with
        column := "owner", givenMarker := some "m2" }] }

/-- The note is accepted, and its owner is one field in the description and the other one in the
entity. -/
theorem twice_owned_note_finds_other :
    twiceOwnedNote.build = .ok twiceOwnedNote ∧
      twiceOwnedNote.fields.map (·.name) = ["owner", "owner"] ∧
      (twiceOwnedNote.fields.map fun f => (f.isViewOnly, Text.asciiUpper f.column)) =
        [(false, "OWNER"), (false, "OWNER")] ∧
      twiceOwnedNote.fields.map (·.primaryKey) = [true, true] ∧
      (twiceOwnedNote.field "owner").map (·.column) = .ok "OWNER" ∧
      ∃ e, Entity.ofSpec (Dialect.builtin .hsqldb) twiceOwnedNote = .ok e ∧
        (e.field "owner").map (·.column.raw) = .ok "owner" := by
  have he : ∃ e, Entity.ofSpec (Dialect.builtin .hsqldb) twiceOwnedNote = .ok e ∧
      decide ((e.field "owner").map (·.column.raw) = .ok "owner") = true :=
    exists_ok_of_any (by decide +kernel)
  obtain ⟨e, he, hfound⟩ := he
  exact ⟨by decide +kernel, by decide, by decide, by decide, by decide, e, he,
    of_decide_eq_true hfound⟩

end SqlDialects
