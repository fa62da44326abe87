import SqlDialects.Proofs.Acceptance

/-!
# Types settled after a description is accepted

A description is checked once, when it is finished or read. After that the type of a field may still
be settled, by calls that name the field. Each field is settled at most once, and a refused call
changes nothing. But the type that a call brings is not checked: all that the check wants is kept by
any calls, except that a version is an integer.

Results:
1. `EntitySpec.validate_eq_ok_iff`: what the check wants, with types apart.
2. `EntitySpec.settles_settle`: what one call does.
3. `EntitySpec.settleAll_eq`: what calls one after the other make of each field: the first one that
   names it counts.
4. `EntitySpec.IsAccepted.isSettling`: any run of calls on an accepted description, and when the
   description that it ends with would be accepted again.
-/

namespace SqlDialects

/-- One check after another. -/
theorem andThen_eq_ok_iff {ε : Type} {first : Except ε Unit} {second : Unit → Except ε Unit} :
    first >>= second = .ok () ↔ first = .ok () ∧ second () = .ok () := by
  rw [bind_eq_ok_iff]
  exact ⟨fun ⟨_, hfirst, hsecond⟩ => ⟨hfirst, hsecond⟩,
    fun ⟨hfirst, hsecond⟩ => ⟨(), hfirst, hsecond⟩⟩

/-- An entry that occurs once is all that another map changes, if it leaves the others. -/
theorem map_append_cons_of_others {α β : Type} {k other : α → β} {before after : List α} {a : α}
    (h : (before ++ a :: after).Nodup) (hothers : ∀ b, b ≠ a → other b = k b) :
    (before ++ a :: after).map other = before.map k ++ other a :: after.map k := by
  obtain ⟨-, hafter, hapart⟩ := List.nodup_append.1 h
  have hfront : before.map other = before.map k :=
    List.map_congr_left fun b hb => hothers b (hapart b hb a List.mem_cons_self)
  have hback : after.map other = after.map k :=
    List.map_congr_left fun b hb => hothers b fun he => (List.nodup_cons.1 hafter).1 (he ▸ hb)
  rw [List.map_append, List.map_cons, hfront, hback]

namespace EntitySpec

variable {e : EntitySpec}

/-! ## What the check wants -/

/-- A field that lists may take values through: the first of its name, and a foreign key. -/
def HasKey (e : EntitySpec) (name : String) : Prop :=
  ∃ key, e.fields.find? (·.name == name) = some key ∧ key.foreignKey.isSome = true

/-- Fields of one description differ in their markers, and are not both versions. -/
def AreApart (f g : FieldSpec) : Prop :=
  f.marker ≠ g.marker ∧ ¬(f.version = true ∧ g.version = true)

/-- A field that is good on its own: a version is an integer and in the table, and what only the
view has comes through a key. -/
structure IsGoodField (e : EntitySpec) (f : FieldSpec) : Prop where
  version : f.version = true → f.type.isIntegral = true ∧ f.isViewOnly = false
  source : ∀ s, f.viewSource = some s → e.HasKey s.keyField

/-- What the check wants that no type has a part in. -/
structure IsConsistent (e : EntitySpec) : Prop where
  constrained : ∀ name ∈ e.constrainedNames, e.HasConstrainable name
  apart : e.fields.Pairwise AreApart
  versionInTable : ∀ f ∈ e.fields, f.version = true → f.isViewOnly = false
  sources : ∀ f ∈ e.fields, ∀ s, f.viewSource = some s → e.HasKey s.keyField

/-- A version is an integer. -/
def HasIntegralVersion (e : EntitySpec) : Prop :=
  ∀ f ∈ e.fields, f.version = true → f.type.isIntegral = true

theorem checkConstrained_eq_ok_iff {name : String} :
    e.checkConstrained name = .ok () ↔ e.HasConstrainable name := by
  refine ⟨hasConstrainable_of_checkConstrained, ?_⟩
  rintro ⟨f, hf, hv⟩
  rw [checkConstrained, field, hf]
  exact if_neg (Bool.eq_false_iff.1 hv)

theorem checkSource_eq_ok_iff {s : ViewSource} :
    e.checkSource s = .ok () ↔ e.HasKey s.keyField := by
  rw [checkSource, field, HasKey]
  cases e.fields.find? (·.name == s.keyField) with
  | none =>
    refine iff_of_false ?_ (by simp)
    intro h
    cases h
  | some key =>
    show (if key.foreignKey.isSome then Except.ok () else _) = .ok () ↔ _
    split
    · next hkey => simp [hkey]
    · next hkey => simp [hkey]

theorem isGoodVersion_iff {earlier : List FieldSpec} {f : FieldSpec} :
    isGoodVersion f earlier = true ↔
      (∀ g ∈ earlier, g.version = false) ∧ f.type.isIntegral = true ∧ f.isViewOnly = false := by
  simp [isGoodVersion, and_assoc]

theorem checkField_eq (e : EntitySpec) (earlier : List FieldSpec) (f : FieldSpec) :
    e.checkField earlier f =
      if (earlier.any fun g => g.marker == f.marker) = true then
        .error (.config (.duplicateMarker e.name f.marker))
      else if (f.version && !isGoodVersion f earlier) = true then
        .error (.config (.badVersion e.name f.name))
      else match f.viewSource with
        | some source => e.checkSource source
        | none => .ok () := by
  rw [checkField]
  cases earlier.any fun g => g.marker == f.marker with
  | true => rfl
  | false => cases f.version && !isGoodVersion f earlier <;> rfl

theorem checkField_eq_ok_iff {earlier : List FieldSpec} {f : FieldSpec} :
    e.checkField earlier f = .ok () ↔ (∀ g ∈ earlier, AreApart g f) ∧ e.IsGoodField f := by
  rw [checkField_eq]
  split
  · next hdup =>
    obtain ⟨g, hg, hmarker⟩ := List.any_eq_true.1 hdup
    refine iff_of_false (fun h => by cases h) fun h => ?_
    exact (h.1 g hg).1 (beq_iff_eq.1 hmarker)
  · next hnew =>
    have hmarkers : ∀ g ∈ earlier, g.marker ≠ f.marker := by simpa using hnew
    split
    · next hbad =>
      obtain ⟨hversion, hgood⟩ := Bool.and_eq_true_iff.1 hbad
      refine iff_of_false (fun h => by cases h) fun h => ?_
      rw [Bool.not_eq_true', Bool.eq_false_iff, ne_eq, isGoodVersion_iff] at hgood
      exact hgood ⟨fun g hg => Bool.eq_false_iff.2 fun hv => (h.1 g hg).2 ⟨hv, hversion⟩,
        h.2.version hversion⟩
    · next hgood =>
      have hversion : f.version = true → (∀ g ∈ earlier, g.version = false) ∧
          f.type.isIntegral = true ∧ f.isViewOnly = false := by
        intro hv
        rw [hv, Bool.true_and, Bool.not_eq_true', Bool.not_eq_false] at hgood
        exact isGoodVersion_iff.1 hgood
      have hapart : ∀ g ∈ earlier, AreApart g f := fun g hg =>
        ⟨hmarkers g hg, fun ⟨hg', hf⟩ => Bool.false_ne_true (((hversion hf).1 g hg).symm.trans hg')⟩
      have hsource : (match f.viewSource with
          | some source => e.checkSource source
          | none => Except.ok ()) = .ok () ↔
            ∀ s, f.viewSource = some s → e.HasKey s.keyField := by
        cases f.viewSource with
        | none => simp
        | some source => simp [checkSource_eq_ok_iff]
      rw [hsource, and_iff_right hapart]
      exact ⟨fun h => ⟨fun hv => (hversion hv).2, h⟩, fun h => h.source⟩

theorem checkFields_eq_ok_iff {earlier fields : List FieldSpec} :
    e.checkFields earlier fields = .ok () ↔
      (∀ f ∈ fields, ∀ g ∈ earlier, AreApart g f) ∧ fields.Pairwise AreApart ∧
        ∀ f ∈ fields, e.IsGoodField f := by
  induction fields generalizing earlier with
  | nil => simp [checkFields]
  | cons f rest ih =>
    rw [checkFields, andThen_eq_ok_iff, checkField_eq_ok_iff, ih]
    simp only [List.mem_append, List.mem_singleton, or_imp, forall_and, forall_eq,
      List.forall_mem_cons, List.pairwise_cons]
    constructor
    · rintro ⟨⟨hhere, hgood⟩, ⟨hothers, hhead⟩, hpair, hgoods⟩
      exact ⟨⟨hhere, hothers⟩, ⟨hhead, hpair⟩, hgood, hgoods⟩
    · rintro ⟨⟨hhere, hothers⟩, ⟨hhead, hpair⟩, hgood, hgoods⟩
      exact ⟨⟨hhere, hgood⟩, ⟨hothers, hhead⟩, hpair, hgoods⟩

/-- A description is accepted exactly if it is consistent and its version is an integer. -/
theorem validate_eq_ok_iff : e.validate = .ok () ↔ e.IsConsistent ∧ e.HasIntegralVersion := by
  rw [validate, andThen_eq_ok_iff, forM_eq_ok_iff, checkFields_eq_ok_iff]
  simp only [checkConstrained_eq_ok_iff]
  constructor
  · rintro ⟨hconstrained, -, hpair, hgood⟩
    exact ⟨⟨hconstrained, hpair, fun f hf hv => ((hgood f hf).version hv).2,
      fun f hf => (hgood f hf).source⟩, fun f hf hv => ((hgood f hf).version hv).1⟩
  · rintro ⟨hconsistent, hintegral⟩
    exact ⟨hconsistent.constrained, by simp, hconsistent.apart, fun f hf =>
      ⟨fun hv => ⟨hintegral f hf hv, hconsistent.versionInTable f hf hv⟩, hconsistent.sources f hf⟩⟩

/-! ## What settling a type leaves of a field -/

/-- A field beside another one that may have another type, and is the same in all else that the
check sees. -/
structure SameRole (f g : FieldSpec) : Prop where
  name : g.name = f.name
  marker : g.marker = f.marker
  version : g.version = f.version
  viewSource : g.viewSource = f.viewSource
  foreignKey : g.foreignKey = f.foreignKey

section Roles

variable {change : FieldSpec → FieldSpec} (h : ∀ f, SameRole f (change f))
include h

theorem find?_mapFields (e : EntitySpec) (name : String) :
    (e.mapFields change).fields.find? (·.name == name) =
      (e.fields.find? (·.name == name)).map change := by
  have hname : (fun f : FieldSpec => f.name == name) ∘ change = (·.name == name) := by
    funext f
    rw [Function.comp_apply, (h f).name]
  rw [mapFields, List.find?_map, hname]

/-- With other types, a description is as consistent as it was. -/
theorem IsConsistent.mapFields (hc : e.IsConsistent) : (e.mapFields change).IsConsistent := by
  have hview : ∀ f, (change f).isViewOnly = f.isViewOnly := fun f => by
    rw [FieldSpec.isViewOnly, FieldSpec.isViewOnly, (h f).viewSource]
  refine ⟨fun name hname => ?_, ?_, ?_, ?_⟩
  · obtain ⟨f, hf, hv⟩ := hc.constrained name hname
    refine ⟨change f, ?_, (hview f).trans hv⟩
    rw [find?_mapFields h, hf, Option.map_some]
  · refine List.pairwise_map.2 (hc.apart.imp fun {f g} hfg => ?_)
    rw [AreApart, (h f).marker, (h g).marker, (h f).version, (h g).version]
    exact hfg
  · refine List.forall_mem_map.2 fun f hf hv => ?_
    rw [hview]
    exact hc.versionInTable f hf ((h f).version ▸ hv)
  · refine List.forall_mem_map.2 fun f hf s hs => ?_
    obtain ⟨key, hkey, hforeign⟩ := hc.sources f hf s ((h f).viewSource ▸ hs)
    refine ⟨change key, ?_, (h key).foreignKey ▸ hforeign⟩
    rw [find?_mapFields h, hkey, Option.map_some]

end Roles

end EntitySpec

/-! ## One call -/

/-- A call that settles the type of a field. -/
structure Settlement where
  field : String
  type : ColumnType
  enumType : Option String
deriving DecidableEq, Repr

/-- The field with the type that a call brings. -/
def FieldSpec.settledBy (f : FieldSpec) (c : Settlement) : FieldSpec :=
  { f with type := c.type, enumType := c.enumType, resolved := true }

namespace EntitySpec

variable {e : EntitySpec} {c : Settlement} {calls : List Settlement}

/-- The description after a call, which stays as it was where the call is refused. -/
def settle (e : EntitySpec) (c : Settlement) : EntitySpec :=
  (e.resolveField c.field c.type c.enumType).toOption.getD e

/-- The description after calls, one after the other. -/
def settleAll (e : EntitySpec) (calls : List Settlement) : EntitySpec := calls.foldl settle e

/-- What one call may do: it is refused, because the description has no field of the name or the
type of the first one is settled, or it settles the type of that one field. -/
inductive Settles (c : Settlement) (e : EntitySpec) : EntitySpec → Prop
  | refused {err : Error} :
      (∀ f, e.fields.find? (·.name == c.field) = some f → f.resolved = true) →
      e.resolveField c.field c.type c.enumType = .error err → Settles c e e
  | settled {before after : List FieldSpec} {f : FieldSpec} :
      e.fields = before ++ f :: after → (∀ g ∈ before, g.name ≠ c.field) → f.name = c.field →
      f.resolved = false →
      Settles c e { e with fields := before ++ f.settledBy c :: after }

theorem resolveIn_append {before after : List FieldSpec} {f : FieldSpec}
    (hbefore : ∀ g ∈ before, g.name ≠ c.field) (hf : f.name = c.field) :
    resolveIn c.field c.type c.enumType (before ++ f :: after) =
      (f.resolve c.type c.enumType).map fun g => before ++ g :: after := by
  induction before with
  | nil =>
    rw [List.nil_append, resolveIn, if_pos hf]
    cases f.resolve c.type c.enumType <;> rfl
  | cons g rest ih =>
    obtain ⟨hg, hrest⟩ := List.forall_mem_cons.1 hbefore
    rw [List.cons_append, resolveIn, if_neg hg, ih hrest]
    cases f.resolve c.type c.enumType <;> rfl

theorem settles_settle (c : Settlement) (e : EntitySpec) : Settles c e (e.settle c) := by
  cases hfind : e.fields.find? (·.name == c.field) with
  | none =>
    have herror : e.resolveField c.field c.type c.enumType =
        .error (.unknownField e.name c.field) := by
      rw [resolveField, field, hfind]
      rfl
    rw [settle, herror]
    exact .refused (by simp [hfind]) herror
  | some f =>
    obtain ⟨hname, before, after, hfields, hbefore⟩ := List.find?_eq_some_iff_append.1 hfind
    have hname : f.name = c.field := by simpa using hname
    have hbefore : ∀ g ∈ before, g.name ≠ c.field := by simpa using hbefore
    have hresolve : e.resolveField c.field c.type c.enumType =
        (f.resolve c.type c.enumType).map fun g => { e with fields := before ++ g :: after } := by
      rw [resolveField, field, hfind]
      show (do return { e with fields := ← resolveIn c.field c.type c.enumType e.fields }) = _
      rw [hfields, resolveIn_append hbefore hname]
      cases f.resolve c.type c.enumType <;> rfl
    cases hresolved : f.resolved with
    | true =>
      rw [FieldSpec.resolve, if_pos hresolved] at hresolve
      rw [settle, hresolve]
      refine .refused (fun g hg => ?_) hresolve
      rw [hfind] at hg
      cases hg
      exact hresolved
    | false =>
      rw [FieldSpec.resolve, if_neg (Bool.eq_false_iff.1 hresolved)] at hresolve
      rw [settle, hresolve]
      exact .settled hfields hbefore hname hresolved

/-! ## Calls one after the other -/

/-! ### Each field once -/

/-- How many of some calls change the field at a position. -/
def changesOf (i : Nat) : EntitySpec → List Settlement → Nat
  | _, [] => 0
  | e, c :: rest =>
    (if (e.settle c).fields[i]? = e.fields[i]? then 0 else 1) + changesOf i (e.settle c) rest

/-- A call leaves the field at a position as it is, or settles its type. -/
theorem getElem?_settle (e : EntitySpec) (c : Settlement) (i : Nat) :
    (e.settle c).fields[i]? = e.fields[i]? ∨
      ∃ f, e.fields[i]? = some f ∧ f.resolved = false ∧
        (e.settle c).fields[i]? = some (f.settledBy c) := by
  have hsettles := settles_settle c e
  generalize e.settle c = settled at hsettles
  cases hsettles with
  | refused => exact .inl rfl
  | @settled before after f hfields _ _ hresolved =>
    rw [hfields]
    rcases lt_trichotomy i before.length with hlt | rfl | hgt
    · left
      rw [List.getElem?_append_left hlt, List.getElem?_append_left hlt]
    · exact .inr ⟨f, by simp, hresolved, by simp⟩
    · left
      obtain ⟨n, hn⟩ : ∃ n, i - before.length = n + 1 := ⟨i - before.length - 1, by omega⟩
      rw [List.getElem?_append_right hgt.le, List.getElem?_append_right hgt.le, hn,
        List.getElem?_cons_succ, List.getElem?_cons_succ]

/-- A field whose type is settled does not change any more. -/
theorem changesOf_eq_zero {i : Nat} (h : ∀ f, e.fields[i]? = some f → f.resolved = true) :
    changesOf i e calls = 0 := by
  induction calls generalizing e with
  | nil => rfl
  | cons c rest ih =>
    rcases getElem?_settle e c i with hsame | ⟨f, hf, hresolved, -⟩
    · rw [changesOf, if_pos hsame, ih (hsame ▸ h)]
    · rw [h f hf] at hresolved
      cases hresolved

theorem changesOf_le_one (i : Nat) (e : EntitySpec) (calls : List Settlement) :
    changesOf i e calls ≤ 1 := by
  induction calls generalizing e with
  | nil => exact Nat.zero_le 1
  | cons c rest ih =>
    rcases getElem?_settle e c i with hsame | ⟨f, hf, -, hsettled⟩
    · rw [changesOf, if_pos hsame, Nat.zero_add]
      exact ih _
    · have hlater : changesOf i (e.settle c) rest = 0 := by
        refine changesOf_eq_zero fun g hg => ?_
        rw [hsettled] at hg
        cases hg
        rfl
      rw [changesOf, hlater]
      split <;> simp

/-! ### What becomes of a field -/

/-- A field after some calls on its description: the first one that names it counts, unless the type
was settled before, or another field comes before it with the name. -/
def settled (e : EntitySpec) (calls : List Settlement) (f : FieldSpec) : FieldSpec :=
  match calls.find? (·.field == f.name) with
  | some c =>
    if e.fields.find? (·.name == f.name) = some f ∧ f.resolved = false then f.settledBy c else f
  | none => f

theorem sameRole_settled (e : EntitySpec) (calls : List Settlement) (f : FieldSpec) :
    SameRole f (e.settled calls f) := by
  unfold settled
  split
  · split <;> exact ⟨rfl, rfl, rfl, rfl, rfl⟩
  · exact ⟨rfl, rfl, rfl, rfl, rfl⟩

theorem settledBy_settled (e : EntitySpec) (calls : List Settlement) (f : FieldSpec)
    (c : Settlement) : (e.settled calls f).settledBy c = f.settledBy c := by
  unfold settled
  split
  · split <;> rfl
  · rfl

/-- One more call settles a field that it finds, if no call before did. -/
theorem settled_append (e : EntitySpec) (calls : List Settlement) (c : Settlement)
    (f : FieldSpec) :
    e.settled (calls ++ [c]) f =
      if c.field = f.name ∧ e.fields.find? (·.name == f.name) = some f ∧
        (e.settled calls f).resolved = false then f.settledBy c else e.settled calls f := by
  cases hfind : calls.find? (·.field == f.name) with
  | some earlier =>
    have hlater : (calls ++ [c]).find? (·.field == f.name) = some earlier := by
      rw [List.find?_append, hfind, Option.some_or]
    have hsame : e.settled (calls ++ [c]) f = e.settled calls f := by
      rw [settled, settled, hlater, hfind]
    rw [hsame, if_neg]
    rintro ⟨-, hfirst, hopen⟩
    rw [settled, hfind] at hopen
    simp only [hfirst, true_and] at hopen
    split at hopen
    · cases hopen
    · next hresolved => exact hresolved hopen
  | none =>
    have hself : e.settled calls f = f := by rw [settled, hfind]
    by_cases hname : c.field = f.name
    · have hlater : (calls ++ [c]).find? (·.field == f.name) = some c := by
        rw [List.find?_append, hfind, Option.none_or, List.find?_singleton,
          if_pos (by simp [hname])]
      rw [hself, settled, hlater]
      simp only [hname, true_and]
    · have hlater : (calls ++ [c]).find? (·.field == f.name) = none := by
        rw [List.find?_append, hfind, Option.none_or, List.find?_singleton,
          if_neg (by simp [hname])]
      rw [hself, settled, hlater, if_neg fun h => hname h.1]

/-- One more call on a description whose fields some calls have settled. -/
theorem settle_mapFields (h : e.fields.Nodup) (calls : List Settlement) (c : Settlement) :
    (e.mapFields (e.settled calls)).settle c = e.mapFields (e.settled (calls ++ [c])) := by
  have hsettles := settles_settle c (e.mapFields (e.settled calls))
  generalize (e.mapFields (e.settled calls)).settle c = last at hsettles
  cases hsettles with
  | refused hresolved =>
    -- Each field that the call could find is settled already.
    refine congrArg (fun fields => { e with fields }) (List.map_congr_left fun f hf => ?_)
    rw [settled_append, if_neg]
    rintro ⟨hname, hfirst, hopen⟩
    have hfound := find?_mapFields (sameRole_settled e calls) e c.field
    rw [hname, hfirst, Option.map_some] at hfound
    rw [hresolved _ (hname ▸ hfound)] at hopen
    cases hopen
  | @settled opening closing field hfields hopening hname hopen =>
    obtain ⟨before, rest, hsplit, rfl, hrest⟩ := List.map_eq_append_iff.1 hfields
    obtain ⟨f, after, rfl, rfl, rfl⟩ := List.map_eq_cons_iff.1 hrest
    rw [(sameRole_settled e calls f).name] at hname
    have hbefore : ∀ g ∈ before, g.name ≠ f.name := by
      intro g hg
      have hne := hopening _ (List.mem_map_of_mem hg)
      rwa [(sameRole_settled e calls g).name, ← hname] at hne
    have hfirst : e.fields.find? (·.name == f.name) = some f :=
      List.find?_eq_some_iff_append.2
        ⟨by simp, before, after, hsplit, fun g hg => by simpa using hbefore g hg⟩
    -- No other field is the first of the name that the call has.
    have hothers : ∀ g, g ≠ f → e.settled (calls ++ [c]) g = e.settled calls g := by
      intro g hne
      rw [settled_append, if_neg]
      rintro ⟨hg, hfound, -⟩
      rw [← hg, ← hname, hfirst] at hfound
      exact hne (Option.some.inj hfound).symm
    have hself : e.settled (calls ++ [c]) f = f.settledBy c := by
      rw [settled_append, if_pos ⟨hname.symm, hfirst, hopen⟩]
    rw [settledBy_settled, ← hself, mapFields, mapFields, hsplit,
      map_append_cons_of_others (hsplit ▸ h) hothers]

/-- The first of several calls that name a field settles it. -/
theorem settleAll_eq (h : e.fields.Nodup) (calls : List Settlement) :
    e.settleAll calls = e.mapFields (e.settled calls) := by
  induction calls using List.reverseRecOn with
  | nil =>
    have hself : e.fields.map (e.settled []) = e.fields := List.map_id' e.fields
    rw [mapFields, hself]
    rfl
  | append_singleton before c ih =>
    rw [← settle_mapFields h, ← ih, settleAll, settleAll, List.foldl_append]
    rfl

/-! ### What the check says afterwards -/

/-- The field that a call on its name finds, with its type not settled yet. -/
def IsOpen (e : EntitySpec) (f : FieldSpec) : Prop :=
  e.fields.find? (·.name == f.name) = some f ∧ f.resolved = false

/-- A version is an integer after some calls exactly if the first one for it says so. -/
theorem hasIntegralVersion_settled_iff (h : e.HasIntegralVersion) :
    (e.mapFields (e.settled calls)).HasIntegralVersion ↔
      ∀ f ∈ e.fields, f.version = true → e.IsOpen f →
        ∀ c, calls.find? (·.field == f.name) = some c → c.type.isIntegral = true := by
  rw [HasIntegralVersion, mapFields, List.forall_mem_map]
  refine forall₂_congr fun f hf => ?_
  rw [(sameRole_settled e calls f).version]
  refine forall_congr' fun hversion => ?_
  rw [settled, IsOpen]
  cases calls.find? (·.field == f.name) with
  | none => simp [h f hf hversion]
  | some c =>
    simp only [Option.some.injEq, forall_eq']
    split
    · next hopen => simp [hopen, FieldSpec.settledBy]
    · next hsettled => simp [hsettled, h f hf hversion]

/-- A run of calls on a description. -/
structure IsSettling (e : EntitySpec) (calls : List Settlement) : Prop where
  /-- Each call is refused and changes nothing, or settles the first field of its name. -/
  steps : ∀ before c after, calls = before ++ c :: after →
    Settles c (e.settleAll before) (e.settleAll (before ++ [c]))
  /-- No field changes twice. -/
  once : ∀ i, changesOf i e calls ≤ 1
  /-- In the end each field is what the first call for it has made of it. -/
  fields : e.settleAll calls = e.mapFields (e.settled calls)
  /-- The check still finds what it wants, the type of the version apart. -/
  consistent : (e.settleAll calls).IsConsistent
  /-- It accepts the description exactly if the first call for the version, should there be one that
  settles it, brings the type of an integer. -/
  validate_iff : (e.settleAll calls).validate = .ok () ↔
    ∀ f ∈ e.fields, f.version = true → e.IsOpen f →
      ∀ c, calls.find? (·.field == f.name) = some c → c.type.isIntegral = true

/-- Settling types one by one keeps an accepted description consistent, and accepted but for the
type of its version. -/
theorem IsAccepted.isSettling (h : e.IsAccepted) (calls : List Settlement) :
    e.IsSettling calls := by
  obtain ⟨hconsistent, hintegral⟩ := validate_eq_ok_iff.1 h.validate_eq_ok
  have hnodup : e.fields.Nodup := hconsistent.apart.imp fun hfg he => hfg.1 (congrArg _ he)
  have hfields := settleAll_eq hnodup calls
  have hlast : (e.settleAll calls).IsConsistent := by
    rw [hfields]
    exact hconsistent.mapFields (sameRole_settled e calls)
  refine ⟨?_, fun i => changesOf_le_one i e calls, hfields, hlast, ?_⟩
  · intro before c after _
    have hstep : e.settleAll (before ++ [c]) = (e.settleAll before).settle c := by
      rw [settleAll, List.foldl_append]
      rfl
    rw [hstep]
    exact settles_settle c _
  · rw [validate_eq_ok_iff, and_iff_right hlast, hfields, hasIntegralVersion_settled_iff hintegral]

end EntitySpec

/-- A note that counts its versions. -/
def versionedNote : EntitySpec :=
  { EntitySpec.named "Note" with
    fields := [(FieldSpec.named "id" .long).asPrimaryKey,
      { FieldSpec.named "revision" .long with version := true }] }

theorem versionedNote_isAccepted : versionedNote.IsAccepted := by
  have hbuild : versionedNote.build = .ok versionedNote := by decide +kernel
  exact .build hbuild

/-- The second call comes too late, so that versions stay integers. -/
theorem versioned_note_settles : versionedNote.IsAccepted ∧
    (versionedNote.settleAll
      [⟨"revision", .integer, none⟩, ⟨"revision", .string, none⟩]).validate = .ok () := by
  have hfirst : ∀ f ∈ versionedNote.fields, f.version = true →
      ∀ c ∈ [⟨"revision", .integer, none⟩, (⟨"revision", .string, none⟩ : Settlement)].find?
        (·.field == f.name), c.type.isIntegral = true := by decide
  exact ⟨versionedNote_isAccepted,
    (EntitySpec.IsAccepted.isSettling versionedNote_isAccepted _).validate_iff.2
      fun f hf hversion _ => hfirst f hf hversion⟩

/-- A version is made a text, which no description is accepted with. -/
theorem versioned_note_breaks : versionedNote.IsAccepted ∧
    (versionedNote.settleAll [⟨"revision", .string, none⟩]).validate =
      .error (.config (.badVersion "Note" "revision")) :=
  ⟨versionedNote_isAccepted, by decide +kernel⟩

end SqlDialects
