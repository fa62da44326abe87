import SqlDialects.Proofs.UpToDate

/-!
# What a registry holds after any calls

Entities are registered and looked up in any order. A name may be registered again, with another
description or with one that the dialect has no entity for, and some registrations fail. This module
runs any calls on an empty registry, keeps each call with its answer, and says from these alone what
the registry holds.

Results:
1. `Registry.Reflects.perform`, `Registry.Reflects.run`: what holds of calls and registry is kept by
   one call, and by any number of them.
2. `Registry.first?_events`: the registration that holds is the first one of its name that the
   dialect has an entity for, whatever else was called.
3. `Registry.answers_after`: what lookups, registrations and the size come to after any calls.
-/

namespace SqlDialects

namespace Registry

/-- A call on a registry. -/
inductive Call where
  | register (spec : EntitySpec)
  | get (name : String)

/-- A call with its answer. -/
structure Event where
  call : Call
  answer : Except Error Entity

/-- Answers a call. Only a registration can change the registry, and none that fails does. -/
def perform (r : Registry) (c : Call) : Event × Registry :=
  match c with
  | .register spec =>
    match r.register spec with
    | .ok (e, next) => (⟨c, .ok e⟩, next)
    | .error cause => (⟨c, .error cause⟩, r)
  | .get name => (⟨c, r.get name⟩, r)

/-- Answers calls one after the other. -/
def run (r : Registry) : List Call → List Event × Registry
  | [] => ([], r)
  | c :: rest =>
    let (event, next) := r.perform c
    let (events, last) := next.run rest
    (event :: events, last)

/-- Calls on a registry that is empty at first, with their answers. -/
def events (d : Dialect) (calls : List Call) : List Event := (run ⟨d, []⟩ calls).1

/-- The registry after calls on an empty one. -/
def after (d : Dialect) (calls : List Call) : Registry := (run ⟨d, []⟩ calls).2

/-- What a registration that succeeded described, and what it was answered with. -/
def Event.registration? : Event → Option (EntitySpec × Entity)
  | ⟨.register spec, .ok e⟩ => some (spec, e)
  | _ => none

/-- The registrations that succeeded. -/
def registrations (events : List Event) : List (EntitySpec × Entity) :=
  events.filterMap Event.registration?

/-- The first registration under a name that succeeded. -/
def first? (events : List Event) (name : String) : Option (EntitySpec × Entity) :=
  (registrations events).find? (·.1.name == name)

/-! ## Calls and their answers -/

section Calls

variable {d : Dialect} {r : Registry} {events : List Event}

theorem get?_append (r : Registry) (e : Entity) (name : String) :
    get? { r with entities := r.entities ++ [e] } name =
      (r.get? name).or ([e].find? (·.name == name)) :=
  List.find?_append

theorem registrations_append (events : List Event) (event : Event) :
    registrations (events ++ [event]) = registrations events ++ event.registration?.toList := by
  rw [registrations, List.filterMap_append]
  rfl

theorem first?_append (events : List Event) (event : Event) (name : String) :
    first? (events ++ [event]) name =
      (first? events name).or (event.registration?.toList.find? (·.1.name == name)) := by
  rw [first?, registrations_append, List.find?_append, ← first?]

theorem isSome_first?_iff {name : String} :
    (first? events name).isSome = true ↔ name ∈ (registrations events).map (·.1.name) := by
  rw [first?, List.find?_isSome, List.mem_map]
  simp only [beq_iff_eq]

theorem first?_eq_some {name : String} {p : EntitySpec × Entity} (h : first? events name = some p) :
    p ∈ registrations events ∧ p.1.name = name :=
  ⟨List.mem_of_find?_eq_some h, by simpa using List.find?_some h⟩

/-- A registry that has what the calls on it come to: each name the answer to the first registration
that succeeded, which is what the dialect makes of the description, and no name twice. -/
structure Reflects (r : Registry) (d : Dialect) (events : List Event) : Prop where
  dialect : r.dialect = d
  get? : ∀ name, r.get? name = (first? events name).map Prod.snd
  resolved : ∀ name p, first? events name = some p → Entity.ofSpec d p.1 = .ok p.2
  names : (r.entities.map (·.name)).Nodup

theorem reflects_empty (d : Dialect) : Reflects ⟨d, []⟩ d [] where
  dialect := rfl
  get? _ := rfl
  resolved _ _ h := by cases h
  names := List.nodup_nil

/-- Where the first registrations stay the same, so may the registry. -/
theorem Reflects.of_first?_eq (h : r.Reflects d events) {event : Event}
    (hsame : ∀ name, first? (events ++ [event]) name = first? events name) :
    r.Reflects d (events ++ [event]) where
  dialect := h.dialect
  get? name := by rw [hsame, h.get?]
  resolved name p hp := h.resolved name p (hsame name ▸ hp)
  names := h.names

/-- A lookup, or a registration that failed. -/
theorem Reflects.of_registration?_eq_none (h : r.Reflects d events) {event : Event}
    (hnone : event.registration? = none) : r.Reflects d (events ++ [event]) := by
  refine h.of_first?_eq fun name => ?_
  rw [first?_append, hnone]
  exact Option.or_none

/-- Registering a name again. -/
theorem Reflects.of_stored (h : r.Reflects d events) {spec : EntitySpec} {e : Entity}
    (hstored : r.get? spec.name = some e) :
    r.Reflects d (events ++ [⟨.register spec, .ok e⟩]) := by
  refine h.of_first?_eq fun name => ?_
  rw [first?_append]
  by_cases hname : spec.name = name
  · rw [h.get?, hname, Option.map_eq_some_iff] at hstored
    obtain ⟨p, hp, -⟩ := hstored
    rw [hp]
    rfl
  · have hother : [(spec, e)].find? (·.1.name == name) = none := by simp [hname]
    exact (congrArg _ hother).trans Option.or_none

/-- Registering a new name. -/
theorem Reflects.of_new (h : r.Reflects d events) {spec : EntitySpec} {e : Entity}
    (hnew : r.get? spec.name = none) (he : Entity.ofSpec d spec = .ok e) :
    Reflects { r with entities := r.entities ++ [e] } d
      (events ++ [⟨.register spec, .ok e⟩]) := by
  have hname : e.name = spec.name := (Entity.isOfSpec he).name
  refine ⟨h.dialect, fun name => ?_, fun name p hp => ?_, nodup_names_append h.names (hname ▸ hnew)⟩
  · have hboth : [e].find? (·.name == name) =
        ([(spec, e)].find? (·.1.name == name)).map Prod.snd := by
      by_cases hsame : spec.name = name <;> simp [hname, hsame]
    rw [get?_append, first?_append, Option.map_or, h.get?, hboth]
    rfl
  · rw [first?_append, Option.or_eq_some_iff] at hp
    rcases hp with hp | ⟨-, hp⟩
    · exact h.resolved name p hp
    · obtain rfl : p = (spec, e) := List.mem_singleton.1 (List.mem_of_find?_eq_some hp)
      exact he

/-- A call keeps what holds of the calls before it. -/
theorem Reflects.perform (h : r.Reflects d events) (c : Call) :
    (r.perform c).2.Reflects d (events ++ [(r.perform c).1]) := by
  cases c with
  | get name => exact h.of_registration?_eq_none rfl
  | register spec =>
    cases hfound : r.get? spec.name with
    | some e =>
      rw [Registry.perform, register_stored hfound]
      exact h.of_stored hfound
    | none =>
      rw [Registry.perform, register_new hfound]
      cases he : Entity.ofSpec r.dialect spec with
      | error cause => exact h.of_registration?_eq_none rfl
      | ok e => exact h.of_new hfound (h.dialect ▸ he)

/-- Any number of calls keep it. -/
theorem Reflects.run (h : r.Reflects d events) (calls : List Call) :
    (r.run calls).2.Reflects d (events ++ (r.run calls).1) := by
  induction calls generalizing r events with
  | nil =>
    rw [Registry.run, List.append_nil]
    exact h
  | cons c rest ih =>
    have hrest := ih (h.perform c)
    rw [List.append_assoc] at hrest
    exact hrest

theorem run_cons (r : Registry) (c : Call) (rest : List Call) :
    r.run (c :: rest) =
      ((r.perform c).1 :: ((r.perform c).2.run rest).1, ((r.perform c).2.run rest).2) :=
  rfl

theorem run_append (r : Registry) (before rest : List Call) :
    r.run (before ++ rest) =
      ((r.run before).1 ++ ((r.run before).2.run rest).1, ((r.run before).2.run rest).2) := by
  induction before generalizing r with
  | nil => rfl
  | cons c before ih =>
    rw [List.cons_append, run_cons, ih, run_cons]
    rfl

end Calls

section After

variable (d : Dialect) (calls : List Call)

theorem reflects_after : (after d calls).Reflects d (events d calls) :=
  (reflects_empty d).run calls

/-- One more call is answered by the registry that there is. -/
theorem events_append (c : Call) :
    events d (calls ++ [c]) = events d calls ++ [((after d calls).perform c).1] := by
  rw [events, run_append]
  rfl

theorem after_append (c : Call) : after d (calls ++ [c]) = ((after d calls).perform c).2 := by
  rw [after, run_append]
  rfl

/-- A new name is registered if the dialect has an entity for the description. -/
theorem register_after_of_new {spec : EntitySpec}
    (h : first? (events d calls) spec.name = none) :
    ((after d calls).register spec).map Prod.fst = Entity.ofSpec d spec := by
  have hr := reflects_after d calls
  have hnew : (after d calls).get? spec.name = none := by rw [hr.get?, h, Option.map_none]
  rw [register_new hnew, hr.dialect]
  cases Entity.ofSpec d spec <;> rfl

/-- What a call registers under a name, where the dialect has an entity for it. -/
def Call.resolved? (d : Dialect) (name : String) : Call → Option (EntitySpec × Entity)
  | .register spec =>
    if spec.name = name then (Entity.ofSpec d spec).toOption.map (spec, ·) else none
  | .get _ => none

/-- Under a name that is free, a call registers what the dialect makes of it. -/
theorem registration?_perform {name : String} (h : first? (events d calls) name = none) (c : Call) :
    ((after d calls).perform c).1.registration?.toList.find? (·.1.name == name) =
      c.resolved? d name := by
  cases c with
  | get other => rfl
  | register spec =>
    by_cases hname : spec.name = name
    · have hnew := register_after_of_new d calls (hname ▸ h)
      rw [Call.resolved?, if_pos hname, ← hnew, perform]
      cases (after d calls).register spec with
      | error cause => rfl
      | ok p =>
        simp [Event.registration?, hname, Except.map, Except.toOption]
    · rw [Call.resolved?, if_neg hname, perform]
      cases (after d calls).register spec with
      | error cause => rfl
      | ok p => simp [Event.registration?, hname]

/-- The registration that holds is the first under its name that the dialect has an entity for. What
else was called, and in which order, makes no difference to it. -/
theorem first?_events (name : String) :
    first? (events d calls) name = calls.findSome? (Call.resolved? d name) := by
  induction calls using List.reverseRecOn with
  | nil => rfl
  | append_singleton before c ih =>
    rw [events_append, first?_append, List.findSome?_append, ← ih]
    cases hfirst : first? (events d before) name with
    | some p => rfl
    | none =>
      rw [registration?_perform d before hfirst, List.findSome?_singleton]

/-- As many entities as there are names of registrations that succeeded. -/
theorem size_after :
    (after d calls).size = ((registrations (events d calls)).map (·.1.name)).toFinset.card := by
  have hr := reflects_after d calls
  have hnames : ((after d calls).entities.map (·.name)).toFinset =
      ((registrations (events d calls)).map (·.1.name)).toFinset := by
    ext name
    rw [List.mem_toFinset, List.mem_toFinset, ← isSome_get?_iff, ← isSome_first?_iff, hr.get?,
      Option.isSome_map]
  rw [← hnames, List.toFinset_card_of_nodup hr.names, List.length_map]
  rfl

/-- After any calls a name has what its first registration that succeeded was answered with, or
nothing if there is none. Registering it again gives that, whatever the description is, and changes
nothing; registering a free name gives what the dialect makes of the description, and changes
nothing if that fails. There are as many entities as names with a registration that succeeded. -/
theorem answers_after :
    (∀ name, (after d calls).get name =
        match first? (events d calls) name with
        | some p => .ok p.2
        | none => .error (.unknownEntity name)) ∧
      (∀ name p, first? (events d calls) name = some p →
        p ∈ registrations (events d calls) ∧ p.1.name = name ∧ Entity.ofSpec d p.1 = .ok p.2 ∧
          ∀ spec : EntitySpec, spec.name = name →
            (after d calls).register spec = .ok (p.2, after d calls)) ∧
      (∀ spec : EntitySpec, first? (events d calls) spec.name = none →
        ((after d calls).register spec).map Prod.fst = Entity.ofSpec d spec) ∧
      (∀ spec cause, (after d calls).register spec = .error cause →
        after d (calls ++ [.register spec]) = after d calls) ∧
      (after d calls).size = ((registrations (events d calls)).map (·.1.name)).toFinset.card := by
  have hr := reflects_after d calls
  refine ⟨fun name => ?_, fun name p hp => ?_, fun spec => register_after_of_new d calls,
    fun spec cause hfails => ?_, size_after d calls⟩
  · rw [get, hr.get?]
    cases first? (events d calls) name <;> rfl
  · obtain ⟨hmem, hname⟩ := first?_eq_some hp
    refine ⟨hmem, hname, hr.resolved name p hp, fun spec hspec => register_stored ?_⟩
    rw [hr.get?, hspec, hp]
    rfl
  · rw [after_append, perform, hfails]

end After

/-! ## Authors -/

/-- Authors whose number starts out as a text, for which there is no entity. -/
def wordyAuthorSpec : EntitySpec :=
  { authorSpec with fields := [(FieldSpec.named "id" .long).withDefault "first"] }

/-- Authors are registered numbered by a text, as they are, by a text again, and with another
table. -/
def authorCalls : List Call :=
  [.get "Author", .register wordyAuthorSpec, .register authorSpec, .register wordyAuthorSpec,
    .register { authorSpec with table := "WRITER" }, .register postSpec, .get "Author"]

/-- The authors of the one description that there is an entity for stay. -/
theorem authors_kept :
    ∃ e, Entity.ofSpec (Dialect.builtin .hsqldb) authorSpec = .ok e ∧
      (∀ other, Entity.ofSpec (Dialect.builtin .hsqldb) wordyAuthorSpec ≠ .ok other) ∧
      (after (Dialect.builtin .hsqldb) authorCalls).get "Author" = .ok e ∧
      (after (Dialect.builtin .hsqldb) authorCalls).register wordyAuthorSpec =
        .ok (e, after (Dialect.builtin .hsqldb) authorCalls) ∧
      (after (Dialect.builtin .hsqldb) authorCalls).get "Reader" =
        .error (.unknownEntity "Reader") ∧
      (after (Dialect.builtin .hsqldb) authorCalls).size = 2 := by
  obtain ⟨hget, hfirst, -, -, hsize⟩ := answers_after (Dialect.builtin .hsqldb) authorCalls
  have hauthor : (first? (events (Dialect.builtin .hsqldb) authorCalls) "Author").map Prod.fst =
      some authorSpec := by decide +kernel
  have hreader : (first? (events (Dialect.builtin .hsqldb) authorCalls) "Reader").map Prod.fst =
      none := by decide +kernel
  have hnames : ((registrations (events (Dialect.builtin .hsqldb) authorCalls)).map
      (·.1.name)).toFinset.card = 2 := by decide +kernel
  obtain ⟨⟨spec, e⟩, hp, rfl⟩ := Option.map_eq_some_iff.1 hauthor
  obtain ⟨-, hname, he, hagain⟩ := hfirst "Author" _ hp
  refine ⟨e, he, fun other hother => ?_, ?_, hagain wordyAuthorSpec rfl, ?_, hsize.trans hnames⟩
  · have hnone :
        (Entity.ofSpec (Dialect.builtin .hsqldb) wordyAuthorSpec).toOption.isNone = true := by
      decide +kernel
    rw [hother] at hnone
    cases hnone
  · rw [hget, hp]
  · rw [hget, Option.map_eq_none_iff.1 hreader]

end Registry

end SqlDialects
