import Mathlib

/-!
# Steps on the constraints that hold defaults

Constraints that hold defaults are a set of names. A step adds a name or drops one, and fails where
the name is there already or missing. A change of a default drops what was there and adds what is
to be, under one name. So changes under different names do not meet, and whether they can be made
shows at the start.

Results:
1. `DefaultStep.run_adds`: adding constraints with names of their own.
2. `DefaultChange.exists_run_iff`: when changes with names of their own can be made.
-/

namespace SqlDialects

/-- What a statement does to the constraints that hold defaults. -/
inductive DefaultStep where
  | add (name : String)
  | drop (name : String)
deriving DecidableEq, Repr

namespace DefaultStep

/-- The constraint that a step is on. -/
def name : DefaultStep → String
  | .add n | .drop n => n

/-- The constraints after a step, if it does not fail. -/
def apply (names : Finset String) : DefaultStep → Option (Finset String)
  | .add n => if n ∈ names then none else some (insert n names)
  | .drop n => if n ∈ names then some (names.erase n) else none

/-- The constraints after all steps, if none of them fails. -/
def run (names : Finset String) (steps : List DefaultStep) : Option (Finset String) :=
  steps.foldlM apply names

variable {S S' : Finset String}

@[simp] theorem run_nil : run S [] = some S := rfl

theorem run_cons_eq_some_iff {step : DefaultStep} {steps : List DefaultStep} :
    run S (step :: steps) = some S' ↔ ∃ mid, step.apply S = some mid ∧ run mid steps = some S' := by
  rw [run, List.foldlM_cons]
  exact Option.bind_eq_some_iff

theorem run_append_eq_some_iff {first second : List DefaultStep} :
    run S (first ++ second) = some S' ↔
      ∃ mid, run S first = some mid ∧ run mid second = some S' := by
  rw [run, List.foldlM_append]
  exact Option.bind_eq_some_iff

theorem apply_add_eq_some_iff {n : String} :
    apply S (.add n) = some S' ↔ n ∉ S ∧ S' = insert n S := by
  show (if n ∈ S then none else some (insert n S)) = some S' ↔ _
  by_cases hn : n ∈ S
  · simp [hn]
  · simp [hn, eq_comm]

theorem apply_drop_eq_some_iff {n : String} :
    apply S (.drop n) = some S' ↔ n ∈ S ∧ S' = S.erase n := by
  show (if n ∈ S then some (S.erase n) else none) = some S' ↔ _
  by_cases hn : n ∈ S
  · simp [hn, eq_comm]
  · simp [hn]

/-- A step leaves the other constraints as they are. -/
theorem mem_iff_of_apply {step : DefaultStep} (h : step.apply S = some S') {n : String}
    (hn : n ≠ step.name) : n ∈ S' ↔ n ∈ S := by
  cases step with
  | add name =>
    obtain ⟨-, rfl⟩ := apply_add_eq_some_iff.1 h
    rw [Finset.mem_insert]
    exact or_iff_right hn
  | drop name =>
    obtain ⟨-, rfl⟩ := apply_drop_eq_some_iff.1 h
    rw [Finset.mem_erase]
    exact and_iff_right hn

/-- So do all steps. -/
theorem mem_iff_of_run {steps : List DefaultStep} (h : run S steps = some S') {n : String}
    (hn : ∀ step ∈ steps, n ≠ step.name) : n ∈ S' ↔ n ∈ S := by
  induction steps generalizing S with
  | nil =>
    cases h
    rfl
  | cons step rest ih =>
    obtain ⟨mid, hstep, hrest⟩ := run_cons_eq_some_iff.1 h
    obtain ⟨hhead, htail⟩ := List.forall_mem_cons.1 hn
    rw [ih hrest htail, mem_iff_of_apply hstep hhead]

/-- New constraints with names of their own can all be added. -/
theorem run_adds {names : List String} (hnodup : names.Nodup) (hnew : ∀ n ∈ names, n ∉ S) :
    run S (names.map .add) = some (S ∪ names.toFinset) := by
  induction names generalizing S with
  | nil => simp
  | cons n rest ih =>
    obtain ⟨hn, hrest⟩ := List.nodup_cons.1 hnodup
    obtain ⟨hhead, htail⟩ := List.forall_mem_cons.1 hnew
    have hmid : ∀ m ∈ rest, m ∉ insert n S := by
      intro m hm hmem
      rcases Finset.mem_insert.1 hmem with rfl | hmem
      · exact hn hm
      · exact htail m hm hmem
    rw [List.map_cons, run_cons_eq_some_iff]
    refine ⟨insert n S, apply_add_eq_some_iff.2 ⟨hhead, rfl⟩, ?_⟩
    rw [ih hrest hmid, List.toFinset_cons, Finset.insert_union, Finset.union_insert]

end DefaultStep

/-- What becomes of the default of one column, under the name that its constraint has now. -/
structure DefaultChange where
  name : String
  /-- Whether there was a default. -/
  had : Bool
  /-- Whether there is to be one. -/
  has : Bool
deriving DecidableEq, Repr

namespace DefaultChange

variable {S S' : Finset String}

/-- The default that was there is dropped before the new one is added. -/
def steps (c : DefaultChange) : List DefaultStep :=
  (if c.had then [.drop c.name] else []) ++ if c.has then [.add c.name] else []

/-- Whether the change finds what it drops, or the name free that it adds. -/
def Fits (c : DefaultChange) (names : Finset String) : Prop :=
  (c.had = true → c.name ∈ names) ∧ (c.had = false → c.has = true → c.name ∉ names)

theorem name_of_mem_steps {c : DefaultChange} : ∀ step ∈ c.steps, step.name = c.name := by
  intro step hstep
  unfold steps at hstep
  rcases List.mem_append.1 hstep with hstep | hstep
  · split at hstep
    · rw [List.mem_singleton.1 hstep]
      rfl
    · cases hstep
  · split at hstep
    · rw [List.mem_singleton.1 hstep]
      rfl
    · cases hstep

theorem exists_run_steps_iff (c : DefaultChange) :
    (∃ S', DefaultStep.run S c.steps = some S') ↔ c.Fits S := by
  obtain ⟨name, had, has⟩ := c
  cases had with
  | false =>
    cases has with
    | false => simp [steps, Fits]
    | true =>
      simp [steps, Fits, DefaultStep.run_cons_eq_some_iff, DefaultStep.apply_add_eq_some_iff]
  | true =>
    cases has with
    | false =>
      simp [steps, Fits, DefaultStep.run_cons_eq_some_iff, DefaultStep.apply_drop_eq_some_iff]
    | true =>
      -- Once the old constraint is dropped, its name is free for the new one.
      simp [steps, Fits, DefaultStep.run_cons_eq_some_iff, DefaultStep.apply_drop_eq_some_iff,
        DefaultStep.apply_add_eq_some_iff]

/-- A change of one default does not matter to another. -/
theorem fits_iff_of_run {c other : DefaultChange} (h : DefaultStep.run S c.steps = some S')
    (hname : other.name ≠ c.name) : other.Fits S' ↔ other.Fits S := by
  have hmem : other.name ∈ S' ↔ other.name ∈ S :=
    DefaultStep.mem_iff_of_run h fun step hstep => by rwa [name_of_mem_steps step hstep]
  unfold Fits
  rw [hmem]

/-- Changes with names of their own can be made one after the other exactly if each of them can be
made at the start. -/
theorem exists_run_iff {cs : List DefaultChange} (hnodup : (cs.map (·.name)).Nodup) :
    (∃ S', DefaultStep.run S (cs.flatMap steps) = some S') ↔ ∀ c ∈ cs, c.Fits S := by
  induction cs generalizing S with
  | nil => simp
  | cons c rest ih =>
    rw [List.map_cons, List.nodup_cons] at hnodup
    obtain ⟨hown, hrest⟩ := hnodup
    have hother : ∀ other ∈ rest, other.name ≠ c.name := fun other hmem he =>
      hown (he ▸ List.mem_map_of_mem hmem)
    rw [List.flatMap_cons, List.forall_mem_cons]
    constructor
    · rintro ⟨S', hrun⟩
      obtain ⟨mid, hfirst, hlast⟩ := DefaultStep.run_append_eq_some_iff.1 hrun
      refine ⟨(exists_run_steps_iff c).1 ⟨mid, hfirst⟩, fun other hmem => ?_⟩
      exact (fits_iff_of_run hfirst (hother other hmem)).1 ((ih hrest).1 ⟨S', hlast⟩ other hmem)
    · rintro ⟨hfits, hall⟩
      obtain ⟨mid, hfirst⟩ := (exists_run_steps_iff c).2 hfits
      obtain ⟨S', hlast⟩ := (ih hrest).2 fun other hmem =>
        (fits_iff_of_run hfirst (hother other hmem)).2 (hall other hmem)
      exact ⟨S', DefaultStep.run_append_eq_some_iff.2 ⟨mid, hfirst, hlast⟩⟩

end DefaultChange

end SqlDialects
