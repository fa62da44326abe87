import Mathlib

/-!
# Steps on the columns of a table

The columns of a table are a set of names. A step takes names out of the set and gives it others,
and fails where a name that it needs is missing or a name that it gives is there. What a run takes
and gives balances with what it starts from and ends with, so that where a run ends never has to be
followed step by step.

Results:
1. `ColumnStep.run_balance`: the balance of a run.
2. `ColumnStep.exists_run_renames_iff`: when a list of new names runs.
3. `ColumnStep.run_changes_iff`, `ColumnStep.exists_run_additions`, `ColumnStep.exists_run_drops`:
   when changes, additions and drops do.
-/

namespace SqlDialects

/-- What a statement does to the columns of its table. -/
inductive ColumnStep where
  | add (column : String)
  /-- Something about the column changes, but not its name. -/
  | change (column : String)
  | rename (column newName : String)
  | drop (column : String)
deriving DecidableEq, Repr

namespace ColumnStep

/-- The columns after a step, if it does not fail. -/
def apply (columns : Finset String) : ColumnStep → Option (Finset String)
  | .add c => if c ∈ columns then none else some (insert c columns)
  | .change c => if c ∈ columns then some columns else none
  | .rename c n =>
    if c ∈ columns ∧ n ∉ columns then some (insert n (columns.erase c)) else none
  | .drop c => if c ∈ columns then some (columns.erase c) else none

/-- The columns after all steps, if none of them fails. -/
def run (columns : Finset String) (steps : List ColumnStep) : Option (Finset String) :=
  steps.foldlM apply columns

/-- Names that a step brings. -/
def gives : ColumnStep → Multiset String
  | .add c => {c}
  | .rename _ n => {n}
  | .change _ | .drop _ => 0

/-- Names that a step takes away. -/
def takes : ColumnStep → Multiset String
  | .drop c => {c}
  | .rename c _ => {c}
  | .add _ | .change _ => 0

/-- Names that the steps of a list bring. -/
def given (steps : List ColumnStep) : Multiset String := (steps.map gives).sum

/-- Names that the steps of a list take away. -/
def taken (steps : List ColumnStep) : Multiset String := (steps.map takes).sum

variable {S S' : Finset String}

/-! ## Runs -/

@[simp] theorem run_nil : run S [] = some S := rfl

theorem run_cons_eq_some_iff {step : ColumnStep} {steps : List ColumnStep} :
    run S (step :: steps) = some S' ↔ ∃ mid, step.apply S = some mid ∧ run mid steps = some S' := by
  rw [run, List.foldlM_cons]
  exact Option.bind_eq_some_iff

theorem run_append_eq_some_iff {first second : List ColumnStep} :
    run S (first ++ second) = some S' ↔
      ∃ mid, run S first = some mid ∧ run mid second = some S' := by
  rw [run, List.foldlM_append]
  exact Option.bind_eq_some_iff

/-! ## The balance of a run -/

@[simp] theorem given_append (first second : List ColumnStep) :
    given (first ++ second) = given first + given second := by
  simp [given]

@[simp] theorem taken_append (first second : List ColumnStep) :
    taken (first ++ second) = taken first + taken second := by
  simp [taken]

theorem apply_balance {step : ColumnStep} (h : step.apply S = some S') :
    S.val + step.gives = S'.val + step.takes := by
  cases step with
  | add c =>
    simp only [apply] at h
    split at h
    · cases h
    · next hc =>
      cases h
      rw [Finset.insert_val_of_notMem hc, gives, takes, add_zero, add_comm, Multiset.singleton_add]
  | change c =>
    simp only [apply] at h
    split at h
    · cases h
      rfl
    · cases h
  | rename c n =>
    simp only [apply] at h
    split at h
    · next hcond =>
      cases h
      have hn : n ∉ S.erase c := fun hm => hcond.2 (Finset.mem_of_mem_erase hm)
      rw [Finset.insert_val_of_notMem hn, Finset.erase_val, gives, takes, Multiset.cons_add,
        add_comm (S.val.erase c), Multiset.singleton_add, Multiset.cons_erase hcond.1, add_comm,
        Multiset.singleton_add]
    · cases h
  | drop c =>
    simp only [apply] at h
    split at h
    · next hc =>
      cases h
      rw [Finset.erase_val, gives, takes, add_zero, add_comm, Multiset.singleton_add,
        Multiset.cons_erase hc]
    · cases h

/-- What a run starts from and is given is what it ends with and has taken away. -/
theorem run_balance {steps : List ColumnStep} (h : run S steps = some S') :
    S.val + given steps = S'.val + taken steps := by
  induction steps generalizing S with
  | nil =>
    cases h
    rfl
  | cons step steps ih =>
    obtain ⟨mid, hstep, hrest⟩ := run_cons_eq_some_iff.1 h
    calc S.val + given (step :: steps)
        = S.val + step.gives + given steps := by simp [given, add_assoc]
      _ = mid.val + given steps + step.takes := by rw [apply_balance hstep, add_right_comm]
      _ = S'.val + taken (step :: steps) := by
        rw [ih hrest]
        simp [taken, add_assoc, add_comm step.takes]

/-! ## Runs of one kind of step -/

/-- New names run iff none of them is a name that is still there: one that a later step takes away,
or one that no step does. -/
theorem exists_run_renames_iff {ps : List (String × String)} (hS : ∀ p ∈ ps, p.1 ∈ S)
    (hfst : (ps.map Prod.fst).Nodup) (hsnd : (ps.map Prod.snd).Nodup)
    (hne : ∀ p ∈ ps, p.1 ≠ p.2) :
    (∃ S', run S (ps.map fun p => .rename p.1 p.2) = some S') ↔
      ps.Pairwise (fun p q => p.2 ≠ q.1) ∧ ∀ p ∈ ps, p.2 ∈ S → p.2 ∈ ps.map Prod.fst := by
  induction ps generalizing S with
  | nil => simp
  | cons p rest ih =>
    simp only [List.map_cons, List.nodup_cons, List.mem_map, not_exists, not_and] at hfst hsnd
    -- The rest starts without the old name of the first column, and with its new one.
    have hrest : ∀ q ∈ rest, q.1 ∈ insert p.2 (S.erase p.1) := fun q hq =>
      Finset.mem_insert_of_mem
        (Finset.mem_erase.2 ⟨hfst.1 q hq, hS q (List.mem_cons_of_mem _ hq)⟩)
    have ih := ih hrest hfst.2 hsnd.2 fun q hq => hne q (List.mem_cons_of_mem _ hq)
    constructor
    · rintro ⟨S', h⟩
      obtain ⟨mid, hstep, h⟩ := run_cons_eq_some_iff.1 h
      simp only [apply] at hstep
      split at hstep
      · next hcond =>
        cases hstep
        obtain ⟨hpair, hgone⟩ := ih.1 ⟨S', h⟩
        refine ⟨List.pairwise_cons.2 ⟨fun q hq he => ?_, hpair⟩, fun q hq hqS => ?_⟩
        · exact hcond.2 (he ▸ hS q (List.mem_cons_of_mem _ hq))
        · rcases List.mem_cons.1 hq with rfl | hq
          · exact absurd hqS hcond.2
          · by_cases he : q.2 = p.1
            · exact he ▸ List.mem_cons_self
            · exact List.mem_cons_of_mem _
                (hgone q hq (Finset.mem_insert_of_mem (Finset.mem_erase.2 ⟨he, hqS⟩)))
      · cases hstep
    · rintro ⟨hpair, hgone⟩
      obtain ⟨hhead, hpair⟩ := List.pairwise_cons.1 hpair
      have hnew : p.2 ∉ S := by
        intro hp
        obtain ⟨q, hq, hqp⟩ := List.mem_map.1 (hgone p List.mem_cons_self hp)
        rcases List.mem_cons.1 hq with rfl | hq
        · exact hne q List.mem_cons_self hqp
        · exact hhead q hq hqp.symm
      have hstep : (ColumnStep.rename p.1 p.2).apply S = some (insert p.2 (S.erase p.1)) :=
        if_pos ⟨hS p List.mem_cons_self, hnew⟩
      obtain ⟨S', h⟩ := ih.2 ⟨hpair, fun q hq hqS => by
        rcases Finset.mem_insert.1 hqS with he | hm
        · exact absurd he (hsnd.1 q hq)
        · obtain ⟨hqp, hqS⟩ := Finset.mem_erase.1 hm
          exact (List.mem_cons.1 (hgone q (List.mem_cons_of_mem _ hq) hqS)).resolve_left hqp⟩
      exact ⟨S', run_cons_eq_some_iff.2 ⟨_, hstep, h⟩⟩

theorem run_changes_iff {cs : List String} :
    run S (cs.map .change) = some S' ↔ S' = S ∧ ∀ c ∈ cs, c ∈ S := by
  induction cs with
  | nil => simp [eq_comm]
  | cons c rest ih =>
    rw [List.map_cons, run_cons_eq_some_iff, List.forall_mem_cons]
    simp only [apply]
    constructor
    · rintro ⟨mid, hstep, h⟩
      split at hstep
      · next hc =>
        cases hstep
        obtain ⟨rfl, hrest⟩ := ih.1 h
        exact ⟨rfl, hc, hrest⟩
      · cases hstep
    · rintro ⟨rfl, hc, hrest⟩
      exact ⟨S', if_pos hc, ih.2 ⟨rfl, hrest⟩⟩

/-- Columns that are not there can be added, and changed as soon as they are. -/
theorem exists_run_additions {as : List (String × Nat)} (hnodup : (as.map Prod.fst).Nodup)
    (hnew : ∀ a ∈ as, a.1 ∉ S) :
    ∃ S', run S (as.flatMap fun a => .add a.1 :: (List.replicate a.2 a.1).map .change) =
      some S' := by
  induction as generalizing S with
  | nil => exact ⟨S, rfl⟩
  | cons a rest ih =>
    simp only [List.map_cons, List.nodup_cons, List.mem_map, not_exists, not_and] at hnodup
    have hadd : (ColumnStep.add a.1).apply S = some (insert a.1 S) :=
      if_neg (hnew a List.mem_cons_self)
    have hchange : run (insert a.1 S) ((List.replicate a.2 a.1).map .change) =
        some (insert a.1 S) :=
      run_changes_iff.2 ⟨rfl, fun c hc => (List.eq_of_mem_replicate hc) ▸
        Finset.mem_insert_self _ _⟩
    obtain ⟨S', h⟩ := @ih (insert a.1 S) hnodup.2 fun b hb hm => by
      rcases Finset.mem_insert.1 hm with he | hm
      · exact hnodup.1 b hb he
      · exact hnew b (List.mem_cons_of_mem _ hb) hm
    refine ⟨S', ?_⟩
    rw [List.flatMap_cons, List.cons_append, run_cons_eq_some_iff]
    exact ⟨_, hadd, run_append_eq_some_iff.2 ⟨_, hchange, h⟩⟩

theorem exists_run_drops {cs : List String} (hnodup : cs.Nodup) (hS : ∀ c ∈ cs, c ∈ S) :
    ∃ S', run S (cs.map .drop) = some S' := by
  induction cs generalizing S with
  | nil => exact ⟨S, rfl⟩
  | cons c rest ih =>
    rw [List.nodup_cons] at hnodup
    obtain ⟨S', h⟩ := @ih (S.erase c) hnodup.2 fun x hx =>
      Finset.mem_erase.2 ⟨fun he => hnodup.1 (he ▸ hx), hS x (List.mem_cons_of_mem _ hx)⟩
    exact ⟨S', run_cons_eq_some_iff.2 ⟨_, if_pos (hS c List.mem_cons_self), h⟩⟩

@[simp] theorem given_renames (ps : List (String × String)) :
    given (ps.map fun p => .rename p.1 p.2) = (ps.map Prod.snd : List String) := by
  induction ps with
  | nil => rfl
  | cons p rest ih =>
    have : given ((p :: rest).map fun p => .rename p.1 p.2) =
        {p.2} + given (rest.map fun p => .rename p.1 p.2) := by simp [given, gives]
    rw [this, ih]
    rfl

@[simp] theorem taken_renames (ps : List (String × String)) :
    taken (ps.map fun p => .rename p.1 p.2) = (ps.map Prod.fst : List String) := by
  induction ps with
  | nil => rfl
  | cons p rest ih =>
    have : taken ((p :: rest).map fun p => .rename p.1 p.2) =
        {p.1} + taken (rest.map fun p => .rename p.1 p.2) := by simp [taken, takes]
    rw [this, ih]
    rfl

@[simp] theorem given_changes (cs : List String) : given (cs.map .change) = 0 := by
  simp [given, gives, Function.comp_def]

@[simp] theorem taken_changes (cs : List String) : taken (cs.map .change) = 0 := by
  simp [taken, takes, Function.comp_def]

@[simp] theorem given_additions (as : List (String × Nat)) :
    given (as.flatMap fun a => .add a.1 :: (List.replicate a.2 a.1).map .change) =
      (as.map Prod.fst : List String) := by
  induction as with
  | nil => rfl
  | cons a rest ih =>
    rw [List.flatMap_cons, given_append, ih, ← List.singleton_append, given_append, given_changes]
    rfl

@[simp] theorem taken_additions (as : List (String × Nat)) :
    taken (as.flatMap fun a => .add a.1 :: (List.replicate a.2 a.1).map .change) = 0 := by
  induction as with
  | nil => rfl
  | cons a rest ih =>
    rw [List.flatMap_cons, taken_append, ih, ← List.singleton_append, taken_append, taken_changes]
    rfl

@[simp] theorem given_drops (cs : List String) : given (cs.map .drop) = 0 := by
  simp [given, gives, Function.comp_def]

@[simp] theorem taken_drops (cs : List String) : taken (cs.map .drop) = cs := by
  induction cs with
  | nil => rfl
  | cons c rest ih =>
    have : taken ((c :: rest).map .drop) = {c} + taken (rest.map .drop) := by simp [taken, takes]
    rw [this, ih]
    rfl

end ColumnStep

end SqlDialects
