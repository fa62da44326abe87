import Mathlib
import SqlDialects.Dialect.Builtin

/-!
# Which rules a built dialect has

A draft is given other rules for all types or restrictions, or one more rule at a time, in any order
and any number of times. This module says from the calls alone which dialect comes out of it, or
what is missing.

Types and restrictions take the same argument: a table of rules that each say what they are for, and
calls of which some replace the table and some add to it.

Results:
1. `foldl_revise`: what calls make of a table.
2. `find?_eq_some_iff_isFirst`: the first of a list that has everything once, by its position.
3. `DialectDraft.build_eq_error_iff`, `DialectDraft.build_eq_ok`: when a draft makes no dialect, and
   which rules a dialect has.
4. `DialectDraft.build_after`: both, from the calls.
-/

namespace SqlDialects

/-! ## Tables and calls on them -/

section Calls

variable {γ ρ : Type} (table? : γ → Option (List ρ)) (rule? : γ → Option ρ)

/-- The rules that a call leaves: a table of its own, or one more rule before those there are. -/
def revise (rules : List ρ) (call : γ) : List ρ :=
  (table? call).getD ((rule? call).toList ++ rules)

/-- The last table among calls. -/
def lastTable? (calls : List γ) : Option (List ρ) := calls.reverse.findSome? table?

/-- Rules added after the last table, those added last first. -/
def addedSince (calls : List γ) : List ρ :=
  (calls.reverse.takeWhile fun call => (table? call).isNone).filterMap rule?

theorem lastTable?_append (calls : List γ) (call : γ) :
    lastTable? table? (calls ++ [call]) = (table? call).or (lastTable? table? calls) := by
  rw [lastTable?, List.reverse_append, List.reverse_singleton, List.singleton_append,
    List.findSome?_cons]
  cases table? call <;> rfl

theorem addedSince_append_of_table {call : γ} {table : List ρ} (h : table? call = some table)
    (calls : List γ) : addedSince table? rule? (calls ++ [call]) = [] := by
  rw [addedSince, List.reverse_append, List.reverse_singleton, List.singleton_append,
    List.takeWhile_cons, h]
  rfl

theorem addedSince_append_of_none {call : γ} (h : table? call = none) (calls : List γ) :
    addedSince table? rule? (calls ++ [call]) =
      (rule? call).toList ++ addedSince table? rule? calls := by
  rw [addedSince, List.reverse_append, List.reverse_singleton, List.singleton_append,
    List.takeWhile_cons, h]
  cases hrule : rule? call with
  | none => exact List.filterMap_cons_none hrule
  | some rule => exact List.filterMap_cons_some hrule

/-- Calls leave the rules added since the last table in front of that table, or of the rules at the
start if there is none. -/
theorem foldl_revise (start : List ρ) (calls : List γ) :
    calls.foldl (revise table? rule?) start =
      addedSince table? rule? calls ++ (lastTable? table? calls).getD start := by
  induction calls using List.reverseRecOn with
  | nil => rfl
  | append_singleton calls call ih =>
    rw [List.foldl_append, List.foldl_cons, List.foldl_nil, ih, revise, lastTable?_append]
    cases h : table? call with
    | some table => rw [addedSince_append_of_table table? rule? h]; rfl
    | none => rw [addedSince_append_of_none table? rule? h, List.append_assoc]; rfl

/-- The last rule of a kind that was added after the last table, or else the table's own. -/
def lastOf? (start : List ρ) (calls : List γ) (p : ρ → Bool) : Option ρ :=
  ((addedSince table? rule? calls).find? p).or (((lastTable? table? calls).getD start).find? p)

theorem find?_foldl_revise (start : List ρ) (calls : List γ) (p : ρ → Bool) :
    (calls.foldl (revise table? rule?) start).find? p = lastOf? table? rule? start calls p := by
  rw [foldl_revise, List.find?_append, lastOf?]

end Calls

/-! ## Positions -/

section Positions

variable {κ : Type} (position : κ → Nat)

/-- One of a kind, with none of that kind before it. -/
structure IsFirst (p : κ → Prop) (k : κ) : Prop where
  holds : p k
  before : ∀ other, position other < position k → ¬p other

variable {position} {all : List κ}

theorem position_getElem (horder : all.map position = List.range all.length) (i : Nat)
    (hi : i < all.length) : position all[i] = i := by
  have hget : (all.map position)[i]? = (List.range all.length)[i]? := by rw [horder]
  simpa [hi] using hget

/-- A list of everything in order has each at its position. -/
theorem getElem?_position (hall : ∀ k, k ∈ all) (horder : all.map position = List.range all.length)
    (k : κ) : all[position k]? = some k := by
  obtain ⟨i, hi, rfl⟩ := List.mem_iff_getElem.1 (hall k)
  rw [position_getElem horder i hi, List.getElem?_eq_getElem hi]

/-- In it, the first that is found is the one of least position. -/
theorem find?_eq_some_iff_isFirst (hall : ∀ k, k ∈ all)
    (horder : all.map position = List.range all.length) {p : κ → Bool} {k : κ} :
    all.find? p = some k ↔ IsFirst position (p · = true) k := by
  have hat : ∀ other, ∃ h : position other < all.length, all[position other] = other :=
    fun other => List.getElem?_eq_some_iff.1 (getElem?_position hall horder other)
  rw [List.find?_eq_some_iff_getElem]
  constructor
  · rintro ⟨hk, i, hi, rfl, hbefore⟩
    refine ⟨hk, fun other hother => ?_⟩
    rw [position_getElem horder i hi] at hother
    obtain ⟨hlt, hsame⟩ := hat other
    have hnot := hbefore (position other) hother
    rw [hsame] at hnot
    simpa using hnot
  · rintro ⟨hk, hbefore⟩
    obtain ⟨hlt, hsame⟩ := hat k
    refine ⟨hk, position k, hlt, hsame, fun j hj => ?_⟩
    have hnot := hbefore all[j] (by rwa [position_getElem horder j (hj.trans hlt)])
    simpa using hnot

section Missing

variable {ρ : Type} {get? : κ → Option ρ}

theorem head?_missing_eq_some_iff (hall : ∀ k, k ∈ all)
    (horder : all.map position = List.range all.length) {k : κ} :
    (all.filter fun k => (get? k).isNone).head? = some k ↔
      IsFirst position (get? · = none) k := by
  rw [List.head?_filter, find?_eq_some_iff_isFirst hall horder]
  simp only [Option.isNone_iff_eq_none]

theorem missing_eq_nil_iff (hall : ∀ k, k ∈ all) :
    (all.filter fun k => (get? k).isNone) = [] ↔ ∀ k, get? k ≠ none := by
  simp [List.filter_eq_nil_iff, hall]

/-- Where nothing is missing, what is found in order is found by position. -/
theorem exists_inOrder (hall : ∀ k, k ∈ all) (horder : all.map position = List.range all.length)
    {found : κ → ρ} (h : ∀ k, get? k = some (found k)) :
    ∃ inOrder, all.mapM get? = some inOrder ∧ ∀ k, inOrder[position k]? = some (found k) := by
  refine ⟨all.map found, ?_, fun k => ?_⟩
  · rw [funext h]
    exact List.mapM_pure
  · rw [List.getElem?_map, getElem?_position hall horder]
    rfl

end Missing

end Positions

theorem ColumnType.map_ctorIdx_all :
    ColumnType.all.map ColumnType.ctorIdx = List.range ColumnType.all.length := by
  decide

theorem Restriction.map_ctorIdx_all :
    Restriction.all.map Restriction.ctorIdx = List.range Restriction.all.length := by
  decide

/-- Rules of all types in their order, if none is missing. -/
def ColumnRules.inOrder? (t : ColumnRules) : Option (List ColumnRule) := ColumnType.all.mapM t.get?

/-- Rules of all restrictions in their order, if none is missing. -/
def ConditionRules.inOrder? (t : ConditionRules) : Option (List ConditionRule) :=
  Restriction.all.mapM t.get?

/-! ## What a draft makes -/

namespace Dialect

theorem get?_columnRules (d : Dialect) (type : ColumnType) :
    d.columnRules.get? type = some (d.columnRule type) :=
  (Option.some_get _).symm

theorem get?_conditionRules (d : Dialect) (r : Restriction) :
    d.conditionRules.get? r = some (d.conditionRule r) :=
  (Option.some_get _).symm

end Dialect

namespace DialectDraft

/-- A draft makes no dialect exactly if a type or a restriction has no rules; the first such type is
named, and a restriction only if all types have rules. -/
theorem build_eq_error_iff {b : DialectDraft} {cause : Error} :
    b.build = .error cause ↔
      (∃ type, IsFirst ColumnType.ctorIdx (b.columnRules.get? · = none) type ∧
        cause = .missingColumnRule b.name.name type) ∨
      ((∀ type, b.columnRules.get? type ≠ none) ∧
        ∃ r, IsFirst Restriction.ctorIdx (b.conditionRules.get? · = none) r ∧
          cause = .missingConditionRule b.name.name r) := by
  have htype : ∀ type, b.columnRules.missing.head? = some type ↔
      IsFirst ColumnType.ctorIdx (b.columnRules.get? · = none) type :=
    fun _ => head?_missing_eq_some_iff ColumnType.mem_all ColumnType.map_ctorIdx_all
  have hall : b.columnRules.missing = [] ↔ ∀ type, b.columnRules.get? type ≠ none :=
    missing_eq_nil_iff ColumnType.mem_all
  have hrestriction : ∀ r, b.conditionRules.missing.head? = some r ↔
      IsFirst Restriction.ctorIdx (b.conditionRules.get? · = none) r :=
    fun _ => head?_missing_eq_some_iff Restriction.mem_all Restriction.map_ctorIdx_all
  simp only [← htype, ← hall, ← hrestriction]
  unfold build
  split
  · next type rest htypes => simp [htypes, eq_comm]
  · next htypes =>
    split
    · next r rest hrestrictions => simp [htypes, hrestrictions, eq_comm]
    · next hrestrictions => simp [htypes, hrestrictions]

/-- A dialect has the rules of its draft. -/
theorem build_eq_ok {b : DialectDraft} {d : Dialect} (h : b.build = .ok d) :
    d.columnRules = b.columnRules ∧ d.conditionRules = b.conditionRules := by
  unfold build at h
  split at h
  · cases h
  · split at h
    · cases h
    · cases h
      exact ⟨rfl, rfl⟩

/-! ## Calls on a draft -/

/-- A call on a draft. -/
inductive Call where
  /-- Other rules for all types. -/
  | columnRules (table : ColumnRules)
  /-- Rules for the type that they are for. -/
  | columnRule (rule : ColumnRule)
  /-- Other rules for all restrictions. -/
  | conditionRules (table : ConditionRules)
  /-- A rule for the restriction that it is for. -/
  | conditionRule (rule : ConditionRule)
  /-- Other traits, but for the name. -/
  | traits (change : DialectTraits → DialectTraits)

namespace Call

def columnTable? : Call → Option (List ColumnRule)
  | .columnRules table => some table.rules
  | _ => none

def columnRule? : Call → Option ColumnRule
  | .columnRule rule => some rule
  | _ => none

def conditionTable? : Call → Option (List ConditionRule)
  | .conditionRules table => some table.rules
  | _ => none

def conditionRule? : Call → Option ConditionRule
  | .conditionRule rule => some rule
  | _ => none

end Call

/-- The draft after a call. -/
def perform (b : DialectDraft) : Call → DialectDraft
  | .columnRules table => { b with columnRules := table }
  | .columnRule rule => b.withColumnRule rule
  | .conditionRules table => { b with conditionRules := table }
  | .conditionRule rule => b.withConditionRule rule
  | .traits change => { b with toDialectTraits := { change b.toDialectTraits with name := b.name } }

/-- The draft after calls. -/
def after (b : DialectDraft) (calls : List Call) : DialectDraft := calls.foldl perform b

/-- The rules of a type that calls leave: those added last since the rules of all types were
replaced last, or else the ones that they were replaced with. -/
def columnRuleAfter? (b : DialectDraft) (calls : List Call) (type : ColumnType) :
    Option ColumnRule :=
  lastOf? Call.columnTable? Call.columnRule? b.columnRules.rules calls (·.columnType == type)

/-- The rule of a restriction that calls leave. -/
def conditionRuleAfter? (b : DialectDraft) (calls : List Call) (r : Restriction) :
    Option ConditionRule :=
  lastOf? Call.conditionTable? Call.conditionRule? b.conditionRules.rules calls (·.restriction == r)

section After

variable (b : DialectDraft) (calls : List Call)

theorem name_after : (b.after calls).name = b.name := by
  induction calls generalizing b with
  | nil => rfl
  | cons call calls ih =>
    have hcall : (b.perform call).name = b.name := by cases call <;> rfl
    exact (ih _).trans hcall

theorem get?_columnRules_after :
    (b.after calls).columnRules.get? = b.columnRuleAfter? calls := by
  have hcalls : calls.foldl (revise Call.columnTable? Call.columnRule?) b.columnRules.rules =
      (b.after calls).columnRules.rules :=
    List.foldl_hom (fun b : DialectDraft => b.columnRules.rules) fun b call => by cases call <;> rfl
  funext type
  rw [ColumnRules.get?, ← hcalls, find?_foldl_revise, columnRuleAfter?]

theorem get?_conditionRules_after :
    (b.after calls).conditionRules.get? = b.conditionRuleAfter? calls := by
  have hcalls : calls.foldl (revise Call.conditionTable? Call.conditionRule?)
      b.conditionRules.rules = (b.after calls).conditionRules.rules :=
    List.foldl_hom (fun b : DialectDraft => b.conditionRules.rules) fun b call => by
      cases call <;> rfl
  funext r
  rw [ConditionRules.get?, ← hcalls, find?_foldl_revise, conditionRuleAfter?]

/-- After any calls a draft makes a dialect exactly if the calls leave rules for every type and
every restriction. Otherwise the first type without any is named, or where all types have some the
first restriction. A dialect has the rules that the calls leave, each for what it is asked for; kept in
order, they are found by position. -/
theorem build_after :
    ((∃ d, (b.after calls).build = .ok d) ↔
        (∀ type, b.columnRuleAfter? calls type ≠ none) ∧
          ∀ r, b.conditionRuleAfter? calls r ≠ none) ∧
      (∀ cause, (b.after calls).build = .error cause ↔
        (∃ type, IsFirst ColumnType.ctorIdx (b.columnRuleAfter? calls · = none) type ∧
          cause = .missingColumnRule b.name.name type) ∨
        ((∀ type, b.columnRuleAfter? calls type ≠ none) ∧
          ∃ r, IsFirst Restriction.ctorIdx (b.conditionRuleAfter? calls · = none) r ∧
            cause = .missingConditionRule b.name.name r)) ∧
      ∀ d, (b.after calls).build = .ok d →
        (∀ type, b.columnRuleAfter? calls type = some (d.columnRule type) ∧
          (d.columnRule type).columnType = type) ∧
        (∀ r, b.conditionRuleAfter? calls r = some (d.conditionRule r) ∧
          (d.conditionRule r).restriction = r) ∧
        (∃ rules, (b.after calls).columnRules.inOrder? = some rules ∧
          ∀ type, rules[type.ctorIdx]? = some (d.columnRule type)) ∧
        ∃ rules, (b.after calls).conditionRules.inOrder? = some rules ∧
          ∀ r, rules[r.ctorIdx]? = some (d.conditionRule r) := by
  have herror : ∀ cause, (b.after calls).build = .error cause ↔
      (∃ type, IsFirst ColumnType.ctorIdx (b.columnRuleAfter? calls · = none) type ∧
        cause = .missingColumnRule b.name.name type) ∨
      ((∀ type, b.columnRuleAfter? calls type ≠ none) ∧
        ∃ r, IsFirst Restriction.ctorIdx (b.conditionRuleAfter? calls · = none) r ∧
          cause = .missingConditionRule b.name.name r) := by
    intro cause
    rw [build_eq_error_iff, get?_columnRules_after, get?_conditionRules_after, name_after]
  have hok : ∀ d, (b.after calls).build = .ok d →
      b.columnRuleAfter? calls = d.columnRules.get? ∧
        b.conditionRuleAfter? calls = d.conditionRules.get? := by
    intro d hd
    obtain ⟨htypes, hrestrictions⟩ := build_eq_ok hd
    rw [← get?_columnRules_after, ← get?_conditionRules_after, htypes, hrestrictions]
    exact ⟨rfl, rfl⟩
  refine ⟨⟨?_, ?_⟩, herror, ?_⟩
  · rintro ⟨d, hd⟩
    obtain ⟨htypes, hrestrictions⟩ := hok d hd
    rw [htypes, hrestrictions]
    exact ⟨fun type => by simp [d.get?_columnRules], fun r => by simp [d.get?_conditionRules]⟩
  · rintro ⟨htypes, hrestrictions⟩
    cases hbuild : (b.after calls).build with
    | ok d => exact ⟨d, rfl⟩
    | error cause =>
      rcases (herror cause).1 hbuild with ⟨type, hfirst, -⟩ | ⟨-, r, hfirst, -⟩
      · exact absurd hfirst.holds (htypes type)
      · exact absurd hfirst.holds (hrestrictions r)
  · intro d hd
    obtain ⟨htypes, hrestrictions⟩ := hok d hd
    obtain ⟨hcolumnRules, hconditionRules⟩ := build_eq_ok hd
    rw [htypes, hrestrictions, ← hcolumnRules, ← hconditionRules]
    exact ⟨fun type => ⟨d.get?_columnRules type, d.columnType_columnRule type⟩,
      fun r => ⟨d.get?_conditionRules r, d.restriction_conditionRule r⟩,
      exists_inOrder ColumnType.mem_all ColumnType.map_ctorIdx_all d.get?_columnRules,
      exists_inOrder Restriction.mem_all Restriction.map_ctorIdx_all d.get?_conditionRules⟩

/-- Truth values are given rules before all rules are replaced, and long integers two afterwards. -/
def narrowedCalls : List Call :=
  [.columnRule (.boolean .bit), .columnRules .standard,
    .columnRule (.integer .long "NUMBER(19)" .numeric (some 19)),
    .conditionRule (.comparison .notEquals "!="), .columnRule (.integer .long "INT8" .bigInt none)]

/-- The last rules for long integers stay, and the rules for truth values are those of the table
that came after them. Without a table, the first type that was given none is missing. -/
theorem narrowed_rules_built :
    (∃ d, (hsqldb.after narrowedCalls).build = .ok d ∧
      d.columnRule .long = .integer .long "INT8" .bigInt none ∧
      d.columnRule .boolean = .boolean .native ∧
      d.conditionRule .notEquals = .comparison .notEquals "!=") ∧
      (hsqldb.after [.columnRules .empty, .columnRule .character]).build =
        .error (.missingColumnRule "hsqldb" .boolean) := by
  obtain ⟨hbuilt, -, hrules⟩ := build_after hsqldb narrowedCalls
  obtain ⟨-, hlacks, -⟩ := build_after hsqldb [.columnRules .empty, .columnRule .character]
  constructor
  · obtain ⟨d, hd⟩ := hbuilt.2
      ⟨fun type => by cases type <;> decide, fun r => by cases r <;> decide⟩
    obtain ⟨htypes, hrestrictions, -⟩ := hrules d hd
    have hlong : hsqldb.columnRuleAfter? narrowedCalls .long =
        some (.integer .long "INT8" .bigInt none) := by decide
    have hboolean : hsqldb.columnRuleAfter? narrowedCalls .boolean = some (.boolean .native) := by
      decide
    have hdiffers : hsqldb.conditionRuleAfter? narrowedCalls .notEquals =
        some (.comparison .notEquals "!=") := by decide
    exact ⟨d, hd, Option.some.inj ((htypes _).1.symm.trans hlong),
      Option.some.inj ((htypes _).1.symm.trans hboolean),
      Option.some.inj ((hrestrictions _).1.symm.trans hdiffers)⟩
  · refine (hlacks _).2 (.inl ⟨.boolean, ⟨by decide, fun other hother => ?_⟩, rfl⟩)
    cases other <;> revert hother <;> decide

end After

end DialectDraft

end SqlDialects
