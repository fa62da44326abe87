import SqlDialects.Proofs.ConditionTree

/-!
# A long list in several lists

Databases bound how many values a list of a condition may have. A longer list is divided, and a
value is in the list if it is in one of the parts; it is outside the list if it is outside all of
them. SQL has a third truth value, for what a comparison with `NULL` gives, and the parts have to
agree with the list on all three. This module evaluates conditions as they are read, with the values
of their placeholders taken in order, and compares the condition in parts with the list.

Results:
1. `length_le_of_mem_runs`, `ne_nil_of_mem_runs`: the parts of a list.
2. `SearchCondition.evaluate_ofRestriction`: a list in parts holds as the list does.
3. `BoundCondition.restrict_list`: what is built for a list, under any bound on its length.
-/

namespace SqlDialects

/-! ## The parts of a list -/

section Runs

variable {α β : Type} {limit : Nat} {values run : List α}

theorem length_le_of_mem_runs (hlimit : 0 < limit) (h : run ∈ runs limit values) :
    run.length ≤ limit := by
  fun_induction runs limit values with
  | case1 values _ ih =>
    rcases List.mem_cons.1 h with rfl | h
    · exact List.length_take_le _ _
    · exact ih h
  | case2 values hshort =>
    obtain rfl := List.mem_singleton.1 h
    exact Nat.not_lt.1 fun hlong => hshort ⟨hlimit, hlong⟩

theorem ne_nil_of_mem_runs (hvalues : values ≠ []) (h : run ∈ runs limit values) : run ≠ [] := by
  fun_induction runs limit values with
  | case1 values hlong ih =>
    have hdrop : values.drop limit ≠ [] := by
      rw [← List.length_pos_iff, List.length_drop]
      omega
    rcases List.mem_cons.1 h with rfl | h
    · rw [← List.length_pos_iff, List.length_take]
      omega
    · exact ih hdrop h
  | case2 values _ =>
    obtain rfl := List.mem_singleton.1 h
    exact hvalues

/-- Where a list is divided does not depend on its values. -/
theorem runs_map (f : α → β) (limit : Nat) (values : List α) :
    runs limit (values.map f) = (runs limit values).map (List.map f) := by
  fun_induction runs limit values with
  | case1 values h ih =>
    rw [runs, if_pos (by simpa using h), List.map_cons, ← ih, List.map_take, List.map_drop]
  | case2 values h => rw [runs, if_neg (by simpa using h), List.map_cons, List.map_nil]

theorem Dialect.runLengths_list (d : Dialect) {r : Restriction}
    (hr : r = .amongst ∨ r = .notAmongst) (values : List α) :
    d.runLengths r values.length = (valueRuns d.maxListLength values).map List.length := by
  have hunits : List.replicate values.length () = values.map fun _ => () := by
    rw [List.map_const']
  rw [runLengths, if_pos hr, hunits, valueRuns, runs_map, List.map_map]
  exact List.map_congr_left fun _ _ => List.length_map _

end Runs

/-! ## Three truth values -/

/-- The truth values of SQL. -/
inductive Truth where
  | no
  | unknown
  | yes
deriving DecidableEq, Repr

namespace Truth

/-- What is not known is not known to be otherwise. -/
protected def not : Truth → Truth
  | .no => .yes
  | .unknown => .unknown
  | .yes => .no

protected def or : Truth → Truth → Truth
  | .yes, _ | _, .yes => .yes
  | .unknown, _ | _, .unknown => .unknown
  | .no, .no => .no

protected def and : Truth → Truth → Truth
  | .no, _ | _, .no => .no
  | .unknown, _ | _, .unknown => .unknown
  | .yes, .yes => .yes

/-- Whether one of several holds. -/
def any (ts : List Truth) : Truth := ts.foldr .or .no

/-- Whether all of several hold. -/
def all (ts : List Truth) : Truth := ts.foldr .and .yes

theorem or_assoc (a b c : Truth) : (a.or b).or c = a.or (b.or c) := by
  cases a <;> cases b <;> cases c <;> rfl

theorem no_or (a : Truth) : Truth.or .no a = a := by
  cases a <;> rfl

theorem or_no (a : Truth) : Truth.or a .no = a := by
  cases a <;> rfl

theorem and_yes (a : Truth) : Truth.and a .yes = a := by
  cases a <;> rfl

theorem not_or (a b : Truth) : (a.or b).not = a.not.and b.not := by
  cases a <;> cases b <;> rfl

theorem any_append (as bs : List Truth) : any (as ++ bs) = (any as).or (any bs) := by
  induction as with
  | nil => exact (no_or _).symm
  | cons a as ih =>
    show a.or (any (as ++ bs)) = (a.or (any as)).or (any bs)
    rw [ih, or_assoc]

theorem any_flatten (lists : List (List Truth)) : any lists.flatten = any (lists.map any) := by
  induction lists with
  | nil => rfl
  | cons list rest ih =>
    rw [List.flatten_cons, any_append, ih]
    rfl

theorem not_any (ts : List Truth) : (any ts).not = all (ts.map Truth.not) := by
  induction ts with
  | nil => rfl
  | cons t rest ih =>
    show (t.or (any rest)).not = t.not.and (all (rest.map Truth.not))
    rw [not_or, ih]

end Truth

/-- How values are compared that are not `NULL`. -/
structure Comparison (α : Type) where
  same : α → α → Bool
  less : α → α → Bool
  isLike : α → α → Bool

namespace Comparison

variable {α : Type} (cmp : Comparison α)

/-- What a test of two values gives: with `NULL`, nothing is known. -/
def lift (test : α → α → Bool) : Option α → Option α → Truth
  | some x, some y => if test x y then .yes else .no
  | _, _ => .unknown

/-- Whether a restriction holds of a value, with its operands. -/
def holds : Restriction → Option α → List (Option α) → Truth
  | .equals, x, [y] => lift cmp.same x y
  | .notEquals, x, [y] => (lift cmp.same x y).not
  | .less, x, [y] => lift cmp.less x y
  | .lessOrEqual, x, [y] => (lift cmp.less y x).not
  | .greater, x, [y] => lift cmp.less y x
  | .greaterOrEqual, x, [y] => (lift cmp.less x y).not
  | .between, x, [y, z] => (lift cmp.less x y).not.and (lift cmp.less z x).not
  | .notBetween, x, [y, z] => ((lift cmp.less x y).not.and (lift cmp.less z x).not).not
  | .amongst, x, ys => Truth.any (ys.map (lift cmp.same x))
  | .notAmongst, x, ys => (Truth.any (ys.map (lift cmp.same x))).not
  | .like, x, [y] | .beginsWith, x, [y] | .endsWith, x, [y] => lift cmp.isLike x y
  | .notLike, x, [y] | .notBeginWith, x, [y] | .notEndWith, x, [y] => (lift cmp.isLike x y).not
  | .isNull, x, [] => if x.isNone then .yes else .no
  | .isNotNull, x, [] => if x.isSome then .yes else .no
  | _, _, _ => .unknown

/-- A value is in a list if it is in one of the parts. -/
theorem any_holds_amongst (x : Option α) (parts : List (List (Option α))) :
    Truth.any (parts.map (cmp.holds .amongst x)) = cmp.holds .amongst x parts.flatten := by
  simp only [holds, List.map_flatten, Truth.any_flatten, List.map_map]
  rfl

/-- A value is outside a list if it is outside all of the parts. -/
theorem all_holds_notAmongst (x : Option α) (parts : List (List (Option α))) :
    Truth.all (parts.map (cmp.holds .notAmongst x)) = cmp.holds .notAmongst x parts.flatten := by
  simp only [holds, List.map_flatten, Truth.any_flatten, Truth.not_any, List.map_map]
  rfl

end Comparison

/-! ## Evaluating a condition -/

namespace SearchCondition

variable {α : Type} (cmp : Comparison α) (value : Token → Option α)

/-- The values of operands, of which the placeholders take the next parameters, and the parameters
that are left. -/
def operandValues : List Token → List (Option α) → List (Option α) × List (Option α)
  | [], parameters => ([], parameters)
  | .mark _ :: rest, parameters =>
    (parameters.head?.join :: (operandValues rest parameters.tail).1,
      (operandValues rest parameters.tail).2)
  | t :: rest, parameters =>
    (value t :: (operandValues rest parameters).1, (operandValues rest parameters).2)

mutual

/-- The truth of a condition for the values of a row, and the parameters that are left. -/
def evaluate : SearchCondition → List (Option α) → Truth × List (Option α)
  | .test r subject operands, parameters =>
    (cmp.holds r (value subject) (operandValues value operands parameters).1,
      (operandValues value operands parameters).2)
  | .all parts, parameters =>
    (Truth.all (evaluateAll parts parameters).1, (evaluateAll parts parameters).2)
  | .any parts, parameters =>
    (Truth.any (evaluateAll parts parameters).1, (evaluateAll parts parameters).2)

/-- The truth of several conditions, one after the other. -/
def evaluateAll : List SearchCondition → List (Option α) → List Truth × List (Option α)
  | [], parameters => ([], parameters)
  | c :: rest, parameters =>
    ((evaluate c parameters).1 :: (evaluateAll rest (evaluate c parameters).2).1,
      (evaluateAll rest (evaluate c parameters).2).2)

end

theorem operandValues_placeholders (operands rest : List (Option α)) :
    operandValues value (List.replicate operands.length (.mark '?')) (operands ++ rest) =
      (operands, rest) := by
  induction operands with
  | nil => rfl
  | cons x operands ih =>
    rw [List.length_cons, List.replicate_succ, List.cons_append, operandValues]
    simp [ih]

/-- Conditions that are joined are evaluated one after the other, also where only one is. -/
theorem evaluate_joined (word : String) (parts : List SearchCondition)
    (parameters : List (Option α)) :
    evaluate cmp value (joined word parts) parameters =
      ((if word = "OR" then Truth.any else Truth.all) (evaluateAll cmp value parts parameters).1,
        (evaluateAll cmp value parts parameters).2) := by
  have hmany : evaluate cmp value (if word = "OR" then .any parts else .all parts) parameters =
      ((if word = "OR" then Truth.any else Truth.all) (evaluateAll cmp value parts parameters).1,
        (evaluateAll cmp value parts parameters).2) := by
    split <;> rfl
  rcases parts with _ | ⟨part, _ | ⟨next, rest⟩⟩
  · exact hmany
  · have hone (t : Truth) : (if word = "OR" then Truth.any else Truth.all) [t] = t := by
      split
      · exact Truth.or_no t
      · exact Truth.and_yes t
    simp only [joined, evaluateAll, hone]
  · exact hmany

/-- Each part of a list takes its own values. -/
theorem evaluateAll_parts (r : Restriction) (column : String) (parts : List (List (Option α)))
    (rest : List (Option α)) :
    evaluateAll cmp value (parts.map fun part =>
        .test r (.name column) (List.replicate part.length (.mark '?'))) (parts.flatten ++ rest) =
      (parts.map (cmp.holds r (value (.name column))), rest) := by
  induction parts with
  | nil => rfl
  | cons part parts ih =>
    -- The first part takes its values off the front, which leaves the others theirs.
    rw [List.flatten_cons, List.append_assoc, List.map_cons, evaluateAll, evaluate,
      operandValues_placeholders, ih]
    rfl

/-- A list in parts holds as the list does, whichever of its values are `NULL`. -/
theorem evaluate_ofRestriction (d : Dialect) (column : String) {r : Restriction}
    (hr : r = .amongst ∨ r = .notAmongst) (operands rest : List (Option α)) :
    evaluate cmp value (.ofRestriction d column r operands.length) (operands ++ rest) =
      (cmp.holds r (value (.name column)) operands, rest) := by
  have hflatten : (valueRuns d.maxListLength operands).flatten = operands := flatten_runs _ _
  have hshown : r.shown = r := by
    rcases hr with rfl | rfl <;> rfl
  have hparts := evaluateAll_parts cmp value r column (valueRuns d.maxListLength operands) rest
  rw [hflatten] at hparts
  rw [ofRestriction, hshown, d.runLengths_list hr, List.map_map, evaluate_joined,
    Function.comp_def, hparts]
  rcases hr with rfl | rfl
  · have hany := cmp.any_holds_amongst (value (.name column)) (valueRuns d.maxListLength operands)
    rw [hflatten] at hany
    simpa using hany
  · have hall := cmp.all_holds_notAmongst (value (.name column))
      (valueRuns d.maxListLength operands)
    rw [hflatten] at hall
    simpa using hall

end SearchCondition

/-! ## Lists under a bound -/

namespace BoundCondition

variable {d : Dialect} {f : Field} {r : Restriction} {n : Nat}

/-- A restriction to a list can be built for any list that is not empty. -/
theorem ofField_list (hr : r = .amongst ∨ r = .notAmongst) {negated : Bool}
    (hrule : d.conditionRule r = .amongst negated) (hn : 0 < n) (f : Field) :
    ofField d f r n = .ok (test d f r (d.runLengths r n)) := by
  have hcompound : r.isCompound = false := by
    rcases hr with rfl | rfl <;> rfl
  refine ofField_eq_ok_iff.2 ⟨hcompound, fun k hk => ?_, rfl⟩
  -- A run that is not empty is all that the rule asks for.
  have hlist := d.runLengths_list hr (List.replicate n ())
  rw [List.length_replicate] at hlist
  rw [hlist] at hk
  obtain ⟨run, hrun, rfl⟩ := List.mem_map.1 hk
  have hne : List.replicate n () ≠ [] := by simpa using Nat.ne_of_gt hn
  have hpos : 1 ≤ run.length := List.length_pos_iff.2 (ne_nil_of_mem_runs hne hrun)
  rw [hrule]
  cases negated <;>
    simp [ConditionRule.checkOperands, ConditionRule.restriction, Restriction.arity,
      Arity.accepts, ConditionRule.leastOperands, hpos]

/-- The text of a restriction is read as it is meant. -/
theorem parse_ofField (hd : d.naming.IsBuiltin)
    (hf : f.column.written = d.naming.written f.column.raw)
    (hr : (d.conditionRule r).isFaithful = true) {c : BoundCondition}
    (h : ofField d f r n = .ok c) :
    SearchCondition.parse (d.naming.tokens c.condition.text) =
      some (.ofRestriction d (d.naming.folded f.column.raw) r n) := by
  have hfactor := isFactor_ofField hd hf hr h
  obtain ⟨-, -, rfl⟩ := ofField_eq_ok_iff.1 h
  have hclosed : d.naming.IsClosed f.column.written := by
    rw [hf]
    exact (Naming.reads_written hd.hasOwnQuotes f.column.raw).1
  have hreads := Condition.reads_test hd (ConditionRule.isUsual_of_isFaithful hr) hclosed
    (d.runLengths r n)
  rw [test, hreads.2]
  exact hfactor.parse_eq

end BoundCondition

/-- The dialect of a database with another bound on the length of a list, or with none. -/
def Dialect.limited (db : Database) (limit : Option Nat) : Dialect :=
  { Dialect.builtin db with maxListLength := limit }

/-- Under any bound on the length of a list, a restriction to a list of values gives a condition
that holds where the list itself does, by the three truth values of SQL and for all values. It has
the values in order, in parts that are not empty and not longer than a positive bound. -/
theorem BoundCondition.restrict_list {db : Database} {limit : Option Nat} {spec : EntitySpec}
    {e : Entity} (he : Entity.ofSpec (.limited db limit) spec = .ok e) {field : String} {f : Field}
    (hf : e.tableField field = .ok f) {r : Restriction} (hr : r = .amongst ∨ r = .notAmongst)
    {n : Nat} (hn : 0 < n) :
    ∃ c s, restrict (.limited db limit) e field r n = .ok c ∧
      SearchCondition.parse ((Dialect.limited db limit).naming.tokens c.condition.text) = some s ∧
      (∀ (α : Type) (cmp : Comparison α) (value : Token → Option α) (operands : List (Option α)),
        operands.length = n → s.evaluate cmp value operands = (cmp.holds r
          (value (.name ((Dialect.limited db limit).naming.folded f.column.raw))) operands, [])) ∧
      ∀ (α : Type) (operands : List α), operands.length = n →
        c.condition = .test ((Dialect.limited db limit).conditionRule r) f.column.written
          ((valueRuns limit operands).map List.length) ∧
        (valueRuns limit operands).flatten = operands ∧
        ∀ run ∈ valueRuns limit operands, run ≠ [] ∧
          ∀ most, limit = some most → 0 < most → run.length ≤ most := by
  have hd : (Dialect.limited db limit).naming.IsBuiltin := Naming.isBuiltin db
  have hfaithful : ((Dialect.limited db limit).conditionRule r).isFaithful = true :=
    ConditionRule.isFaithful_conditionRule db r
  obtain ⟨negated, hrule⟩ :
      ∃ negated, (Dialect.limited db limit).conditionRule r = .amongst negated := by
    rcases hr with rfl | rfl
    · exact ⟨false, by cases db <;> rfl⟩
    · exact ⟨true, by cases db <;> rfl⟩
  obtain ⟨hfield, -⟩ := Entity.tableField_eq_ok_iff.1 hf
  have hwritten := Entity.written_of_ofSpec he f (Entity.field_eq_ok hfield).1
  have hbuilt := ofField_list hr hrule hn f
  refine ⟨_, _, by rw [restrict, hf]; exact hbuilt, parse_ofField hd hwritten hfaithful hbuilt,
    fun α cmp value operands hlength => ?_, fun α operands hlength =>
      ⟨?_, flatten_runs _ _, fun run hrun => ⟨?_, fun most hmost hpos => ?_⟩⟩⟩
  · have heval := SearchCondition.evaluate_ofRestriction cmp value (.limited db limit)
      ((Dialect.limited db limit).naming.folded f.column.raw) hr operands []
    rwa [hlength, List.append_nil] at heval
  · rw [← hlength, Dialect.runLengths_list _ hr]
    rfl
  · have hne : operands ≠ [] := by
      rintro rfl
      rw [← hlength] at hn
      cases hn
    exact ne_nil_of_mem_runs hne hrun
  · subst hmost
    exact length_le_of_mem_runs hpos hrun

/-! ## Authors -/

/-- How numbers are compared, without patterns. -/
def numberComparison : Comparison Nat := ⟨(· == ·), fun x y => decide (x < y), fun _ _ => false⟩

/-- Where lists have at most two values, five authors are ruled out by three lists. With a `NULL`
among them it is known of an author in the list that they do not match, and of no other author
whether they do. -/
theorem authors_ruledOut :
    ∃ e f c s, Entity.ofSpec (.limited .oracle (some 2)) postSpec = .ok e ∧
      e.tableField "author" = .ok f ∧
      BoundCondition.restrict (.limited .oracle (some 2)) e "author" .notAmongst 5 = .ok c ∧
      c.condition.text = "(AUTHOR NOT IN (?, ?) AND AUTHOR NOT IN (?, ?) AND AUTHOR NOT IN (?))" ∧
      SearchCondition.parse
        ((Dialect.limited .oracle (some 2)).naming.tokens c.condition.text) = some s ∧
      (s.evaluate numberComparison (fun _ => some 4) [some 1, none, some 2, some 3, some 4]).1 =
        .no ∧
      (s.evaluate numberComparison (fun _ => some 7) [some 1, none, some 2, some 3, some 4]).1 =
        .unknown := by
  obtain ⟨⟨e, f, c⟩, hall, htext⟩ : ∃ p : Entity × Field × BoundCondition, (do
      let e ← Entity.ofSpec (.limited .oracle (some 2)) postSpec
      let f ← e.tableField "author"
      let c ← BoundCondition.restrict (.limited .oracle (some 2)) e "author" .notAmongst 5
      return (e, f, c)) = .ok p ∧ (p.2.2.condition.text ==
        "(AUTHOR NOT IN (?, ?) AND AUTHOR NOT IN (?, ?) AND AUTHOR NOT IN (?))") = true :=
    exists_ok_of_any (by decide +kernel)
  obtain ⟨e, he, hall⟩ := bind_eq_ok_iff.1 hall
  obtain ⟨f, hf, hall⟩ := bind_eq_ok_iff.1 hall
  obtain ⟨c, hc, hall⟩ := bind_eq_ok_iff.1 hall
  cases pure_eq_ok_iff.1 hall
  obtain ⟨c', s, hc', hparse, heval, -⟩ :=
    BoundCondition.restrict_list he hf (.inr rfl) (n := 5) (by decide)
  obtain rfl : c = c' := Except.ok.inj (hc.symm.trans hc')
  refine ⟨e, f, c, s, he, hf, hc, by simpa using htext, hparse, ?_, ?_⟩
  · rw [heval _ _ _ _ rfl]
    rfl
  · rw [heval _ _ _ _ rfl]
    rfl

end SqlDialects
