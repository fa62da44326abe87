import SqlDialects.Proofs.Entities
import SqlDialects.Proofs.Token
import SqlDialects.Query.Condition

/-!
# The text of a condition

A condition is written as text from the inside out. This module gives the tokens of a condition,
part by part, and shows that its text is read as them: no name runs into what stands next to it,
whatever characters it has.

Results:
1. `ConditionRule.reads_write`, `reads_group`: a restriction, and parts with a word between them.
2. `BoundCondition.ofField_eq_ok_iff`, `BoundCondition.compound_eq_ok`: what building a condition
   gives.
3. `BoundCondition.IsBuilt.reads`: a condition built over an entity.
-/

namespace SqlDialects

namespace ConditionRule

/-- Comparison operators of the dialects. -/
def usualOperators : List String := ["=", "<>", "!=", "<", "<=", ">", ">="]

/-- A rule for a restriction of the kind it writes. -/
def isUsual : ConditionRule → Bool
  | .comparison r operator => r.arity == .one && usualOperators.contains operator
  | .like r _ _ => r.arity == .one
  | .compound r => r.isCompound
  | .range _ | .amongst _ | .nullCheck _ => true

theorem isUsual_conditionRule (db : Database) (r : Restriction) :
    ((Dialect.builtin db).conditionRule r).isUsual = true := by
  cases db <;> cases r <;> decide

/-- The tokens of a negation. -/
def negationTokens (negated : Bool) : List Token := if negated then [.keyword "NOT"] else []

/-- Parts with something between them, in parentheses unless there is only one. -/
def group (glue : String) : List String → String
  | [part] => part
  | parts => "(" ++ String.intercalate glue parts ++ ")"

/-- The tokens of parts in a group. -/
def groupTokens (glue : List Token) : List (List Token) → List Token
  | [part] => part
  | parts => .mark '(' :: (glue.intercalate parts ++ [.mark ')'])

theorem write_compound (r : Restriction) (column : String) (operands : List String) :
    (compound r).write column operands = group (" " ++ r.name ++ " ") operands := by
  rcases operands with _ | ⟨x, _ | ⟨y, rest⟩⟩ <;> rfl

/-- The tokens of a restriction, by those of its column and its operands. -/
def writeTokens (p : ConditionRule) (column : List Token) (operands : List (List Token)) :
    List Token :=
  match p, operands with
  | .comparison _ operator, operands =>
    column ++ operator.toList.map Token.mark ++ operands.flatten
  | .range negated, operands =>
    column ++ (negationTokens negated ++ [Token.keyword "BETWEEN"])
      ++ [Token.keyword "AND"].intercalate (operands.take 2)
  | .amongst negated, operands =>
    column ++ (negationTokens negated ++ [Token.keyword "IN", .mark '('])
      ++ ([Token.mark ','].intercalate operands ++ [Token.mark ')'])
  | .like _ negated _, operands =>
    column ++ (negationTokens negated ++ [Token.keyword "LIKE"]) ++ (operands.take 1).flatten
  | .nullCheck negated, _ =>
    column ++ (.keyword "IS" :: (negationTokens negated ++ [Token.keyword "NULL"]))
  | .compound r, operands => groupTokens [.keyword r.name] operands

/-- The texts between the parts of a statement, each with its tokens. -/
def separators : List (String × List Token) :=
  [(" ", []), ("\n\t", []), ("(", [.mark '(']), (" (", [.mark '(']), (")", [.mark ')']),
    (", ", [.mark ',']),
    (" AND ", [.keyword "AND"]), (" OR ", [.keyword "OR"]),
    (" BETWEEN ", [.keyword "BETWEEN"]), (" NOT BETWEEN ", [.keyword "NOT", .keyword "BETWEEN"]),
    (" IN (", [.keyword "IN", .mark '(']),
    (" NOT IN (", [.keyword "NOT", .keyword "IN", .mark '(']),
    (" LIKE ", [.keyword "LIKE"]), (" NOT LIKE ", [.keyword "NOT", .keyword "LIKE"]),
    (" = ", [.mark '=']), (" <> ", [.mark '<', .mark '>']), (" != ", [.mark '!', .mark '=']),
    (" < ", [.mark '<']), (" <= ", [.mark '<', .mark '=']),
    (" > ", [.mark '>']), (" >= ", [.mark '>', .mark '=']), ("?", [.mark '?'])]

section Reading

variable {r : Naming} {α : Type} {items : List α} {text : α → String} {read : α → List Token}

theorem separates_of_mem (hr : r.IsBuiltin) {s : String} {ts : List Token}
    (h : (s, ts) ∈ separators) : r.Separates s ts := by
  obtain ⟨db, rfl⟩ := hr
  have hall : ∀ p ∈ separators, (Dialect.builtin db).naming.Separates p.1 p.2 := by
    cases db <;> decide +kernel
  exact hall _ h

theorem separates_comma (hr : r.IsBuiltin) : r.Separates ", " [.mark ','] :=
  separates_of_mem hr (by simp [separators])

theorem separates_close (hr : r.IsBuiltin) : r.Separates ")" [.mark ')'] :=
  separates_of_mem hr (by simp [separators])

theorem separates_placeholder (hr : r.IsBuiltin) :
    r.Separates Value.placeholder [.mark '?'] :=
  separates_of_mem hr (by simp [separators, Value.placeholder])

theorem separates_operator (hr : r.IsBuiltin) {operator : String}
    (h : operator ∈ usualOperators) :
    r.Separates (" " ++ operator ++ " ") (operator.toList.map Token.mark) := by
  have hall : ∀ o ∈ usualOperators,
      (" " ++ o ++ " ", o.toList.map Token.mark) ∈ separators := by decide +kernel
  exact separates_of_mem hr (hall operator h)

theorem reads_null (hr : r.IsBuiltin) (negated : Bool) :
    r.StartsApart (if negated then " IS NOT NULL" else " IS NULL") ∧
      r.Reads (if negated then " IS NOT NULL" else " IS NULL")
        (.keyword "IS" :: (negationTokens negated ++ [Token.keyword "NULL"])) := by
  obtain ⟨db, rfl⟩ := hr
  cases negated <;> cases db <;> decide +kernel

/-- Texts that stand apart are read one after the other. -/
theorem reads_join (h : ∀ x ∈ items, r.Separates (text x) (read x)) :
    r.Reads (String.join (items.map text)) (items.map read).flatten := by
  induction items with
  | nil => exact Naming.reads_empty
  | cons x rest ih =>
    have hrest := ih fun y hy => h y (List.mem_cons_of_mem _ hy)
    rw [List.map_cons, String.join_cons, List.map_cons, List.flatten_cons]
    exact (h x List.mem_cons_self).reads_append hrest

theorem reads_parenthesized (hr : r.IsBuiltin) {s : String} {ts : List Token}
    (h : r.Reads s ts) : r.Reads ("(" ++ s ++ ")") (.mark '(' :: (ts ++ [.mark ')'])) := by
  have hopen : r.Separates "(" [.mark '('] := separates_of_mem hr (by simp [separators])
  have hclose := separates_close hr
  rw [String.append_assoc]
  exact hopen.reads_append (h.append hclose.reads (Or.inr hclose.starts))

theorem reads_group (hr : r.IsBuiltin) {glue : String} {gs : List Token}
    (hglue : r.Separates glue gs) (h : ∀ x ∈ items, r.Reads (text x) (read x)) :
    r.Reads (group glue (items.map text)) (groupTokens gs (items.map read)) := by
  have hlist := reads_parenthesized hr (Naming.reads_intercalate hglue h)
  rcases items with _ | ⟨x, _ | ⟨y, rest⟩⟩
  · exact hlist
  · exact h x List.mem_cons_self
  · exact hlist

/-- Conditions joined by a compound. -/
theorem reads_write_compound (hr : r.IsBuiltin) {c : Restriction} (hc : c.isCompound = true)
    (h : ∀ x ∈ items, r.Reads (text x) (read x)) (column : String) (ct : List Token) :
    r.Reads ((ConditionRule.compound c).write column (items.map text))
      ((ConditionRule.compound c).writeTokens ct (items.map read)) := by
  have hglue : r.Separates (" " ++ c.name ++ " ") [.keyword c.name] := by
    obtain rfl | rfl : c = .and ∨ c = .or := by
      revert hc
      cases c <;> decide
    · exact separates_of_mem hr (by simp [separators, Restriction.name])
    · exact separates_of_mem hr (by simp [separators, Restriction.name])
  rw [write_compound]
  exact reads_group hr hglue h

/-- A restriction over operands that stand apart. -/
theorem reads_write (hr : r.IsBuiltin) {p : ConditionRule} (hp : p.isUsual = true)
    {column : String} {ct : List Token} (hcolumn : r.Reads column ct)
    (h : ∀ x ∈ items, r.Separates (text x) (read x)) :
    r.Reads (p.write column (items.map text)) (p.writeTokens ct (items.map read)) := by
  have htake (k : Nat) : ∀ x ∈ items.take k, r.Separates (text x) (read x) :=
    fun x hx => h x (List.mem_of_mem_take hx)
  cases p with
  | comparison c operator =>
    have ho : operator ∈ usualOperators := by
      simpa [isUsual] using (Bool.and_eq_true_iff.1 hp).2
    have hs : write (.comparison c operator) column (items.map text) =
        column ++ (" " ++ operator ++ " ") ++ String.join (items.map text) := by
      simp [write, String.append_assoc]
    rw [hs]
    exact hcolumn.separated (separates_operator hr ho) (reads_join h)
  | range negated =>
    have hs : write (.range negated) column (items.map text) =
        column ++ (" " ++ negation negated ++ "BETWEEN ")
          ++ String.intercalate " AND " ((items.take 2).map text) := by
      simp [write, String.append_assoc, List.map_take]
    have hb : r.Separates (" " ++ negation negated ++ "BETWEEN ")
        (negationTokens negated ++ [Token.keyword "BETWEEN"]) := by
      cases negated <;>
        exact separates_of_mem hr (by simp [separators, negation, negationTokens])
    rw [hs, writeTokens, ← List.map_take]
    have hand : r.Separates " AND " [.keyword "AND"] :=
      separates_of_mem hr (by simp [separators])
    exact hcolumn.separated hb
      (Naming.reads_intercalate hand fun x hx => (htake 2 x hx).reads)
  | amongst negated =>
    have hs : write (.amongst negated) column (items.map text) =
        column ++ (" " ++ negation negated ++ "IN (")
          ++ (String.intercalate ", " (items.map text) ++ ")") := by
      simp [write, String.append_assoc]
    have hin : r.Separates (" " ++ negation negated ++ "IN (")
        (negationTokens negated ++ [Token.keyword "IN", .mark '(']) := by
      cases negated <;>
        exact separates_of_mem hr (by simp [separators, negation, negationTokens])
    have hclose := separates_close hr
    have hlist := Naming.reads_intercalate (separates_comma hr) fun x hx => (h x hx).reads
    rw [hs]
    exact hcolumn.separated hin (hlist.append hclose.reads (Or.inr hclose.starts))
  | like c negated wildcard =>
    have hs : write (.like c negated wildcard) column (items.map text) =
        column ++ (" " ++ negation negated ++ "LIKE ")
          ++ String.join ((items.take 1).map text) := by
      simp [write, String.append_assoc, List.map_take]
    have hlike : r.Separates (" " ++ negation negated ++ "LIKE ")
        (negationTokens negated ++ [Token.keyword "LIKE"]) := by
      cases negated <;>
        exact separates_of_mem hr (by simp [separators, negation, negationTokens])
    rw [hs, writeTokens, ← List.map_take]
    exact hcolumn.separated hlike (reads_join (htake 1))
  | nullCheck negated =>
    obtain ⟨hstart, hnull⟩ := reads_null hr negated
    exact hcolumn.append hnull (Or.inr hstart)
  | compound c => exact reads_write_compound hr hp (fun x hx => (h x hx).reads) column ct

end Reading

end ConditionRule

/-! ## Conditions -/

namespace Condition

/-- The word between the runs of a restriction. -/
def glueWord (rule : ConditionRule) : String :=
  if rule.restriction = .notAmongst then "AND" else "OR"

/-- The tokens of a restriction over `k` operands. -/
def runTokens (r : Naming) (rule : ConditionRule) (column : String) (k : Nat) : List Token :=
  rule.writeTokens (r.tokens column) (List.replicate k [.mark '?'])

mutual

/-- The tokens of a condition, part by part. -/
def parts (r : Naming) : Condition → List Token
  | .test rule column runs =>
    ConditionRule.groupTokens [.keyword (glueWord rule)] (runs.map (runTokens r rule column))
  | .compound rule conditions => rule.writeTokens [] (partsOfAll r conditions)

/-- The tokens of several conditions. -/
def partsOfAll (r : Naming) : List Condition → List (List Token)
  | [] => []
  | c :: rest => parts r c :: partsOfAll r rest

end

theorem texts_eq_map (cs : List Condition) : texts cs = cs.map text := by
  induction cs with
  | nil => rfl
  | cons c rest ih => rw [texts, ih, List.map_cons]

theorem partsOfAll_eq_map (r : Naming) (cs : List Condition) :
    partsOfAll r cs = cs.map (parts r) := by
  induction cs with
  | nil => rfl
  | cons c rest ih => rw [partsOfAll, ih, List.map_cons]

theorem text_test (rule : ConditionRule) (column : String) (runs : List Nat) :
    text (.test rule column runs) =
      ConditionRule.group (glue rule) (runs.map (writeRun rule column)) := by
  rcases runs with _ | ⟨k, _ | ⟨l, rest⟩⟩ <;> rfl

section Reading

variable {r : Naming}

theorem reads_writeRun (hr : r.IsBuiltin) {rule : ConditionRule} (hrule : rule.isUsual = true)
    {column : String} (hcolumn : r.IsClosed column) (k : Nat) :
    r.Reads (writeRun rule column k) (runTokens r rule column k) := by
  have hplaceholder : ∀ x ∈ List.replicate k (), r.Separates Value.placeholder [.mark '?'] :=
    fun _ _ => ConditionRule.separates_placeholder hr
  have hwrite := ConditionRule.reads_write hr hrule ⟨hcolumn, rfl⟩ hplaceholder
  rwa [List.map_replicate, List.map_replicate] at hwrite

theorem reads_test (hr : r.IsBuiltin) {rule : ConditionRule} (hrule : rule.isUsual = true)
    {column : String} (hcolumn : r.IsClosed column) (runs : List Nat) :
    r.Reads (text (.test rule column runs)) (parts r (.test rule column runs)) := by
  have hrun : ∀ k ∈ runs, r.Reads (writeRun rule column k) (runTokens r rule column k) :=
    fun k _ => reads_writeRun hr hrule hcolumn k
  have hglue : r.Separates (glue rule) [.keyword (glueWord rule)] := by
    unfold glue glueWord
    split <;> exact ConditionRule.separates_of_mem hr (by simp [ConditionRule.separators])
  rw [text_test, parts]
  exact ConditionRule.reads_group hr hglue hrun

theorem reads_compound (hr : r.IsBuiltin) {c : Restriction} (hc : c.isCompound = true)
    {conditions : List Condition} (h : ∀ x ∈ conditions, r.Reads x.text (x.parts r)) :
    r.Reads (text (.compound (.compound c) conditions))
      (parts r (.compound (.compound c) conditions)) := by
  rw [text, parts, texts_eq_map, partsOfAll_eq_map]
  exact ConditionRule.reads_write_compound hr hc h "" []

end Reading

end Condition

/-! ## Conditions that are built over an entity -/

/-- The runs of a list make it up, in order. -/
theorem flatten_runs {α : Type} (limit : Nat) (values : List α) :
    (runs limit values).flatten = values := by
  fun_induction runs limit values with
  | case1 values h ih => rw [List.flatten_cons, ih, List.take_append_drop]
  | case2 values _ => simp

/-- How many operands each test of a restriction gets: long lists are taken in runs. -/
def Dialect.runLengths (d : Dialect) (r : Restriction) (operands : Nat) : List Nat :=
  if r = .amongst ∨ r = .notAmongst then
    (valueRuns d.maxListLength (List.replicate operands ())).map List.length
  else [operands]

/-- However the operands are divided, there are as many of them. -/
theorem Dialect.sum_runLengths (d : Dialect) (r : Restriction) (operands : Nat) :
    (d.runLengths r operands).sum = operands := by
  unfold runLengths
  split
  · rw [valueRuns, ← List.length_flatten, flatten_runs, List.length_replicate]
  · simp

namespace BoundCondition

/-- A condition built by restricting fields and joining what has been built. -/
inductive IsBuilt (d : Dialect) (e : Entity) : BoundCondition → Prop
  | restrict {field : String} {r : Restriction} {operands : Nat} {c : BoundCondition} :
    restrict d e field r operands = .ok c → IsBuilt d e c
  | restrictView {field : String} {r : Restriction} {operands : Nat} {c : BoundCondition} :
    restrictView d e field r operands = .ok c → IsBuilt d e c
  | compound {r : Restriction} {clauses : List BoundCondition} {c : BoundCondition} :
    (∀ clause ∈ clauses, IsBuilt d e clause) → compound d r clauses = .ok c → IsBuilt d e c

/-- A restriction on a field, in runs. -/
def test (d : Dialect) (f : Field) (r : Restriction) (runs : List Nat) : BoundCondition where
  condition := .test (d.conditionRule r) f.column.written runs
  parameters := (List.range runs.sum).map fun i => f.parameter (i + 1)
  viewOnly := f.isViewOnly

/-- Clauses joined. -/
def joined (d : Dialect) (r : Restriction) (clauses : List BoundCondition) : BoundCondition where
  condition := .compound (d.conditionRule r) (clauses.map (·.condition))
  parameters := numbered (clauses.flatMap (·.parameters))
  viewOnly := clauses.any (·.viewOnly)

theorem ofField_eq_ok_iff {d : Dialect} {f : Field} {r : Restriction} {operands : Nat}
    {c : BoundCondition} :
    ofField d f r operands = .ok c ↔ r.isCompound = false ∧
      (∀ k ∈ d.runLengths r operands, (d.conditionRule r).checkOperands k = .ok ()) ∧
      test d f r (d.runLengths r operands) = c := by
  unfold ofField
  split
  · next hr =>
    constructor
    · intro h
      cases h
    · rintro ⟨h, -⟩
      simp [h] at hr
  · next hr =>
    rw [test, Dialect.sum_runLengths, bind_eq_ok_iff]
    constructor
    · rintro ⟨_, hcheck, hc⟩
      exact ⟨by simpa using hr, forM_eq_ok_iff.1 hcheck, pure_eq_ok_iff.1 hc⟩
    · rintro ⟨-, hcheck, hc⟩
      exact ⟨(), forM_eq_ok_iff.2 hcheck, pure_eq_ok_iff.2 hc⟩

theorem compound_eq_ok {d : Dialect} {r : Restriction} {clauses : List BoundCondition}
    {c : BoundCondition} (h : compound d r clauses = .ok c) :
    r.isCompound = true ∧ (d.conditionRule r).checkOperands clauses.length = .ok () ∧
      c = joined d r clauses := by
  unfold compound at h
  split at h
  · cases h
  · next hr =>
    obtain ⟨_, hcheck, hc⟩ := bind_eq_ok_iff.1 h
    exact ⟨by simpa using hr, hcheck, (pure_eq_ok_iff.1 hc).symm⟩

/-- Whatever holds of restrictions on the fields, and of what is joined from clauses if it holds of
them, holds of every condition that is built. -/
@[elab_as_elim] theorem IsBuilt.induct {d : Dialect} {e : Entity} {P : BoundCondition → Prop}
    {c : BoundCondition} (h : c.IsBuilt d e)
    (test : ∀ (f : Field) (r : Restriction) (runs : List Nat), e.field f.name = .ok f →
      r.isCompound = false → (∀ k ∈ runs, (d.conditionRule r).checkOperands k = .ok ()) →
      P (test d f r runs))
    (joined : ∀ (r : Restriction) (clauses : List BoundCondition), r.isCompound = true →
      (d.conditionRule r).checkOperands clauses.length = .ok () → (∀ c ∈ clauses, P c) →
      P (joined d r clauses)) : P c := by
  induction h with
  | restrict h =>
    obtain ⟨f, hf, hc⟩ := bind_eq_ok_iff.1 h
    obtain ⟨hf, _⟩ := Entity.tableField_eq_ok_iff.1 hf
    obtain ⟨hr, hruns, rfl⟩ := ofField_eq_ok_iff.1 hc
    obtain rfl := (Entity.field_eq_ok hf).2
    exact test f _ _ hf hr hruns
  | restrictView h =>
    obtain ⟨f, hf, hc⟩ := bind_eq_ok_iff.1 h
    obtain ⟨hr, hruns, rfl⟩ := ofField_eq_ok_iff.1 hc
    obtain rfl := (Entity.field_eq_ok hf).2
    exact test f _ _ hf hr hruns
  | compound _ h ih =>
    obtain ⟨hr, hcheck, rfl⟩ := compound_eq_ok h
    exact joined _ _ hr hcheck ih

theorem conditionRule_compound (db : Database) {r : Restriction} (hr : r.isCompound = true) :
    (Dialect.builtin db).conditionRule r = .compound r := by
  revert hr
  cases db <;> cases r <;> decide

/-- A condition that is built is read part by part. -/
theorem IsBuilt.reads {db : Database} {e : Entity} {c : BoundCondition}
    (h : c.IsBuilt (Dialect.builtin db) e)
    (he : ∀ f ∈ e.fields, (Dialect.builtin db).naming.IsClosed f.column.written) :
    (Dialect.builtin db).naming.Reads c.condition.text
      (c.condition.parts (Dialect.builtin db).naming) := by
  have hn := Naming.isBuiltin db
  refine h.induct (fun f r runs hf _ _ => ?_) (fun r clauses hr _ ih => ?_)
  · exact Condition.reads_test hn (ConditionRule.isUsual_conditionRule db r)
      (he f (Entity.field_eq_ok hf).1) runs
  · rw [joined, conditionRule_compound db hr]
    exact Condition.reads_compound hn hr (List.forall_mem_map.2 ih)

end BoundCondition

end SqlDialects
