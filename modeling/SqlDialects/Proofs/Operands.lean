import SqlDialects.Proofs.ConditionText

/-!
# Which column a placeholder is compared with

A database gives the value of a parameter to the placeholder of the same number, and the placeholder
stands in a comparison with some column. This module reads that column off the tokens: the last name
before the placeholder in the same comparison. `AND` ends a comparison, but for the one that belongs
to `BETWEEN`.

Results:
1. `Focus.operands_append`: the operands of a text are those of its parts, each part read in the
   focus that the parts before it leave.
2. `Compares.intercalate`: parts with something between them that compares nothing.
3. `ConditionRule.compares_writeTokens`, `BoundCondition.IsBuilt.compares`: the placeholders of a
   condition stand for the columns of its parameters, in order.
-/

namespace SqlDialects

/-- Where a reader of comparisons is: the column that is compared, and whether the first bound of a
range is still to be followed by `AND`. -/
structure Focus where
  column : Option String := none
  inRange : Bool := false
deriving DecidableEq, Repr

namespace Focus

/-- The focus after a token. -/
def next (f : Focus) : Token → Focus
  | .name column => { f with column := some column }
  | .keyword word =>
    if word = "BETWEEN" then { f with inRange := true }
    else if word = "AND" ∧ f.inRange = true then { f with inRange := false }
    else if word ∈ ["AND", "OR", "WHERE", "SET"] then { f with column := none }
    else f
  | .number _ | .mark _ | .unclosed _ => f

/-- The focus after several tokens. -/
def after (f : Focus) (ts : List Token) : Focus := ts.foldl next f

/-- The column that each placeholder is compared with. -/
def operands (f : Focus) : List Token → List (Option String)
  | [] => []
  | t :: rest =>
    if t = .mark '?' then f.column :: (f.next t).operands rest else (f.next t).operands rest

theorem after_append (f : Focus) (ts us : List Token) :
    f.after (ts ++ us) = (f.after ts).after us := List.foldl_append

theorem operands_append (f : Focus) (ts us : List Token) :
    f.operands (ts ++ us) = f.operands ts ++ (f.after ts).operands us := by
  induction ts generalizing f with
  | nil => rfl
  | cons t rest ih =>
    simp only [List.cons_append, operands, after, List.foldl_cons, ih]
    split <;> rfl

theorem length_operands (f : Focus) (ts : List Token) :
    (f.operands ts).length = ts.count (.mark '?') := by
  induction ts generalizing f with
  | nil => rfl
  | cons t rest ih =>
    rw [operands, List.count_cons]
    by_cases h : t = .mark '?'
    · simp [h, ih]
    · simp [h, ih]

end Focus

/-- A token that leaves every focus as it is. -/
def Token.isStill : Token → Bool
  | .keyword word => word ∉ ["BETWEEN", "AND", "OR", "WHERE", "SET"]
  | .number _ | .mark _ => true
  | .name _ | .unclosed _ => false

/-- A token that compares nothing: no placeholder is in it and no range starts with it. -/
def Token.isQuiet : Token → Bool
  | .keyword word => word != "BETWEEN"
  | .name text | .unclosed text => !text.toList.contains '?'
  | .mark c => c != '?'
  | .number _ => true

theorem Token.isClean_of_isQuiet {t : Token} (h : t.isQuiet = true) : t.IsClean := by
  cases t with
  | name text => simpa [isQuiet, IsClean] using h
  | unclosed text => simpa [isQuiet, IsClean] using h
  | keyword word => trivial
  | number text => trivial
  | mark c => trivial

theorem Token.isClean_of_isStill {t : Token} (h : t.isStill = true) : t.IsClean := by
  cases t with
  | name text => cases h
  | unclosed text => cases h
  | keyword word => trivial
  | number text => trivial
  | mark c => trivial

namespace Focus

theorem next_of_isStill {t : Token} (h : t.isStill = true) (f : Focus) : f.next t = f := by
  cases t with
  | keyword word =>
    have hw : word ∉ ["BETWEEN", "AND", "OR", "WHERE", "SET"] := by simpa [Token.isStill] using h
    simp only [List.mem_cons, List.not_mem_nil, or_false, not_or] at hw
    simp [next, hw]
  | name text => cases h
  | unclosed text => cases h
  | number text => rfl
  | mark c => rfl

/-- Over tokens that leave the focus, every placeholder is compared with the column in focus. -/
theorem operands_of_isStill {ts : List Token} (h : ∀ t ∈ ts, t.isStill = true) (f : Focus) :
    f.operands ts = List.replicate (ts.count (.mark '?')) f.column ∧ f.after ts = f := by
  induction ts with
  | nil => exact ⟨rfl, rfl⟩
  | cons t rest ih =>
    obtain ⟨hops, hafter⟩ := ih fun u hu => h u (List.mem_cons_of_mem _ hu)
    have ht := next_of_isStill (h t List.mem_cons_self) f
    refine ⟨?_, by rw [after, List.foldl_cons, ht]; exact hafter⟩
    rw [operands, ht, hops, List.count_cons]
    by_cases hm : t = .mark '?'
    · simp [hm, List.replicate_succ]
    · simp [hm]

theorem inRange_next_of_isQuiet {t : Token} (h : t.isQuiet = true) {f : Focus}
    (hf : f.inRange = false) : (f.next t).inRange = false := by
  cases t with
  | keyword word =>
    have hw : word ≠ "BETWEEN" := by simpa [Token.isQuiet] using h
    rw [next, if_neg hw, if_neg (by simp [hf])]
    split
    · exact hf
    · exact hf
  | name text => exact hf
  | unclosed text => exact hf
  | number text => exact hf
  | mark c => exact hf

end Focus

/-- Tokens that a comparison starts with or that follow one, whose placeholders are compared with
these columns. -/
structure Compares (ts : List Token) (columns : List (Option String)) : Prop where
  clean : ∀ t ∈ ts, t.IsClean
  operands : ∀ f : Focus, f.inRange = false → f.operands ts = columns
  closed : ∀ f : Focus, f.inRange = false → (f.after ts).inRange = false

namespace Compares

theorem nil : Compares [] [] :=
  ⟨fun _ h => absurd h List.not_mem_nil, fun _ _ => rfl, fun _ h => h⟩

theorem append {ts us : List Token} {columns more : List (Option String)}
    (ht : Compares ts columns) (hu : Compares us more) : Compares (ts ++ us) (columns ++ more) where
  clean t h := (List.mem_append.1 h).elim (ht.clean t) (hu.clean t)
  operands f hf := by
    rw [Focus.operands_append, ht.operands f hf, hu.operands _ (ht.closed f hf)]
  closed f hf := by
    rw [Focus.after_append]
    exact hu.closed _ (ht.closed f hf)

theorem of_isQuiet {ts : List Token} (h : ∀ t ∈ ts, t.isQuiet = true) : Compares ts [] := by
  induction ts with
  | nil => exact nil
  | cons t rest ih =>
    have hq := h t List.mem_cons_self
    have hm : t ≠ .mark '?' := by
      rintro rfl
      cases hq
    have ht : Compares [t] [] := by
      refine ⟨?_, fun f _ => ?_, fun f hf => ?_⟩
      · exact List.forall_mem_singleton.2 (Token.isClean_of_isQuiet hq)
      · simp [Focus.operands, hm]
      · exact Focus.inRange_next_of_isQuiet hq hf
    exact ht.append (ih fun u hu => h u (List.mem_cons_of_mem _ hu))

/-- Parts with something between them that compares nothing. -/
theorem intercalate {α : Type} {glue : List Token} {items : List α} {read : α → List Token}
    {columns : α → List (Option String)} (hg : Compares glue [])
    (h : ∀ x ∈ items, Compares (read x) (columns x)) :
    Compares (glue.intercalate (items.map read)) (items.flatMap columns) := by
  induction items with
  | nil => exact nil
  | cons x rest ih =>
    have hx := h x List.mem_cons_self
    have hrest := ih fun y hy => h y (List.mem_cons_of_mem _ hy)
    cases rest with
    | nil => simpa using hx
    | cons y rest =>
      have hall := (hx.append hg).append hrest
      simpa [List.intercalate_cons_cons] using hall

/-- A column followed by what leaves it in focus. -/
theorem of_isStill {column : String} {ts : List Token} (hc : '?' ∉ column.toList)
    (h : ∀ t ∈ ts, t.isStill = true) :
    Compares (.name column :: ts) (List.replicate (ts.count (.mark '?')) (some column)) where
  clean := List.forall_mem_cons.2 ⟨hc, fun t ht => Token.isClean_of_isStill (h t ht)⟩
  operands f _ := by
    rw [Focus.operands, if_neg (by simp), (Focus.operands_of_isStill h _).1]
    rfl
  closed f hf := by
    rw [Focus.after, List.foldl_cons, ← Focus.after, (Focus.operands_of_isStill h _).2]
    exact hf

end Compares

/-! ## Restrictions -/

namespace ConditionRule

theorem checkOperands_eq_ok {p : ConditionRule} {k : Nat} (h : p.checkOperands k = .ok ()) :
    p.restriction.arity.accepts k = true := by
  unfold checkOperands at h
  split at h
  · cases h
  · next ha => simpa using ha

theorem isStill_operator {operator : String} (h : operator ∈ usualOperators) :
    (∀ t ∈ operator.toList.map Token.mark, t.isStill = true) ∧
      (operator.toList.map Token.mark).count (.mark '?') = 0 := by
  refine ⟨List.forall_mem_map.2 fun _ _ => rfl, ?_⟩
  revert operator
  decide +kernel

theorem isStill_negationTokens (negated : Bool) :
    (∀ t ∈ negationTokens negated, t.isStill = true) ∧
      (negationTokens negated).count (.mark '?') = 0 := by
  cases negated <;> simp [negationTokens, Token.isStill]

/-- The placeholders of a list, with the commas between them. -/
theorem isStill_placeholders (k : Nat) :
    (∀ t ∈ [Token.mark ','].intercalate (List.replicate k [.mark '?']), t.isStill = true) ∧
      ([Token.mark ','].intercalate (List.replicate k [.mark '?'])).count (.mark '?') = k := by
  induction k with
  | zero => simp
  | succ k ih =>
    cases k with
    | zero => simp [Token.isStill]
    | succ k =>
      simp only [List.replicate_succ, List.intercalate_cons_cons] at ih ⊢
      obtain ⟨hstill, hcount⟩ := ih
      refine ⟨List.forall_mem_append.2 ⟨by decide, hstill⟩, ?_⟩
      rw [List.count_append, hcount]
      exact Nat.add_comm _ _

/-- The `AND` of a range keeps its column in focus. -/
theorem compares_between {column : String} (hcolumn : '?' ∉ column.toList) (negated : Bool) :
    Compares ([Token.name column] ++ (negationTokens negated ++ [Token.keyword "BETWEEN"])
      ++ [Token.mark '?', .keyword "AND", .mark '?']) [some column, some column] where
  clean := by
    cases negated <;> simpa [negationTokens, Token.IsClean] using hcolumn
  operands f hf := by
    cases negated <;> simp [negationTokens, Focus.operands, Focus.next]
  closed f hf := by
    cases negated <;> simp [negationTokens, Focus.after, Focus.next]

/-- The placeholders of a restriction are compared with its column, as many as it has operands. -/
theorem compares_writeTokens {p : ConditionRule} (hp : p.isUsual = true)
    (hc : p.restriction.isCompound = false) {k : Nat} (hk : p.checkOperands k = .ok ()) {column : String}
    (hcolumn : '?' ∉ column.toList) :
    Compares (p.writeTokens [Token.name column] (List.replicate k [Token.mark '?']))
      (List.replicate k (some column)) := by
  have harity := checkOperands_eq_ok hk
  cases p with
  | comparison c operator =>
    obtain ⟨hone, ho⟩ : c.arity = .one ∧ operator ∈ usualOperators := by simpa [isUsual] using hp
    obtain ⟨hstill, hcount⟩ := isStill_operator ho
    obtain rfl : k = 1 := by simpa [restriction, hone, Arity.accepts] using harity
    have hall : ∀ t ∈ operator.toList.map Token.mark ++ [Token.mark '?'], t.isStill = true :=
      List.forall_mem_append.2 ⟨hstill, by simp [Token.isStill]⟩
    simpa [writeTokens, hcount] using Compares.of_isStill hcolumn hall
  | range negated =>
    obtain rfl : k = 2 := by
      cases negated <;> simpa [restriction, Restriction.arity, Arity.accepts] using harity
    exact compares_between hcolumn negated
  | amongst negated =>
    obtain ⟨hneg, hnone⟩ := isStill_negationTokens negated
    obtain ⟨hlist, hcount⟩ := isStill_placeholders k
    have hall : ∀ t ∈ (negationTokens negated ++ [Token.keyword "IN", .mark '('])
        ++ ([Token.mark ','].intercalate (List.replicate k [Token.mark '?']) ++ [Token.mark ')']),
        t.isStill = true :=
      List.forall_mem_append.2 ⟨List.forall_mem_append.2 ⟨hneg, by simp [Token.isStill]⟩,
        List.forall_mem_append.2 ⟨hlist, by simp [Token.isStill]⟩⟩
    simpa [writeTokens, hnone, hcount] using Compares.of_isStill hcolumn hall
  | like c negated wildcard =>
    obtain ⟨hneg, hnone⟩ := isStill_negationTokens negated
    have hone : c.arity = .one := by simpa [isUsual] using hp
    obtain rfl : k = 1 := by simpa [restriction, hone, Arity.accepts] using harity
    have hall : ∀ t ∈ negationTokens negated ++ [Token.keyword "LIKE", .mark '?'], t.isStill = true :=
      List.forall_mem_append.2 ⟨hneg, by simp [Token.isStill]⟩
    simpa [writeTokens, hnone] using Compares.of_isStill hcolumn hall
  | nullCheck negated =>
    obtain ⟨hneg, hnone⟩ := isStill_negationTokens negated
    obtain rfl : k = 0 := by
      cases negated <;> simpa [restriction, Restriction.arity, Arity.accepts] using harity
    have hall : ∀ t ∈ [Token.keyword "IS"] ++ (negationTokens negated ++ [Token.keyword "NULL"]),
        t.isStill = true :=
      List.forall_mem_append.2 ⟨by simp [Token.isStill],
        List.forall_mem_append.2 ⟨hneg, by simp [Token.isStill]⟩⟩
    simpa [writeTokens, hnone] using Compares.of_isStill hcolumn hall
  | compound c => exact absurd hp (by simpa [isUsual, restriction] using hc)

end ConditionRule

/-! ## The columns of parameters -/

/-- The column of the field of a name, as a statement names it. -/
def Entity.columnNamed (r : Naming) (e : Entity) (field : String) : Option String :=
  (e.field field).toOption.map fun f => r.folded f.column.raw

/-- The column of the field that a parameter stands for. -/
def Parameter.column (r : Naming) (e : Entity) (p : Parameter) : Option String :=
  p.field.bind (e.columnNamed r)

/-- The columns of an entity are written as names, and no name holds a placeholder. -/
def Entity.HasNamedColumns (r : Naming) (e : Entity) : Prop :=
  ∀ f ∈ e.fields, f.column.written = r.written f.column.raw ∧ '?' ∉ f.column.raw.toList

section Columns

variable {r : Naming} {e : Entity}

theorem column_parameter {f : Field} (hf : e.field f.name = .ok f) (i : Nat) :
    (f.parameter i).column r e = some (r.folded f.column.raw) := by
  simp [Parameter.column, Field.parameter, Entity.columnNamed, hf, Except.toOption]

theorem column_numbered (ps : List Parameter) :
    (numbered ps).map (·.column r e) = ps.map (·.column r e) := by
  refine List.ext_getElem (by simp [numbered]) fun i h1 h2 => ?_
  simp [numbered, Parameter.column]

theorem index_numbered (ps : List Parameter) :
    (numbered ps).map (·.index) = List.range' 1 (numbered ps).length := by
  refine List.ext_getElem (by simp) fun i h1 h2 => ?_
  simp [numbered, Nat.add_comm]

end Columns

/-! ## Conditions -/

theorem Compares.parenthesized {ts : List Token} {columns : List (Option String)}
    (h : Compares ts columns) : Compares (.mark '(' :: (ts ++ [.mark ')'])) columns := by
  have hopen : Compares [.mark '('] [] := .of_isQuiet (by decide)
  have hclose : Compares [.mark ')'] [] := .of_isQuiet (by decide)
  simpa using hopen.append (h.append hclose)

theorem Compares.group {α : Type} {glue : List Token} {items : List α} {read : α → List Token}
    {columns : α → List (Option String)} (hg : Compares glue [])
    (h : ∀ x ∈ items, Compares (read x) (columns x)) :
    Compares (ConditionRule.groupTokens glue (items.map read)) (items.flatMap columns) := by
  have hlist := (Compares.intercalate hg h).parenthesized
  rcases items with _ | ⟨x, _ | ⟨y, rest⟩⟩
  · exact hlist
  · simpa [ConditionRule.groupTokens] using h x List.mem_cons_self
  · exact hlist

namespace Condition

variable {r : Naming}

/-- The placeholders of a restriction are compared with its column, in whatever runs they come. -/
theorem compares_test (hr : r.IsBuiltin) {rule : ConditionRule} (hrule : rule.isUsual = true)
    (hc : rule.restriction.isCompound = false) {runs : List Nat}
    (hruns : ∀ k ∈ runs, rule.checkOperands k = .ok ()) {raw : String} (hraw : '?' ∉ raw.toList) :
    Compares (parts r (.test rule (r.written raw) runs))
      (List.replicate runs.sum (some (r.folded raw))) := by
  have hrun : ∀ k ∈ runs, Compares (runTokens r rule (r.written raw) k)
      (List.replicate k (some (r.folded raw))) := by
    intro k hk
    rw [runTokens, (Naming.reads_written hr.hasOwnQuotes raw).2]
    exact ConditionRule.compares_writeTokens hrule hc (hruns k hk) (Naming.notMem_folded hraw)
  have hglue : Compares [.keyword (glueWord rule)] [] := by
    unfold glueWord
    split <;> exact .of_isQuiet (by decide)
  have hsum : (runs.flatMap fun k => List.replicate k (some (r.folded raw))) =
      List.replicate runs.sum (some (r.folded raw)) := by
    rw [List.eq_replicate_iff]
    refine ⟨by simp [List.length_flatMap], fun b hb => ?_⟩
    obtain ⟨k, -, hk⟩ := List.mem_flatMap.1 hb
    exact List.eq_of_mem_replicate hk
  rw [← hsum, parts]
  exact .group hglue hrun

theorem compares_compound {c : Restriction} (hc : c.isCompound = true) {α : Type} {items : List α}
    {condition : α → Condition} {columns : α → List (Option String)}
    (h : ∀ x ∈ items, Compares ((condition x).parts r) (columns x)) :
    Compares (parts r (.compound (.compound c) (items.map condition)))
      (items.flatMap columns) := by
  have hglue : Compares [.keyword c.name] [] := by
    refine .of_isQuiet ?_
    revert hc
    cases c <;> decide
  rw [parts, partsOfAll_eq_map, List.map_map]
  exact .group hglue h

end Condition

namespace BoundCondition

variable {db : Database} {e : Entity} {c : BoundCondition}

/-- The placeholders of a condition are compared with the columns of its parameters, in order. -/
theorem IsBuilt.compares (h : c.IsBuilt (Dialect.builtin db) e)
    (he : e.HasNamedColumns (Dialect.builtin db).naming) :
    Compares (c.condition.parts (Dialect.builtin db).naming)
      (c.parameters.map (·.column (Dialect.builtin db).naming e)) := by
  refine h.induct (fun f r runs hf hr hruns => ?_) (fun r clauses hr _ ih => ?_)
  · obtain ⟨hwritten, hraw⟩ := he f (Entity.field_eq_ok hf).1
    have hcolumns : (test (Dialect.builtin db) f r runs).parameters.map
        (·.column (Dialect.builtin db).naming e) =
          List.replicate runs.sum (some ((Dialect.builtin db).naming.folded f.column.raw)) := by
      simp [test, Function.comp_def, column_parameter hf]
    rw [hcolumns, test, hwritten]
    exact Condition.compares_test (Naming.isBuiltin db) (ConditionRule.isUsual_conditionRule db r)
      (by rwa [Dialect.restriction_conditionRule]) hruns hraw
  · rw [joined, conditionRule_compound db hr, column_numbered, List.map_flatMap]
    exact Condition.compares_compound hr ih

/-- Every parameter of a condition stands for a field. -/
theorem IsBuilt.isSome_column (h : c.IsBuilt (Dialect.builtin db) e) :
    ∀ p ∈ c.parameters, (p.column (Dialect.builtin db).naming e).isSome = true := by
  refine h.induct (fun f r runs hf _ _ => ?_) (fun r clauses _ _ ih => ?_)
  · refine List.forall_mem_map.2 fun i _ => ?_
    rw [column_parameter hf]
    rfl
  · -- Numbering changes no parameter's field, so it is enough to look at those of the clauses.
    have hcolumns : ∀ o ∈ (clauses.flatMap (·.parameters)).map
        (·.column (Dialect.builtin db).naming e), o.isSome = true := by
      refine List.forall_mem_map.2 fun p hp => ?_
      obtain ⟨clause, hclause, hp⟩ := List.mem_flatMap.1 hp
      exact ih clause hclause p hp
    rw [← column_numbered] at hcolumns
    exact List.forall_mem_map.1 hcolumns

end BoundCondition

end SqlDialects
