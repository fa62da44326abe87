import SqlDialects.Proofs.Operands

/-!
# A condition as its database understands it

A database reads the tokens of a condition by the rules of SQL: a test is a column with an operator
and its operands, where `BETWEEN` takes the next `AND` for itself; tests and conditions in
parentheses are joined by `AND`, and what that gives by `OR`. This module has a reader by these
rules, which answers with a tree, and says what it makes of tests and of groups, whatever follows
them.

Results:
1. `SearchCondition.isFactor_writeTokens`: a restriction is read as the test that it writes.
2. `SearchCondition.isFactor_groupTokens`: a group is read as its parts, joined by their word.
3. `SearchCondition.parse_joined`: parts without parentheses are read so at the top as well.
-/

namespace SqlDialects

/-- A condition as it is understood. -/
inductive SearchCondition where
  /-- A column compared with operands. -/
  | test (restriction : Restriction) (subject : Token) (operands : List Token)
  | all (parts : List SearchCondition)
  | any (parts : List SearchCondition)

/-- Reads the start of some tokens, and answers with what is left of them. -/
abbrev Reader (α : Type) := List Token → Option (α × List Token)

/-- What a test can be of: a column, or the number of a row. -/
def Token.isSubject : Token → Bool
  | .name _ => true
  | .keyword word => word == "ROWNUM"
  | .number _ | .mark _ | .unclosed _ => false

/-- What a test can compare with. -/
def Token.isOperand : Token → Bool
  | .mark c => c == '?'
  | .number _ => true
  | .name _ | .keyword _ | .unclosed _ => false

namespace SearchCondition

/-- Comparison operators, the longer ones first. -/
def operators : List (String × Restriction) :=
  [("<>", .notEquals), ("!=", .notEquals), ("<=", .lessOrEqual), (">=", .greaterOrEqual),
    ("=", .equals), ("<", .less), (">", .greater)]

/-- Operators that are words. -/
def wordOperators : List (List String × Restriction) :=
  [(["BETWEEN"], .between), (["NOT", "BETWEEN"], .notBetween), (["IN"], .amongst),
    (["NOT", "IN"], .notAmongst), (["LIKE"], .like), (["NOT", "LIKE"], .notLike),
    (["IS", "NULL"], .isNull), (["IS", "NOT", "NULL"], .isNotNull)]

/-- What stands between a column and its operands. -/
def phrases : List (List Token × Restriction) :=
  operators.map (fun (operator, r) => (operator.toList.map Token.mark, r)) ++
    wordOperators.map (fun (words, r) => (words.map Token.keyword, r))

/-- The operands of a list up to its closing parenthesis. -/
def readList : Reader (List Token)
  | t :: .mark ')' :: rest => if t.isOperand then some ([t], rest) else none
  | t :: .mark ',' :: rest =>
    if t.isOperand then (readList rest).map fun (ts, rest) => (t :: ts, rest) else none
  | _ => none

/-- Operands, as many as are taken. The two of a range have an `AND` between them. -/
def readOperands : Arity → Reader (List Token)
  | .none, ts => some ([], ts)
  | .one, t :: rest => if t.isOperand then some ([t], rest) else none
  | .two, t :: .keyword "AND" :: u :: rest =>
    if t.isOperand && u.isOperand then some ([t, u], rest) else none
  | .many, .mark '(' :: rest => readList rest
  | _, _ => none

/-- A test: a column, an operator and its operands. -/
def readTest : Reader SearchCondition
  | subject :: rest =>
    if subject.isSubject then do
      let (phrase, r) ← phrases.find? (·.1.isPrefixOf rest)
      let (operands, rest) ← readOperands r.arity (rest.drop phrase.length)
      return (.test r subject operands, rest)
    else none
  | [] => none

/-- Items with a word between them, at most `n`. -/
def readSeparated {α : Type} (word : String) (item : Reader α) : Nat → Reader (List α)
  | 0, _ => none
  | n + 1, ts => do
    let (x, rest) ← item ts
    if rest.head? = some (.keyword word) then
      let (xs, rest) ← readSeparated word item n rest.tail
      return (x :: xs, rest)
    else return ([x], rest)

/-- Parts joined by a word. One part stands for itself. -/
def joined (word : String) : List SearchCondition → SearchCondition
  | [part] => part
  | parts => if word = "OR" then .any parts else .all parts

/-- Parts joined by a word, at most `n`. -/
def readJoined (word : String) (n : Nat) (part : Reader SearchCondition) :
    Reader SearchCondition :=
  fun ts => (readSeparated word part n ts).map fun (parts, rest) => (joined word parts, rest)

/-- `AND` binds tighter than `OR`. -/
def readExpression (n : Nat) (factor : Reader SearchCondition) : Reader SearchCondition :=
  readJoined "OR" n (readJoined "AND" n factor)

/-- A test, or a condition in parentheses that holds less than `n` tokens. -/
def readFactor : Nat → Reader SearchCondition
  | n + 1, .mark '(' :: inner =>
    match readExpression n (readFactor n) inner with
    | some (c, .mark ')' :: rest) => some (c, rest)
    | _ => none
  | _, ts => readTest ts

/-- The condition that some tokens are, all of them. -/
def parse (ts : List Token) : Option SearchCondition :=
  match readExpression (ts.length + 1) (readFactor (ts.length + 1)) ts with
  | some (c, []) => some c
  | _ => none

variable {α β : Type} {word : String} {n : Nat} {items : List β} {read : β → List Token}

/-! ## Parts joined by a word -/

theorem length_le_intercalate (g : Token) (read : β → List Token) (items : List β) :
    items.length ≤ ([g].intercalate (items.map read)).length + 1 := by
  induction items with
  | nil => exact Nat.zero_le _
  | cons x rest ih =>
    cases rest with
    | nil => simp
    | cons y rest =>
      simp only [List.map_cons, List.intercalate_cons_cons, List.length_append, List.length_cons,
        List.length_nil] at ih ⊢
      omega

theorem length_le_of_mem {x : β} (h : x ∈ items) (g : Token) (read : β → List Token) :
    (read x).length ≤ ([g].intercalate (items.map read)).length := by
  induction items with
  | nil => cases h
  | cons first rest ih =>
    cases rest with
    | nil =>
      obtain rfl := List.mem_singleton.1 h
      simp
    | cons next rest =>
      simp only [List.map_cons, List.intercalate_cons_cons, List.length_append] at ih ⊢
      rcases List.mem_cons.1 h with rfl | h
      · omega
      · have := ih h
        omega

/-- Items with a word between them are read one by one, if each of them is read in front of whatever
ends the last one. -/
theorem readSeparated_intercalate {item : Reader α} {value : β → α} (Ends : List Token → Prop)
    (hword : ∀ rest, Ends (.keyword word :: rest))
    (hitem : ∀ x ∈ items, ∀ rest, Ends rest → item (read x ++ rest) = some (value x, rest))
    (hne : items ≠ []) (hn : items.length ≤ n) {rest : List Token} (hends : Ends rest)
    (hrest : rest.head? ≠ some (.keyword word)) :
    readSeparated word item n ([.keyword word].intercalate (items.map read) ++ rest) =
      some (items.map value, rest) := by
  induction items generalizing n with
  | nil => exact absurd rfl hne
  | cons x items ih =>
    obtain ⟨n, rfl⟩ : ∃ m, n = m + 1 := Nat.exists_eq_add_one_of_ne_zero (by rintro rfl; simp at hn)
    cases items with
    | nil =>
      have hx := hitem x List.mem_cons_self rest hends
      simp [readSeparated, hx, hrest]
    | cons y items =>
      have hx := hitem x List.mem_cons_self
        (.keyword word :: ([.keyword word].intercalate ((y :: items).map read) ++ rest)) (hword _)
      have hitems := ih (fun z hz => hitem z (List.mem_cons_of_mem _ hz)) (List.cons_ne_nil _ _)
        (Nat.le_of_succ_le_succ hn)
      have hsplit : [Token.keyword word].intercalate ((x :: y :: items).map read) ++ rest =
          read x ++ (.keyword word ::
            ([.keyword word].intercalate ((y :: items).map read) ++ rest)) := by
        simp [List.intercalate_cons_cons]
      rw [hsplit, readSeparated, hx]
      simp only [bind, Option.bind_some, List.head?_cons, if_pos, List.tail_cons, hitems]
      rfl

theorem readJoined_intercalate {part : Reader SearchCondition} {value : β → SearchCondition}
    (Ends : List Token → Prop) (hword : ∀ rest, Ends (.keyword word :: rest))
    (hpart : ∀ x ∈ items, ∀ rest, Ends rest → part (read x ++ rest) = some (value x, rest))
    (hne : items ≠ []) (hn : items.length ≤ n) {rest : List Token} (hends : Ends rest)
    (hrest : rest.head? ≠ some (.keyword word)) :
    readJoined word n part ([.keyword word].intercalate (items.map read) ++ rest) =
      some (joined word (items.map value), rest) := by
  rw [readJoined, readSeparated_intercalate Ends hword hpart hne hn hends hrest]
  rfl

/-- One part is joined with nothing. -/
theorem readJoined_single {part : Reader SearchCondition} {ts : List Token} {c : SearchCondition}
    {rest : List Token} (hpart : part (ts ++ rest) = some (c, rest)) (hn : 0 < n)
    (hrest : rest.head? ≠ some (.keyword word)) :
    readJoined word n part (ts ++ rest) = some (c, rest) := by
  obtain ⟨n, rfl⟩ := Nat.exists_eq_add_one.2 hn
  simp [readJoined, readSeparated, hpart, hrest, joined]

/-- Whichever word joins them, parts are read up to what neither word follows. -/
theorem readExpression_intercalate (hword : word = "AND" ∨ word = "OR")
    {factor : Reader SearchCondition} {value : β → SearchCondition}
    (hfactor : ∀ x ∈ items, ∀ rest, factor (read x ++ rest) = some (value x, rest))
    (hne : items ≠ []) (hn : items.length ≤ n) (rest : List Token)
    (hand : rest.head? ≠ some (.keyword "AND")) (hor : rest.head? ≠ some (.keyword "OR")) :
    readExpression n factor ([.keyword word].intercalate (items.map read) ++ rest) =
      some (joined word (items.map value), rest) := by
  have hpos : 0 < n := Nat.lt_of_lt_of_le (List.length_pos_iff.2 hne) hn
  rcases hword with rfl | rfl
  · have hall := readJoined_intercalate (fun _ => True) (fun _ => trivial)
      (fun x hx rest _ => hfactor x hx rest) hne hn trivial hand
    exact readJoined_single hall hpos hor
  · -- Each of the parts is on its own between two `OR`s.
    have hpart : ∀ x ∈ items, ∀ rest : List Token, rest.head? ≠ some (.keyword "AND") →
        readJoined "AND" n factor (read x ++ rest) = some (value x, rest) :=
      fun x hx rest hrest => readJoined_single (hfactor x hx rest) hpos hrest
    exact readJoined_intercalate (fun rest => rest.head? ≠ some (.keyword "AND")) (by simp) hpart
      hne hn hand hor

/-! ## Factors -/

/-- Tokens that are read as a factor, whatever follows them. -/
def IsFactor (ts : List Token) (c : SearchCondition) : Prop :=
  ∀ n rest, ts.length ≤ n → readFactor n (ts ++ rest) = some (c, rest)

theorem readFactor_of_ne {t : Token} (h : t ≠ .mark '(') (n : Nat) (rest : List Token) :
    readFactor n (t :: rest) = readTest (t :: rest) := by
  unfold readFactor
  split
  · next heq => exact absurd (List.cons.inj heq).1 h
  · rfl

/-- Factors joined by a word are read where there are levels enough for all of their tokens. -/
theorem readExpression_factors (hword : word = "AND" ∨ word = "OR") {value : β → SearchCondition}
    (h : ∀ x ∈ items, IsFactor (read x) (value x)) (hne : items ≠ [])
    (hn : ([Token.keyword word].intercalate (items.map read)).length < n) (rest : List Token)
    (hand : rest.head? ≠ some (.keyword "AND")) (hor : rest.head? ≠ some (.keyword "OR")) :
    readExpression n (readFactor n) ([.keyword word].intercalate (items.map read) ++ rest) =
      some (joined word (items.map value), rest) := by
  have hcount := length_le_intercalate (.keyword word) read items
  have hfactor : ∀ x ∈ items, ∀ rest, readFactor n (read x ++ rest) = some (value x, rest) := by
    intro x hx rest
    have hlength := length_le_of_mem hx (.keyword word) read
    exact h x hx n rest (by omega)
  exact readExpression_intercalate hword hfactor hne (by omega) rest hand hor

/-- Factors joined by a word and put in parentheses are a factor again. -/
theorem isFactor_parenthesized (hword : word = "AND" ∨ word = "OR")
    {value : β → SearchCondition} (h : ∀ x ∈ items, IsFactor (read x) (value x))
    (hne : items ≠ []) :
    IsFactor (Token.mark '(' ::
        ([Token.keyword word].intercalate (items.map read) ++ [Token.mark ')']))
      (joined word (items.map value)) := by
  intro n rest hn
  simp only [List.length_cons, List.length_append, List.length_nil] at hn
  -- The parentheses are one level. What is inside has as many left as it has tokens, and one more.
  obtain ⟨n, rfl⟩ : ∃ m, n = m + 1 := ⟨n - 1, by omega⟩
  have hinner := readExpression_factors (n := n) hword h hne (by omega) (.mark ')' :: rest)
    (by simp) (by simp)
  rw [List.cons_append, List.append_assoc, List.singleton_append, readFactor, hinner]
  rfl

theorem isFactor_groupTokens (hword : word = "AND" ∨ word = "OR")
    {value : β → SearchCondition} (h : ∀ x ∈ items, IsFactor (read x) (value x))
    (hne : items ≠ []) :
    IsFactor (ConditionRule.groupTokens [.keyword word] (items.map read))
      (joined word (items.map value)) := by
  have hgroup := isFactor_parenthesized hword h hne
  rcases items with _ | ⟨x, _ | ⟨y, rest⟩⟩
  · exact absurd rfl hne
  · exact h x List.mem_cons_self
  · exact hgroup

/-- At the top, factors joined by a word need no parentheses. -/
theorem parse_joined (hword : word = "AND" ∨ word = "OR") {value : β → SearchCondition}
    (h : ∀ x ∈ items, IsFactor (read x) (value x)) (hne : items ≠ []) :
    parse ([.keyword word].intercalate (items.map read)) =
      some (joined word (items.map value)) := by
  have hall := readExpression_factors hword h hne (Nat.lt_succ_self _) [] (by simp) (by simp)
  rw [List.append_nil] at hall
  rw [parse, hall]

theorem IsFactor.parse_eq {ts : List Token} {c : SearchCondition} (h : IsFactor ts c) :
    parse ts = some c := by
  have hone : ∀ p ∈ [(ts, c)], IsFactor p.1 p.2 := List.forall_mem_singleton.2 h
  have hall := parse_joined (.inl rfl) hone (List.cons_ne_nil _ _)
  simpa [joined] using hall

theorem IsFactor.parse_and {ts us : List Token} {c d : SearchCondition} (hc : IsFactor ts c)
    (hd : IsFactor us d) : parse (ts ++ .keyword "AND" :: us) = some (.all [c, d]) := by
  have hboth : ∀ p ∈ [(ts, c), (us, d)], IsFactor p.1 p.2 := by
    simp only [List.forall_mem_cons]
    exact ⟨hc, hd, fun _ h => absurd h List.not_mem_nil⟩
  have hall := parse_joined (.inl rfl) hboth (List.cons_ne_nil _ _)
  simpa [List.intercalate_cons_cons, joined] using hall

/-! ## Tests -/

/-- A subject with a phrase that no earlier one is the start of, and its operands. -/
theorem isFactor_test {subject : Token} (hsubject : subject.isSubject = true)
    {phrase : List Token} {r : Restriction} {operands ts : List Token}
    (hphrase : ∀ rest, phrases.find? (·.1.isPrefixOf (phrase ++ (ts ++ rest))) = some (phrase, r))
    (hoperands : ∀ rest, readOperands r.arity (ts ++ rest) = some (operands, rest)) :
    IsFactor ([subject] ++ phrase ++ ts) (.test r subject operands) := by
  intro n rest _
  have hne : subject ≠ .mark '(' := by
    rintro rfl
    cases hsubject
  have htokens : [subject] ++ phrase ++ ts ++ rest = subject :: (phrase ++ (ts ++ rest)) := by simp
  rw [htokens, readFactor_of_ne hne, readTest, if_pos hsubject]
  simp only [bind, hphrase, Option.bind_some, List.drop_left, hoperands]
  rfl

/-- Every placeholder of a list is read. -/
theorem readList_placeholders (k : Nat) (rest : List Token) :
    readList ([Token.mark ','].intercalate (List.replicate (k + 1) [.mark '?']) ++
      .mark ')' :: rest) = some (List.replicate (k + 1) (.mark '?'), rest) := by
  induction k with
  | zero => rfl
  | succ k ih =>
    have hsplit : [Token.mark ','].intercalate (List.replicate (k + 1 + 1) [.mark '?']) ++
        .mark ')' :: rest = .mark '?' :: .mark ',' ::
          ([Token.mark ','].intercalate (List.replicate (k + 1) [.mark '?']) ++
            .mark ')' :: rest) := by
      simp [List.replicate_succ, List.intercalate_cons_cons]
    rw [hsplit, readList, ih]
    rfl

end SearchCondition

/-! ## Restrictions as they are written -/

/-- The restriction that a text shows: a pattern does not show where its wildcards are. -/
def Restriction.shown : Restriction → Restriction
  | .beginsWith | .endsWith => .like
  | .notBeginWith | .notEndWith => .notLike
  | r => r

namespace ConditionRule

/-- A rule that writes what its restriction says. -/
def isFaithful : ConditionRule → Bool
  | .comparison r operator => r.arity == .one && SearchCondition.operators.contains (operator, r)
  | .like r negated _ => r.arity == .one && r.shown == (if negated then .notLike else .like)
  | .compound r => r.isCompound
  | .range _ | .amongst _ | .nullCheck _ => true

theorem isFaithful_conditionRule (db : Database) (r : Restriction) :
    ((Dialect.builtin db).conditionRule r).isFaithful = true := by
  have hall : ∀ r ∈ Restriction.all, ((Dialect.builtin db).conditionRule r).isFaithful = true := by
    cases db <;> decide +kernel
  exact hall r r.mem_all

theorem isUsual_of_isFaithful {p : ConditionRule} (h : p.isFaithful = true) : p.isUsual = true := by
  cases p with
  | comparison r operator =>
    obtain ⟨harity, hmem⟩ := Bool.and_eq_true_iff.1 h
    have hall : ∀ p ∈ SearchCondition.operators, usualOperators.contains p.1 = true := by
      decide +kernel
    have husual := hall _ (List.contains_iff_mem.1 hmem)
    exact Bool.and_eq_true_iff.2 ⟨harity, husual⟩
  | like r negated wildcard => exact (Bool.and_eq_true_iff.1 h).1
  | compound r => exact h
  | range negated => rfl
  | amongst negated => rfl
  | nullCheck negated => rfl

end ConditionRule

namespace SearchCondition

open ConditionRule

theorem find?_operator {operator : String} {r : Restriction} (h : (operator, r) ∈ operators)
    (rest : List Token) :
    phrases.find? (·.1.isPrefixOf (operator.toList.map Token.mark ++ ([Token.mark '?'] ++ rest))) =
      some (operator.toList.map Token.mark, r) := by
  simp only [operators, List.mem_cons, Prod.mk.injEq, List.not_mem_nil, or_false] at h
  rcases h with ⟨rfl, rfl⟩ | ⟨rfl, rfl⟩ | ⟨rfl, rfl⟩ | ⟨rfl, rfl⟩ | ⟨rfl, rfl⟩ | ⟨rfl, rfl⟩ |
    ⟨rfl, rfl⟩ <;> rfl

/-- A restriction over placeholders is read as the test that it writes. -/
theorem isFactor_writeTokens {p : ConditionRule} (hp : p.isFaithful = true)
    (hc : p.restriction.isCompound = false) {k : Nat} (hk : p.checkOperands k = .ok ())
    {subject : Token} (hsubject : subject.isSubject = true) :
    IsFactor (p.writeTokens [subject] (List.replicate k [.mark '?']))
      (.test p.restriction.shown subject (List.replicate k (.mark '?'))) := by
  have harity := checkOperands_eq_ok hk
  cases p with
  | comparison c operator =>
    obtain ⟨hone, hoperator⟩ : c.arity = .one ∧ (operator, c) ∈ operators := by
      simpa [isFaithful] using hp
    obtain rfl : k = 1 := by simpa [restriction, hone, Arity.accepts] using harity
    have hshown : c.shown = c := by
      revert hoperator
      cases c <;> first | exact fun _ => rfl | exact fun h => absurd h (by simp [operators])
    rw [restriction, hshown]
    exact isFactor_test hsubject (find?_operator hoperator) fun rest => by rw [hone]; rfl
  | range negated =>
    obtain rfl : k = 2 := by
      cases negated <;> simpa [restriction, Restriction.arity, Arity.accepts] using harity
    exact isFactor_test hsubject (fun rest => by cases negated <;> rfl)
      fun rest => by cases negated <;> rfl
  | amongst negated =>
    obtain ⟨k, rfl⟩ : ∃ m, k = m + 1 := by
      have hpos : 1 ≤ k := by
        cases negated <;> simpa [restriction, Restriction.arity, Arity.accepts] using harity
      exact ⟨k - 1, by omega⟩
    have htokens : (amongst negated).writeTokens [subject] (List.replicate (k + 1) [.mark '?']) =
        [subject] ++ (negationTokens negated ++ [.keyword "IN"]) ++
          (.mark '(' :: ([Token.mark ','].intercalate (List.replicate (k + 1) [.mark '?']) ++
            [.mark ')'])) := by
      simp [writeTokens]
    rw [htokens]
    refine isFactor_test hsubject (fun rest => by cases negated <;> rfl) fun rest => ?_
    have hmany : (amongst negated).restriction.shown.arity = .many := by cases negated <;> rfl
    rw [hmany, List.cons_append, List.append_assoc, List.singleton_append]
    exact readList_placeholders k rest
  | like c negated wildcard =>
    obtain ⟨hone, hshown⟩ : c.arity = .one ∧ c.shown = (if negated then .notLike else .like) := by
      simpa [isFaithful] using hp
    obtain rfl : k = 1 := by simpa [restriction, hone, Arity.accepts] using harity
    rw [restriction, hshown]
    exact isFactor_test hsubject (fun rest => by cases negated <;> rfl)
      fun rest => by cases negated <;> rfl
  | nullCheck negated =>
    obtain rfl : k = 0 := by
      cases negated <;> simpa [restriction, Restriction.arity, Arity.accepts] using harity
    have htokens : (nullCheck negated).writeTokens [subject] [] =
        [subject] ++ (.keyword "IS" :: (negationTokens negated ++ [.keyword "NULL"])) ++ [] := by
      simp [writeTokens]
    rw [List.replicate_zero, htokens]
    exact isFactor_test hsubject (fun rest => by cases negated <;> rfl)
      fun rest => by cases negated <;> rfl
  | compound c => exact absurd hp (by simpa [isFaithful, restriction] using hc)

end SearchCondition

end SqlDialects
