import SqlDialects.Proofs.Spelling
import SqlDialects.Proofs.TextDefaults

/-!
# Defaults in parentheses

SQL Server reports a default in parentheses, more than one pair of them at times, and a string with
an `N` before it. The reading of such a default takes parentheses away for as long as the first one
closes at the last character. Parentheses between quotes do not count, and neither do pairs that
close further in, so that what the reading looks through is text in which quotes come in twos and
every parenthesis has its partner: `Text.IsBalanced`.

Results:
1. `Text.enclosesFrom_append`: inside parentheses, balanced text changes nothing of what is open.
2. `Text.withoutParensChars_of_isWrapped`: any number of pairs around a text is taken away, and
   nothing of the text.
3. `ColumnRule.isReadAsWritten_defaultLiteral`: a rendered default is such a text.
4. `Dialect.mssql_isMatch_wrapped`: in SQL Server a rendered default reads back as unchanged from
   any number of parentheses, with an `N` before it if it is quoted.
-/

namespace SqlDialects

namespace Text

/-! ## Balanced text -/

/-- Nothing but blanks. -/
def AreBlank (cs : List Char) : Prop := ∀ c ∈ cs, isBlank c = true

/-- A quote or a parenthesis. -/
def isPaired (c : Char) : Bool := c == '\'' || c == '(' || c == ')'

/-- Text in which every quote and every parenthesis has its partner. What stands between two quotes
may be anything. -/
inductive IsBalanced : List Char → Prop
  | nil : IsBalanced []
  | plain {c : Char} : isPaired c = false → IsBalanced [c]
  | quoted {cs : List Char} : '\'' ∉ cs → IsBalanced ('\'' :: (cs ++ ['\'']))
  | parens {cs : List Char} : IsBalanced cs → IsBalanced ('(' :: (cs ++ [')']))
  | append {a b : List Char} : IsBalanced a → IsBalanced b → IsBalanced (a ++ b)

theorem isBalanced_of_forall {cs : List Char} (h : ∀ c ∈ cs, isPaired c = false) :
    IsBalanced cs := by
  induction cs with
  | nil => exact .nil
  | cons c rest ih =>
    obtain ⟨hc, hrest⟩ := List.forall_mem_cons.1 h
    exact .append (.plain hc) (ih hrest)

theorem AreBlank.isBalanced {cs : List Char} (h : AreBlank cs) : IsBalanced cs := by
  refine isBalanced_of_forall fun c hc => Bool.eq_false_iff.2 fun hpaired => ?_
  have hblank := h c hc
  simp only [isPaired, Bool.or_eq_true, beq_iff_eq] at hpaired
  rcases hpaired with (rfl | rfl) | rfl
  · exact absurd hblank (by decide)
  · exact absurd hblank (by decide)
  · exact absurd hblank (by decide)

/-- Doubled quotes between quotes come in twos: the text is cut at each of them. -/
theorem isBalanced_literal (s : String) : IsBalanced (literal s).toList := by
  rw [toList_literal]
  -- What stands before the next doubled quote gathers in `before`.
  suffices h : ∀ before : List Char, '\'' ∉ before →
      IsBalanced ('\'' :: (before ++ double '\'' s.toList ++ ['\''])) by
    exact h [] List.not_mem_nil
  induction s.toList with
  | nil =>
    intro before hbefore
    rw [double, List.append_nil]
    exact .quoted hbefore
  | cons c cs ih =>
    intro before hbefore
    by_cases hc : c = '\''
    · subst hc
      have hcut : '\'' :: (before ++ double '\'' ('\'' :: cs) ++ ['\'']) =
          '\'' :: (before ++ ['\'']) ++ '\'' :: ([] ++ double '\'' cs ++ ['\'']) := by
        simp [double]
      rw [hcut]
      exact .append (.quoted hbefore) (ih [] List.not_mem_nil)
    · have hlonger : '\'' ∉ before ++ [c] := by simp [hbefore, Ne.symm hc]
      have hmoved : before ++ double '\'' (c :: cs) = before ++ [c] ++ double '\'' cs := by
        simp [double, hc]
      rw [hmoved]
      exact ih (before ++ [c]) hlonger

/-! ## What is open -/

theorem enclosesFrom_quoted {cs : List Char} (h : '\'' ∉ cs) (depth : Nat) (rest : List Char) :
    enclosesFrom depth true (cs ++ '\'' :: rest) = enclosesFrom depth false rest := by
  induction cs with
  | nil => rfl
  | cons c cs ih =>
    rw [List.mem_cons, not_or] at h
    rw [List.cons_append, enclosesFrom, if_neg (Ne.symm h.1), if_pos rfl, ih h.2]

/-- Inside parentheses, balanced text changes nothing of what is open. -/
theorem enclosesFrom_append {cs : List Char} (h : IsBalanced cs) (depth : Nat) {rest : List Char}
    (hrest : rest ≠ []) :
    enclosesFrom (depth + 1) false (cs ++ rest) = enclosesFrom (depth + 1) false rest := by
  induction h generalizing depth rest with
  | nil => rfl
  | @plain c hc =>
    simp only [isPaired, Bool.or_eq_false_iff, beq_eq_false_iff_ne] at hc
    simp [enclosesFrom, hc]
  | @quoted cs hcs =>
    simp only [List.cons_append, List.append_assoc, List.nil_append]
    rw [enclosesFrom, if_pos rfl, Bool.not_false, enclosesFrom_quoted hcs]
  | @parens cs _ ih =>
    have hopening : enclosesFrom (depth + 1) false ('(' :: (cs ++ ')' :: rest)) =
        enclosesFrom (depth + 1 + 1) false (cs ++ ')' :: rest) := rfl
    have hclosing : enclosesFrom (depth + 1 + 1) false (')' :: rest) =
        enclosesFrom (depth + 1) false rest := rfl
    simp only [List.cons_append, List.append_assoc, List.nil_append]
    rw [hopening, ih (depth + 1) (List.cons_ne_nil _ _), hclosing]
  | append _ _ iha ihb =>
    rw [List.append_assoc, iha depth (by simp [hrest]), ihb depth hrest]

theorem innerOfParens_of_isBalanced {cs : List Char} (h : IsBalanced cs) :
    innerOfParens ('(' :: (cs ++ [')'])) = some cs := by
  have hencloses : enclosesFrom 0 false ('(' :: (cs ++ [')'])) = true :=
    (enclosesFrom_append h 0 (List.cons_ne_nil _ _)).trans rfl
  simp [innerOfParens, hencloses]

/-! ## Parentheses around a text -/

/-- A text in some number of pairs of parentheses, with blanks inside and outside each of them. -/
inductive IsWrapped (core : List Char) : Nat → List Char → Prop
  | core : IsWrapped core 0 core
  | pair {n : Nat} {cs before opened closed after : List Char} :
      AreBlank before → AreBlank opened → AreBlank closed → AreBlank after →
      IsWrapped core n cs →
      IsWrapped core (n + 1) (before ++ '(' :: (opened ++ cs ++ closed ++ [')']) ++ after)

/-- A text that is itself when it is read: balanced, without blanks around it, and with no
parenthesis at its start. -/
structure IsCore (cs : List Char) : Prop where
  balanced : IsBalanced cs
  trimmed : trimChars cs = cs
  head : cs.head? ≠ some '('

theorem IsWrapped.isBalanced {core cs : List Char} {n : Nat} (hcore : IsBalanced core)
    (h : IsWrapped core n cs) : IsBalanced cs := by
  induction h with
  | core => exact hcore
  | pair hbefore hopened hclosed hafter _ ih =>
    exact .append (.append hbefore.isBalanced
      (.parens (.append (.append hopened.isBalanced ih) hclosed.isBalanced))) hafter.isBalanced

theorem trimChars_append {before after : List Char} (hbefore : AreBlank before)
    (hafter : AreBlank after) (cs : List Char) :
    trimChars (before ++ cs ++ after) = trimChars cs := by
  have hlast : ∀ c ∈ after.reverse, isBlank c = true := fun c hc => hafter c (List.mem_reverse.1 hc)
  rw [trimChars, trimChars, List.append_assoc, List.dropWhile_append_of_pos hbefore,
    List.dropWhile_append]
  split
  · next hblank =>
    rw [List.isEmpty_iff.1 hblank, List.dropWhile_eq_nil_iff.2 hafter]
  · rw [List.reverse_append, List.dropWhile_append_of_pos hlast]

theorem withoutParensChars_of_some {cs inner : List Char}
    (h : innerOfParens (trimChars cs) = some inner) :
    withoutParensChars cs = withoutParensChars inner := by
  rw [withoutParensChars]
  split
  · next other hother =>
    rw [h] at hother
    cases hother
    rfl
  · next hnone =>
    rw [h] at hnone
    cases hnone

theorem withoutParensChars_of_none {cs : List Char} (h : innerOfParens (trimChars cs) = none) :
    withoutParensChars cs = trimChars cs := by
  rw [withoutParensChars]
  split
  · next inner hinner =>
    rw [h] at hinner
    cases hinner
  · rfl

/-- Blanks around a text make no difference. -/
theorem withoutParensChars_congr {a b : List Char} (h : trimChars a = trimChars b) :
    withoutParensChars a = withoutParensChars b := by
  cases hinner : innerOfParens (trimChars b) with
  | none =>
    rw [withoutParensChars_of_none hinner, withoutParensChars_of_none (h ▸ hinner), h]
  | some inner =>
    rw [withoutParensChars_of_some hinner, withoutParensChars_of_some (h ▸ hinner)]

/-- A pair of parentheses around balanced text is taken away, with the blanks beside it. -/
theorem withoutParensChars_pair {before opened closed after cs : List Char}
    (hbefore : AreBlank before) (hopened : AreBlank opened) (hclosed : AreBlank closed)
    (hafter : AreBlank after) (h : IsBalanced cs) :
    withoutParensChars (before ++ '(' :: (opened ++ cs ++ closed ++ [')']) ++ after) =
      withoutParensChars cs := by
  have htrimmed : trimChars (before ++ '(' :: (opened ++ cs ++ closed ++ [')']) ++ after) =
      '(' :: (opened ++ cs ++ closed ++ [')']) := by
    rw [trimChars_append hbefore hafter, trimChars_eq_self (by decide) (by decide)]
  have hinner := innerOfParens_of_isBalanced
    (.append (.append hopened.isBalanced h) hclosed.isBalanced)
  rw [← htrimmed] at hinner
  rw [withoutParensChars_of_some hinner]
  exact withoutParensChars_congr (trimChars_append hopened hclosed cs)

/-- Any number of pairs around a text is taken away, and nothing of the text. -/
theorem withoutParensChars_of_isWrapped {core cs : List Char} {n : Nat} (hcore : IsCore core)
    (h : IsWrapped core n cs) : withoutParensChars cs = core := by
  induction h with
  | core =>
    rw [withoutParensChars_eq_trimChars (hcore.trimmed.symm ▸ hcore.head), hcore.trimmed]
  | pair hbefore hopened hclosed hafter hwrapped ih =>
    rw [withoutParensChars_pair hbefore hopened hclosed hafter (hwrapped.isBalanced hcore.balanced),
      ih]

/-! ## Texts that read as themselves -/

theorem trimChars_of_forall {cs : List Char} (h : ∀ c ∈ cs, isBlank c = false) :
    trimChars cs = cs := by
  have hstays : ∀ l : List Char, (∀ c ∈ l, isBlank c = false) → l.dropWhile isBlank = l := by
    intro l hl
    cases l with
    | nil => rfl
    | cons c rest => exact List.dropWhile_cons_of_neg (by simp [hl c List.mem_cons_self])
  rw [trimChars, hstays cs h, hstays cs.reverse fun c hc => h c (List.mem_reverse.1 hc),
    List.reverse_reverse]

theorem isCore_of_forall {cs : List Char}
    (h : ∀ c ∈ cs, isPaired c = false ∧ isBlank c = false) : IsCore cs where
  balanced := isBalanced_of_forall fun c hc => (h c hc).1
  trimmed := trimChars_of_forall fun c hc => (h c hc).2
  head hopening := absurd (h '(' (List.mem_of_mem_head? hopening)).1 (by decide)

theorem isCore_literal (s : String) : IsCore (literal s).toList where
  balanced := isBalanced_literal s
  trimmed := trimChars_literal s
  head := by
    rw [toList_literal]
    simp

/-- A string with the mark of national characters before it. -/
theorem isCore_national (s : String) : IsCore ('N' :: (literal s).toList) where
  balanced := .append (.plain (by decide)) (isBalanced_literal s)
  trimmed := by
    rw [toList_literal, ← List.cons_append, ← List.cons_append]
    exact trimChars_eq_self (by decide) (by decide)
  head := by simp

theorem isCore_of_isNumber {cs : List Char} (h : Numeral.IsNumber cs) : IsCore cs := by
  refine isCore_of_forall fun c hc => ?_
  rcases h.mem_cases hc with hdigit | hsign
  · obtain ⟨hblank, hopening, hclosing, -⟩ := isMark_of_isDecimalDigit hdigit
    have hquote : c ≠ '\'' := by
      rintro rfl
      exact absurd hdigit (by decide)
    exact ⟨by simp [isPaired, hquote, hopening, hclosing], hblank⟩
  · simp only [List.mem_cons, List.not_mem_nil, or_false] at hsign
    rcases hsign with rfl | rfl | rfl
    · decide
    · decide
    · decide

end Text

/-! ## Rendered defaults -/

/-- What stands for a literal inside the parentheses: itself, or a string with the mark of national
characters before it. -/
inductive Represents (lit : String) : List Char → Prop
  | itself : Represents lit lit.toList
  | national {text : String} : lit = Text.literal text → Represents lit ('N' :: lit.toList)

/-- A core from which no mark of national characters is taken either. -/
structure IsReadAsWritten (cs : List Char) : Prop extends Text.IsCore cs where
  unmarked : cs.head? ≠ some 'N'

namespace LiteralForm

variable {raw lit : String} {type : ColumnType} {form : LiteralForm}

theorem isReadAsWritten_string {text : String} (hlit : Lexeme.lexemes lit = [.string text]) :
    IsReadAsWritten lit.toList := by
  rw [Lexeme.lexemes_eq_string_iff.1 hlit]
  refine ⟨Text.isCore_literal text, ?_⟩
  rw [Text.toList_literal]
  simp

theorem isReadAsWritten_number {text : String} (h : Numeral.IsNumber text.toList)
    (hlit : Lexeme.lexemes lit = [.number text]) : IsReadAsWritten lit.toList := by
  rw [Lexeme.eq_of_lexemes_eq_singleton (.inl hlit)]
  refine ⟨Text.isCore_of_isNumber h, fun hhead => ?_⟩
  rcases h.mem_cases (List.mem_of_mem_head? hhead) with hdigit | hsign
  · exact absurd hdigit (by decide)
  · exact absurd hsign (by decide)

theorem isReadAsWritten_keyword {word : String}
    (hplain : (word.toList.all fun c => !Text.isPaired c && !Text.isBlank c) = true)
    (hhead : word.toList.head? ≠ some 'N') (hlit : Lexeme.lexemes lit = [.word word]) :
    IsReadAsWritten lit.toList := by
  rw [Lexeme.eq_of_lexemes_eq_singleton (.inr hlit)]
  refine ⟨Text.isCore_of_forall fun c hc => ?_, hhead⟩
  simpa using List.all_eq_true.1 hplain c hc

theorem isReadAsWritten_call (rest : String) {function first second : String}
    (hfunction : function.toList = 'T' :: rest.toList)
    (hplain : (rest.toList.all fun c => !Text.isPaired c) = true)
    (hlit : Lexeme.lexemes lit = (call function first second).lexemes) :
    IsReadAsWritten lit.toList := by
  have hlist : lit.toList = 'T' :: (rest.toList ++ '(' :: ((Text.literal first).toList ++ [','] ++
      [' '] ++ (Text.literal second).toList ++ [')'])) := by
    rw [← Lexeme.flatMap_spelling lit, hlit]
    simp [lexemes, Lexeme.spelling, Text.toList_literal, hfunction]
  have hname : Text.IsBalanced rest.toList :=
    Text.isBalanced_of_forall fun c hc => by simpa using List.all_eq_true.1 hplain c hc
  have hstrings : Text.IsBalanced
      ((Text.literal first).toList ++ [','] ++ [' '] ++ (Text.literal second).toList) :=
    .append (.append (.append (Text.isBalanced_literal first) (.plain rfl)) (.plain rfl))
      (Text.isBalanced_literal second)
  rw [hlist]
  refine ⟨⟨.append (.plain rfl) (.append hname (.parens hstrings)), ?_, by simp⟩, by simp⟩
  rw [← List.cons_append (a := '('), ← List.append_assoc]
  exact Text.trimChars_eq_self (by decide) (by decide)

/-- A literal of a type is a text that is read as it is written. -/
theorem IsFor.isReadAsWritten (h : IsFor raw type form)
    (hlit : Lexeme.lexemes lit = form.lexemes) : IsReadAsWritten lit.toList := by
  cases h with
  | text | letter | day | time => exact isReadAsWritten_string hlit
  | number _ hnumber => exact isReadAsWritten_number hnumber hlit
  | bit hbit =>
    simp only [List.mem_cons, List.not_mem_nil, or_false] at hbit
    rcases hbit with rfl | rfl
    · exact isReadAsWritten_number (Numeral.isNumber_int 1) hlit
    · exact isReadAsWritten_number (Numeral.isNumber_int 0) hlit
  | truth hword =>
    simp only [List.mem_cons, List.not_mem_nil, or_false] at hword
    rcases hword with rfl | rfl
    · exact isReadAsWritten_keyword (by decide) (by decide) hlit
    · exact isReadAsWritten_keyword (by decide) (by decide) hlit
  | today => exact isReadAsWritten_keyword (by decide) (by decide) hlit
  | now => exact isReadAsWritten_keyword (by decide) (by decide) hlit
  | dayCall => exact isReadAsWritten_call "O_DATE" (by decide) (by decide) hlit
  | timeCall => exact isReadAsWritten_call "O_TIMESTAMP" (by decide) (by decide) hlit

end LiteralForm

/-- What is rendered for a text that is not blank is read as it is written. -/
theorem ColumnRule.isReadAsWritten_defaultLiteral {p : ColumnRule} {raw lit : String}
    (hp : p.isTyped = true) (hraw : Text.isAllBlank raw = false)
    (hlit : p.defaultLiteral raw = .ok lit) : IsReadAsWritten lit.toList := by
  rcases isOneLiteral_defaultLiteral hp hlit with ⟨rfl, -⟩ | ⟨form, hform, hparts⟩
  · exact absurd hraw (by decide)
  · exact hform.isReadAsWritten hparts

namespace DefaultReading

open Text (IsWrapped)

theorem dropNationalMark_of_head {cs : List Char} (h : cs.head? ≠ some 'N') :
    dropNationalMark cs = cs := by
  unfold dropNationalMark
  split
  · exact absurd rfl h
  · rfl

/-- A text in parentheses, or a string with the mark of national characters as well, has the one
spelling that it has alone. -/
theorem normalize_parenthesized_of_isWrapped {lit native : String} {core : List Char} {n : Nat}
    (hlit : IsReadAsWritten lit.toList) (hcore : Represents lit core)
    (hnative : IsWrapped core n native.toList) :
    parenthesized.normalize native = parenthesized.normalize lit := by
  have hself : Text.withoutParensChars lit.toList = lit.toList :=
    Text.withoutParensChars_of_isWrapped hlit.toIsCore .core
  have hinner : dropNationalMark (Text.withoutParensChars native.toList) = lit.toList := by
    cases hcore with
    | itself =>
      rw [Text.withoutParensChars_of_isWrapped hlit.toIsCore hnative,
        dropNationalMark_of_head hlit.unmarked]
    | @national text htext =>
      subst htext
      rw [Text.withoutParensChars_of_isWrapped (Text.isCore_national text) hnative,
        Text.toList_literal]
      rfl
  simp only [normalize, hinner, hself, dropNationalMark_of_head hlit.unmarked]

/-- What is reported in parentheses matches the default that was rendered. -/
theorem isMatch_parenthesized_of_isWrapped {p : ColumnRule} {raw lit native : String}
    {core : List Char} {n : Nat} (hp : p.isTyped = true) (hraw : Text.isAllBlank raw = false)
    (hlit : p.defaultLiteral raw = .ok lit)
    (hcore : Represents lit core) (hnative : IsWrapped core n native.toList) :
    parenthesized.isMatch (some native) (some raw) p = true := by
  have hsame := normalize_parenthesized_of_isWrapped
    (ColumnRule.isReadAsWritten_defaultLiteral hp hraw hlit) hcore hnative
  rw [isMatch_iff hraw hlit, hsame, isGiven_rendered_iff hraw hlit]
  exact ⟨fun h => absurd h.1 (by decide), rfl⟩

end DefaultReading

/-! ## The dialect -/

namespace Dialect

open Text (IsWrapped)

/-- In SQL Server a rendered default reads back as unchanged from any number of parentheses, with
blanks inside and outside each pair, and with an `N` before it if it is quoted. -/
theorem mssql_isMatch_wrapped {type : ColumnType} {raw lit native : String} {core : List Char}
    {n : Nat} (hraw : Text.isAllBlank raw = false)
    (hlit : ((builtin .mssql).columnRule type).defaultLiteral raw = .ok lit)
    (hcore : Represents lit core) (hnative : IsWrapped core n native.toList) :
    (builtin .mssql).defaults.isMatch (some native) (some raw) ((builtin .mssql).columnRule type) =
      true :=
  DefaultReading.isMatch_parenthesized_of_isWrapped (isTyped_builtin .mssql type) hraw hlit hcore
    hnative

/-- Quotes and parentheses in the text are text. -/
theorem mssql_isMatch_wrapped_smile :
    Text.isAllBlank "it's :(" = false ∧
      ((builtin .mssql).columnRule .string).defaultLiteral "it's :(" = .ok "'it''s :('" ∧
      (builtin .mssql).defaults.isMatch (some "( (N'it''s :(' )) ") (some "it's :(")
        ((builtin .mssql).columnRule .string) = true := by
  have hraw : Text.isAllBlank "it's :(" = false := by decide
  have hlit : ((builtin .mssql).columnRule .string).defaultLiteral "it's :(" =
      .ok "'it''s :('" := by decide
  have htext : "'it''s :('" = Text.literal "it's :(" := by decide
  have hblank : Text.AreBlank [' '] := List.forall_mem_singleton.2 (by decide)
  have hnone : Text.AreBlank [] := List.forall_mem_nil _
  exact ⟨hraw, hlit, mssql_isMatch_wrapped hraw hlit (.national htext)
    (.pair hnone hblank hnone hblank (.pair hnone hnone hblank hnone .core))⟩

end Dialect

end SqlDialects
