import SqlDialects.Proofs.DefaultReading

/-!
# Rendered defaults are closed literals

A configured default is any text, and its literal goes into statements as it is. What keeps it from
becoming more than a default is how a database reads it: text between single quotes is one string,
whatever stands there, as long as each quote inside is doubled. This module cuts SQL into the parts
that the standard knows and says what the literals of each type are read as.

Results:
1. `Lexeme.lexemes_literal`: a text in quotes is one string, in any statement, if no quote follows.
2. `Lexeme.lexemes_of_isNumber`: a number is one part, from its sign or first digit to its last.
3. `ColumnRule.isOneLiteral_defaultLiteral`: what is rendered is one literal of its type.
4. `Dialect.isOneLiteral_rendered_builtin`: this holds in every dialect.
-/

namespace SqlDialects

/-! ## Parts of a text -/

/-- A part of an SQL text. -/
inductive Lexeme where
  /-- What stands between single quotes, two of them inside read as one. -/
  | string (text : String)
  /-- Digits and points, perhaps after a sign. -/
  | number (text : String)
  | word (text : String)
  /-- Any other character, blanks as well. -/
  | mark (c : Char)
  /-- A string whose closing quote is missing. -/
  | unclosed (text : String)
deriving DecidableEq, Repr

/-- Where in a text its reader is, with the characters of the part that has begun. -/
inductive LexicalState where
  | between
  | quoted (cs : List Char)
  /-- After a quote that closes the string, unless another one follows. -/
  | closed (cs : List Char)
  /-- After a sign, which begins a number if a digit or a point follows. -/
  | sign (c : Char)
  | number (cs : List Char)
  | word (cs : List Char)
deriving DecidableEq, Repr

namespace LexicalState

/-- The part that has begun, if the text ends here. -/
def pending : LexicalState → List Lexeme
  | .between => []
  | .quoted cs => [.unclosed (String.ofList cs)]
  | .closed cs => [.string (String.ofList cs)]
  | .sign c => [.mark c]
  | .number cs => [.number (String.ofList cs)]
  | .word cs => [.word (String.ofList cs)]

/-- A digit of any script, or a point. -/
def isNumberPart (c : Char) : Bool := Text.isDecimalDigit c || c == '.'

/-- A character that belongs to no part before it. -/
def start (c : Char) : List Lexeme × LexicalState :=
  if c = '\'' then ([], .quoted [])
  else if isNumberPart c then ([], .number [c])
  else if c = '+' ∨ c = '-' then ([], .sign c)
  else if c.isAlpha || c = '_' then ([], .word [c])
  else ([.mark c], .between)

/-- A character that ends the part before it. -/
def restart (p : LexicalState) (c : Char) : List Lexeme × LexicalState :=
  (p.pending ++ (start c).1, (start c).2)

/-- One more character: the parts that end with it, and where the reader is then. -/
def step (p : LexicalState) (c : Char) : List Lexeme × LexicalState :=
  match p with
  | .between => start c
  | .quoted cs => if c = '\'' then ([], .closed cs) else ([], .quoted (cs ++ [c]))
  | .closed cs => if c = '\'' then ([], .quoted (cs ++ [c])) else p.restart c
  | .sign s => if isNumberPart c then ([], .number [s, c]) else p.restart c
  | .number cs => if isNumberPart c then ([], .number (cs ++ [c])) else p.restart c
  | .word cs => if c.isAlphanum || c = '_' then ([], .word (cs ++ [c])) else p.restart c

/-- Characters one after the other. -/
def scan (p : LexicalState) : List Char → List Lexeme × LexicalState
  | [] => ([], p)
  | c :: rest => ((p.step c).1 ++ ((p.step c).2.scan rest).1, ((p.step c).2.scan rest).2)

/-- The parts of the rest of a text. -/
def lexemes (p : LexicalState) (cs : List Char) : List Lexeme :=
  (p.scan cs).1 ++ (p.scan cs).2.pending

theorem scan_append (p : LexicalState) (a b : List Char) :
    p.scan (a ++ b) =
      ((p.scan a).1 ++ ((p.scan a).2.scan b).1, ((p.scan a).2.scan b).2) := by
  induction a generalizing p with
  | nil => rfl
  | cons c rest ih => simp only [List.cons_append, scan, ih, List.append_assoc]

theorem lexemes_append (p : LexicalState) (a b : List Char) :
    p.lexemes (a ++ b) = (p.scan a).1 ++ (p.scan a).2.lexemes b := by
  simp only [lexemes, scan_append, List.append_assoc]

theorem lexemes_cons (p : LexicalState) (c : Char) (cs : List Char) :
    p.lexemes (c :: cs) = (p.step c).1 ++ (p.step c).2.lexemes cs := by
  simp only [lexemes, scan, List.append_assoc]

/-! ## Strings -/

/-- Inside quotes, doubled quotes are quotes and all else is itself. -/
theorem scan_double (cs text : List Char) :
    (quoted cs).scan (Text.double '\'' text) = ([], .quoted (cs ++ text)) := by
  induction text generalizing cs with
  | nil => simp [Text.double, scan]
  | cons c rest ih =>
    by_cases h : c = '\''
    · simp [Text.double, scan, step, h, ih]
    · simp [Text.double, scan, step, h, ih]

/-- A closing quote closes the string unless another one follows. -/
theorem lexemes_closed {cs rest : List Char} (h : rest.head? ≠ some '\'') :
    (closed cs).lexemes rest = .string (String.ofList cs) :: between.lexemes rest := by
  cases rest with
  | nil => rfl
  | cons c rest =>
    have hc : c ≠ '\'' := fun hc => h (by rw [hc, List.head?_cons])
    rw [lexemes_cons, lexemes_cons]
    simp only [step, if_neg hc, restart, pending, List.cons_append, List.nil_append]

/-- A text in quotes is one string, up to the quote that closes it. -/
theorem lexemes_literal_append (text : String) {rest : List Char} (h : rest.head? ≠ some '\'') :
    between.lexemes ((Text.literal text).toList ++ rest) = .string text :: between.lexemes rest := by
  have hopen : between.step '\'' = ([], .quoted []) := rfl
  have hclose : (quoted text.toList).step '\'' = ([], .closed text.toList) := rfl
  rw [Text.toList_literal, List.cons_append, List.append_assoc, List.singleton_append]
  calc between.lexemes ('\'' :: (Text.double '\'' text.toList ++ '\'' :: rest))
      = (quoted []).lexemes (Text.double '\'' text.toList ++ '\'' :: rest) := by
        rw [lexemes_cons, hopen, List.nil_append]
    _ = (quoted text.toList).lexemes ('\'' :: rest) := by
        rw [lexemes_append, scan_double, List.nil_append, List.nil_append]
    _ = (closed text.toList).lexemes rest := by rw [lexemes_cons, hclose, List.nil_append]
    _ = .string text :: between.lexemes rest := by rw [lexemes_closed h, String.ofList_toList]

/-! ## Numbers -/

theorem scan_number {text : List Char} (h : ∀ c ∈ text, isNumberPart c = true) (cs : List Char) :
    (number cs).scan text = ([], .number (cs ++ text)) := by
  induction text generalizing cs with
  | nil => simp [scan]
  | cons c rest ih =>
    obtain ⟨hc, hrest⟩ := List.forall_mem_cons.1 h
    simp [scan, step, hc, ih hrest]

end LexicalState

namespace Lexeme

open LexicalState (between isNumberPart)
open Numeral (IsNumber IsUnsigned)

/-- The parts of a text. -/
def lexemes (s : String) : List Lexeme := between.lexemes s.toList

/-- A text in quotes is one string in any statement: after a piece that has ended its last part, and
before one that brings no quote. -/
theorem lexemes_literal {a b : String} (text : String)
    (ha : (between.scan a.toList).2 = .between) (hb : b.toList.head? ≠ some '\'') :
    lexemes (a ++ Text.literal text ++ b) = lexemes a ++ .string text :: lexemes b := by
  have hfront : lexemes a = (between.scan a.toList).1 := by
    rw [lexemes, LexicalState.lexemes, ha]
    exact List.append_nil _
  rw [hfront, lexemes, String.toList_append, String.toList_append, List.append_assoc,
    LexicalState.lexemes_append, ha, LexicalState.lexemes_literal_append text hb]
  rfl

example : lexemes "A='it''s'+1" = [.word "A", .mark '=', .string "it's", .number "+1"] := by
  decide

theorem isNumberPart_of_isUnsigned {cs : List Char} (h : IsUnsigned cs) :
    ∀ c ∈ cs, isNumberPart c = true := by
  intro c hc
  rcases h.mem_cases hc with hdigit | rfl
  · rw [isNumberPart, hdigit, Bool.true_or]
  · rfl

/-- A digit or a point begins a number. -/
theorem start_of_isNumberPart {c : Char} (h : isNumberPart c = true) :
    LexicalState.start c = ([], .number [c]) := by
  have hquote : c ≠ '\'' := by
    rintro rfl
    exact absurd h (by decide)
  rw [LexicalState.start, if_neg hquote, if_pos h]

theorem lexemes_number {text : List Char} (h : ∀ c ∈ text, isNumberPart c = true)
    (cs : List Char) :
    (LexicalState.number cs).lexemes text = [.number (String.ofList (cs ++ text))] := by
  rw [LexicalState.lexemes, LexicalState.scan_number h]
  rfl

theorem exists_cons_of_isUnsigned {cs : List Char} (h : IsUnsigned cs) :
    ∃ c rest, cs = c :: rest ∧ isNumberPart c = true ∧ ∀ x ∈ rest, isNumberPart x = true := by
  obtain ⟨x, hx, -⟩ := h.exists_digit
  obtain ⟨c, rest, rfl⟩ := List.exists_cons_of_ne_nil (List.ne_nil_of_mem hx)
  obtain ⟨hc, hrest⟩ := List.forall_mem_cons.1 (isNumberPart_of_isUnsigned h)
  exact ⟨c, rest, rfl, hc, hrest⟩

/-- A number is one part, from its sign or first digit to its last. -/
theorem lexemes_of_isNumber {s : String} (h : IsNumber s.toList) : lexemes s = [.number s] := by
  suffices hparts : between.lexemes s.toList = [.number (String.ofList s.toList)] by
    rw [lexemes, hparts, String.ofList_toList]
  generalize s.toList = cs at h
  cases h with
  | unsigned hu =>
    obtain ⟨c, rest, rfl, hc, hrest⟩ := exists_cons_of_isUnsigned hu
    have hstep : between.step c = ([], .number [c]) := start_of_isNumberPart hc
    rw [LexicalState.lexemes_cons, hstep]
    exact lexemes_number hrest [c]
  | @signed sign cs hsign hu =>
    obtain ⟨c, rest, rfl, hc, hrest⟩ := exists_cons_of_isUnsigned hu
    have hfirst : between.step sign = ([], .sign sign) := by
      rcases hsign with rfl | rfl
      · rfl
      · rfl
    have hsecond : (LexicalState.sign sign).step c = ([], .number [sign, c]) := if_pos hc
    rw [LexicalState.lexemes_cons, hfirst, List.nil_append, LexicalState.lexemes_cons, hsecond]
    exact lexemes_number hrest [sign, c]

/-! ### Days and times as they are written -/

/-- Text without quotes is quoted as it is. -/
theorem literal_eq {s : String} (h : '\'' ∉ s.toList) : Text.literal s = "'" ++ s ++ "'" := by
  rw [← String.toList_inj, Text.toList_literal, Text.double_eq_self h]
  simp

theorem quote_notMem_padDigits (width n : Nat) : '\'' ∉ padDigits width n := by
  intro h
  exact absurd (Numeral.isDigit_of_mem_padDigits h) (by decide)

theorem quote_notMem_date (d : Date) : '\'' ∉ d.textChars := by
  have hyear : '\'' ∉ Date.yearText d.year := by
    unfold Date.yearText
    split
    · exact quote_notMem_padDigits _ _
    · rw [List.mem_cons, not_or]
      refine ⟨?_, quote_notMem_padDigits _ _⟩
      split <;> decide
  simp [Date.textChars, hyear, quote_notMem_padDigits]

theorem quote_notMem_timestamp (t : Timestamp) : '\'' ∉ t.textChars := by
  simp [Timestamp.textChars, TimeOfDay.textChars, quote_notMem_date, quote_notMem_padDigits]

theorem lexemes_literal_self (text : String) : lexemes (Text.literal text) = [.string text] := by
  have h : lexemes ("" ++ Text.literal text ++ "") = lexemes "" ++ .string text :: lexemes "" :=
    lexemes_literal text rfl (by decide)
  rwa [String.empty_append, String.append_empty] at h

theorem lexemes_quoted {text : String} (h : '\'' ∉ text.toList) :
    lexemes ("'" ++ text ++ "'") = [.string text] := by
  rw [← literal_eq h]
  exact lexemes_literal_self text

/-- Text without quotes between two pieces of a statement that bring its quotes. -/
theorem lexemes_around {text a b opening closing : String} (h : '\'' ∉ text.toList)
    (ha : (between.scan a.toList).2 = .between) (hb : b.toList.head? ≠ some '\'')
    (hopening : opening = a ++ "'") (hclosing : closing = "'" ++ b) :
    lexemes (opening ++ text ++ closing) = lexemes a ++ .string text :: lexemes b := by
  have hlit : opening ++ text ++ closing = a ++ Text.literal text ++ b := by
    rw [literal_eq h, hopening, hclosing]
    simp only [String.append_assoc]
  rw [hlit]
  exact lexemes_literal text ha hb

end Lexeme

/-! ## Rendered defaults -/

/-- What a literal is. -/
inductive LiteralForm where
  | string (text : String)
  | number (text : String)
  | keyword (word : String)
  /-- A function of two strings. -/
  | call (function first second : String)

namespace LiteralForm

open Numeral (IsNumber)

/-- The parts of a literal. -/
def lexemes : LiteralForm → List Lexeme
  | .string text => [.string text]
  | .number text => [.number text]
  | .keyword word => [.word word]
  | .call function first second =>
    [.word function, .mark '(', .string first, .mark ',', .mark ' ', .string second, .mark ')']

/-- The literals that a default of a type may have. Only texts hold what was configured as it is;
all else is read first and written anew, or is a number from sign to last digit. -/
inductive IsFor (raw : String) : ColumnType → LiteralForm → Prop
  | text {type : ColumnType} :
      type ∈ [.character, .string, .enumConstant, .clob] → IsFor raw type (.string raw)
  | number {type : ColumnType} {text : String} :
      type.isNumber = true → IsNumber text.toList → IsFor raw type (.number text)
  | truth {word : String} : word ∈ ["TRUE", "FALSE"] → IsFor raw .boolean (.keyword word)
  | letter {text : String} : text ∈ ["Y", "N"] → IsFor raw .boolean (.string text)
  | bit {text : String} : text ∈ ["1", "0"] → IsFor raw .boolean (.number text)
  | today : IsFor raw .date (.keyword "CURRENT_DATE")
  | day (d : Date) : IsFor raw .date (.string d.text)
  | dayCall (d : Date) : IsFor raw .date (.call "TO_DATE" d.text "YYYY-MM-DD")
  | now {type : ColumnType} :
      type ∈ [.timestamp, .timestampUtc] → IsFor raw type (.keyword "CURRENT_TIMESTAMP")
  | time {type : ColumnType} (t : Timestamp) :
      type ∈ [.timestamp, .timestampUtc] → IsFor raw type (.string t.text)
  | timeCall {type : ColumnType} (t : Timestamp) :
      type ∈ [.timestamp, .timestampUtc] →
        IsFor raw type (.call "TO_TIMESTAMP" t.text "YYYY-MM-DD HH24:MI:SS")

end LiteralForm

/-- A text that is read as one literal of a type, and nothing besides, not even a blank. -/
def IsOneLiteral (type : ColumnType) (raw lit : String) : Prop :=
  ∃ form, LiteralForm.IsFor raw type form ∧ Lexeme.lexemes lit = form.lexemes

namespace ColumnRule

open Lexeme LiteralForm

variable {raw lit : String}

theorem isOneLiteral_literal {type : ColumnType}
    (h : type ∈ [ColumnType.character, .string, .enumConstant, .clob]) :
    IsOneLiteral type raw (Text.literal raw) :=
  ⟨.string raw, .text h, lexemes_literal_self raw⟩

theorem isOneLiteral_characterDefault (h : characterDefault raw = .ok lit) :
    IsOneLiteral .character raw lit := by
  unfold characterDefault at h
  split at h
  · cases h
    exact isOneLiteral_literal (by decide)
  · cases h

theorem isOneLiteral_booleanLiteral (style : BooleanStorage) (b : Bool) :
    IsOneLiteral .boolean raw (booleanLiteral style b) := by
  cases style with
  | native =>
    cases b with
    | false => exact ⟨.keyword "FALSE", .truth (by decide), by decide⟩
    | true => exact ⟨.keyword "TRUE", .truth (by decide), by decide⟩
  | yesNo =>
    cases b with
    | false => exact ⟨.string "N", .letter (by decide), by decide⟩
    | true => exact ⟨.string "Y", .letter (by decide), by decide⟩
  | bit =>
    cases b with
    | false => exact ⟨.number "0", .bit (by decide), by decide⟩
    | true => exact ⟨.number "1", .bit (by decide), by decide⟩

theorem isOneLiteral_of_isNumber {type : ColumnType} (ht : type.isNumber = true)
    (h : Numeral.IsNumber lit.toList) : IsOneLiteral type raw lit :=
  ⟨.number lit, .number ht h, lexemes_of_isNumber h⟩

theorem isOneLiteral_integerDefault {type : ColumnType} (ht : type.isNumber = true)
    (h : integerDefault type raw = .ok lit) : IsOneLiteral type raw lit := by
  simp only [integerDefault] at h
  split at h
  · cases h
    exact isOneLiteral_of_isNumber ht (Numeral.isNumber_int _)
  · cases h

theorem isOneLiteral_floatingDefault {type : ColumnType} (ht : type.isNumber = true)
    (h : floatingDefault type raw = .ok lit) : IsOneLiteral type raw lit := by
  simp only [floatingDefault] at h
  split at h
  · split at h
    · next hfinite =>
      cases h
      exact isOneLiteral_of_isNumber ht (Numeral.isNumber_double hfinite)
    · cases h
  · cases h

theorem isOneLiteral_decimalDefault (h : decimalDefault raw = .ok lit) :
    IsOneLiteral .decimal raw lit := by
  simp only [decimalDefault] at h
  split at h
  · next hdecimal =>
    cases h
    exact isOneLiteral_of_isNumber rfl (Numeral.isNumber_of_isPlainDecimal hdecimal)
  · cases h

theorem isOneLiteral_dateDefault {style : CalendarLiteral} (h : dateDefault style raw = .ok lit) :
    IsOneLiteral .date raw lit := by
  simp only [dateDefault] at h
  split at h
  · cases h
    exact ⟨.keyword "CURRENT_DATE", .today, by decide⟩
  · split at h
    · cases h
    · next d _ =>
      cases h
      have hquote : '\'' ∉ d.text.toList := by
        rw [Date.text, String.toList_ofList]
        exact quote_notMem_date d
      cases style with
      | quoted => exact ⟨.string d.text, .day d, lexemes_quoted hquote⟩
      | function =>
        refine ⟨.call "TO_DATE" d.text "YYYY-MM-DD", .dayCall d, ?_⟩
        show Lexeme.lexemes ("TO_DATE('" ++ d.text ++ "', 'YYYY-MM-DD')") = _
        rw [lexemes_around (a := "TO_DATE(") (b := ", 'YYYY-MM-DD')") hquote (by decide) (by decide)
          (by decide) (by decide)]
        rfl

theorem isOneLiteral_timestampDefault {type : ColumnType} {style : CalendarLiteral}
    (ht : type ∈ [ColumnType.timestamp, .timestampUtc])
    (h : timestampDefault type style raw = .ok lit) : IsOneLiteral type raw lit := by
  simp only [timestampDefault] at h
  split at h
  · cases h
    exact ⟨.keyword "CURRENT_TIMESTAMP", .now ht, by decide⟩
  · split at h
    · cases h
    · next t _ =>
      cases h
      have hquote : '\'' ∉ t.text.toList := by
        rw [Timestamp.text, String.toList_ofList]
        exact quote_notMem_timestamp t
      cases style with
      | quoted => exact ⟨.string t.text, .time t ht, lexemes_quoted hquote⟩
      | function =>
        refine ⟨.call "TO_TIMESTAMP" t.text "YYYY-MM-DD HH24:MI:SS", .timeCall t ht, ?_⟩
        show Lexeme.lexemes ("TO_TIMESTAMP('" ++ t.text ++ "', 'YYYY-MM-DD HH24:MI:SS')") = _
        rw [lexemes_around (a := "TO_TIMESTAMP(") (b := ", 'YYYY-MM-DD HH24:MI:SS')") hquote
          (by decide) (by decide) (by decide) (by decide)]
        rfl

/-- Rules whose type is one that they are made for. -/
def isTyped : ColumnRule → Bool
  | .integer type .. | .floating type .. => type.isNumber
  | .timestamp type .. => [ColumnType.timestamp, .timestampUtc].contains type
  | .string type .. => [ColumnType.string, .enumConstant].contains type
  | .character | .boolean _ | .decimal .. | .date _ | .clob .. | .blob .. => true

/-- What is rendered is one literal of the type, or what the type has in place of an empty large
object. -/
theorem isOneLiteral_defaultLiteral {p : ColumnRule} (hp : p.isTyped = true)
    (h : p.defaultLiteral raw = .ok lit) :
    raw = "" ∧ p.emptyLiteral? = some lit ∨ IsOneLiteral p.columnType raw lit := by
  cases p with
  | character => exact .inr (isOneLiteral_characterDefault h)
  | boolean style =>
    simp only [defaultLiteral] at h
    split at h
    · cases h
      exact .inr (isOneLiteral_booleanLiteral style _)
    · cases h
  | integer type => exact .inr (isOneLiteral_integerDefault hp h)
  | floating type => exact .inr (isOneLiteral_floatingDefault hp h)
  | decimal => exact .inr (isOneLiteral_decimalDefault h)
  | date literal =>
    rw [defaultLiteral] at h
    exact .inr (isOneLiteral_dateDefault h)
  | timestamp type declaration literal =>
    rw [defaultLiteral] at h
    have htype : type ∈ [ColumnType.timestamp, .timestampUtc] := List.contains_iff_mem.1 hp
    exact .inr (isOneLiteral_timestampDefault htype h)
  | clob declaration code binding emptyLiteral =>
    simp only [defaultLiteral] at h
    split at h
    · next hempty =>
      cases h
      exact .inl ⟨String.isEmpty_iff.1 hempty, rfl⟩
    · cases h
      exact .inr (isOneLiteral_literal (by simp [columnType]))
  | blob declaration code binding emptyLiteral =>
    simp only [defaultLiteral] at h
    split at h
    · next hempty =>
      cases h
      exact .inl ⟨String.isEmpty_iff.1 hempty, rfl⟩
    · cases h
  | string type =>
    cases h
    have htype : type ∈ [ColumnType.string, .enumConstant] := List.contains_iff_mem.1 hp
    refine .inr (isOneLiteral_literal ?_)
    simp only [List.mem_cons, List.not_mem_nil, or_false] at htype ⊢
    rcases htype with rfl | rfl
    · exact .inr (.inl rfl)
    · exact .inr (.inr (.inl rfl))

end ColumnRule

namespace Dialect

theorem isTyped_builtin (db : Database) (type : ColumnType) :
    ((Dialect.builtin db).columnRule type).isTyped = true := by
  cases db <;> cases type <;> decide

/-- In every dialect a rendered default is read as one literal of its type, which for text is the
configured text; nothing of it is read as anything else. Empty large objects have an expression of
their own. -/
theorem isOneLiteral_rendered_builtin {db : Database} {type : ColumnType} {raw lit : String}
    (h : ((Dialect.builtin db).columnRule type).defaultLiteral raw = .ok lit) :
    raw = "" ∧ ((Dialect.builtin db).columnRule type).emptyLiteral? = some lit ∨
      IsOneLiteral type raw lit := by
  have hliteral := ColumnRule.isOneLiteral_defaultLiteral (isTyped_builtin db type) h
  rwa [columnType_columnRule] at hliteral

/-- A quote, a second statement and a comment in a text are all text. -/
theorem isOneLiteral_dropped_table :
    ((Dialect.builtin .hsqldb).columnRule .string).defaultLiteral "'); DROP TABLE NOTE --" =
        .ok "'''); DROP TABLE NOTE --'" ∧
      IsOneLiteral .string "'); DROP TABLE NOTE --" "'''); DROP TABLE NOTE --'" := by
  have h : ((Dialect.builtin .hsqldb).columnRule .string).defaultLiteral "'); DROP TABLE NOTE --" =
      .ok "'''); DROP TABLE NOTE --'" := by decide +kernel
  have hraw : "'); DROP TABLE NOTE --" ≠ "" := by decide +kernel
  exact ⟨h, (isOneLiteral_rendered_builtin h).resolve_left fun hempty => hraw hempty.1⟩

end Dialect

end SqlDialects
