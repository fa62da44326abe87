import Mathlib
import SqlDialects.Dialect.Builtin

/-!
# A statement as its database reads it

Statements are texts, and what they mean to a database is decided by its reading of the characters.
A quoted name may hold any of them: only the quotes of the dialect say where it ends. This module
reads texts into tokens, one character at a time, and says when the tokens of two texts side by side
are those of one followed by those of the other.

Results:
1. `Reads.append`, `reads_intercalate`: texts that no name runs through are read one by one.
2. `reads_written`: a name as it is written is read as the name, folded.
3. `count_placeholder`: where no name holds one, the placeholders of a text are tokens.
-/

namespace SqlDialects

/-- A token of a statement. -/
inductive Token where
  /-- A word that the dialect reserves, in capitals. -/
  | keyword (word : String)
  /-- A name without its quotes. -/
  | name (text : String)
  /-- A word that starts with a digit. -/
  | number (text : String)
  /-- Any other character. -/
  | mark (c : Char)
  /-- A name whose closing quote is missing. -/
  | unclosed (text : String)
deriving DecidableEq, Repr

/-- The placeholders that a token stands for or hides in a name. -/
def Token.placeholders : Token → Nat
  | .mark c => [c].count '?'
  | .name text | .unclosed text => text.toList.count '?'
  | .keyword _ | .number _ => 0

/-- A token without a placeholder in its name. -/
def Token.IsClean : Token → Prop
  | .name text | .unclosed text => '?' ∉ text.toList
  | .keyword _ | .number _ | .mark _ => True

/-- Where in a text its reader is, with the characters of the token it has begun. -/
inductive Position where
  | between
  | word (cs : List Char)
  | quoted (cs : List Char)
  /-- After a closing quote, which the next character may turn into one that is part of the name. -/
  | closed (cs : List Char)
deriving DecidableEq, Repr

namespace Position

/-- Whether the reader is outside quotes. -/
def isOutside : Position → Bool
  | .quoted _ => false
  | _ => true

/-- The placeholders hidden in the name that has begun. -/
def placeholders : Position → Nat
  | .between | .word _ => 0
  | .quoted cs | .closed cs => cs.count '?'

/-- A word that has begun has no placeholder. -/
def IsClean : Position → Prop
  | .word cs => '?' ∉ cs
  | .between | .quoted _ | .closed _ => True

end Position

namespace Naming

/-- The token of a word. -/
def wordToken (r : Naming) (cs : List Char) : Token :=
  let word := String.ofList cs
  if !isWord cs then .number word
  else if r.isReserved word then .keyword (Text.asciiUpper word)
  else .name word

/-- The token that has begun. -/
def pending (r : Naming) : Position → List Token
  | .between => []
  | .word cs => [r.wordToken cs]
  | .quoted cs => [.unclosed (String.ofList cs)]
  | .closed cs => [.name (String.ofList cs)]

/-- Reads a character that belongs to no token before it. -/
def readFirst (r : Naming) (c : Char) : List Token × Position :=
  if c = r.openQuote then ([], .quoted [])
  else if continuesWord c then ([], .word [c])
  else if Text.isBlank c then ([], .between)
  else ([.mark c], .between)

/-- Reads a character: the tokens that end with it, and where the reader is then. -/
def readChar (r : Naming) (p : Position) (c : Char) : List Token × Position :=
  match p with
  | .word cs =>
    if continuesWord c then ([], .word (cs ++ [c]))
    else (r.pending p ++ (r.readFirst c).1, (r.readFirst c).2)
  | .quoted cs => if c = r.closeQuote then ([], .closed cs) else ([], .quoted (cs ++ [c]))
  | .closed cs =>
    if c = r.closeQuote then ([], .quoted (cs ++ [c]))
    else (r.pending p ++ (r.readFirst c).1, (r.readFirst c).2)
  | .between => r.readFirst c

/-- Reads characters. -/
def scan (r : Naming) (p : Position) : List Char → List Token × Position
  | [] => ([], p)
  | c :: rest =>
    ((r.readChar p c).1 ++ (r.scan (r.readChar p c).2 rest).1, (r.scan (r.readChar p c).2 rest).2)

/-- The tokens of a text. -/
def tokens (r : Naming) (s : String) : List Token :=
  (r.scan .between s.toList).1 ++ r.pending (r.scan .between s.toList).2

/-- A character that belongs to no name before it. -/
def isApart (r : Naming) (c : Char) : Bool := !continuesWord c && c != r.closeQuote

/-- A text that belongs to no name before it. -/
def StartsApart (r : Naming) (s : String) : Prop := s.toList.head?.all r.isApart = true

/-- A text without a name at its end. -/
def EndsApart (r : Naming) (s : String) : Prop := (r.scan .between s.toList).2 = .between

/-- A text whose quotes are all closed. -/
def IsClosed (r : Naming) (s : String) : Prop := (r.scan .between s.toList).2.isOutside = true

instance (r : Naming) (s : String) : Decidable (r.StartsApart s) :=
  inferInstanceAs (Decidable (_ = true))

instance (r : Naming) (s : String) : Decidable (r.EndsApart s) :=
  inferInstanceAs (Decidable (_ = Position.between))

instance (r : Naming) (s : String) : Decidable (r.IsClosed s) :=
  inferInstanceAs (Decidable (_ = true))

/-- A text that is read as these tokens, wherever a name does not run into it. -/
def Reads (r : Naming) (s : String) (ts : List Token) : Prop := r.IsClosed s ∧ r.tokens s = ts

/-- A text that stands apart on both sides, and its tokens. -/
structure Separates (r : Naming) (s : String) (ts : List Token) : Prop where
  ne : s ≠ ""
  starts : r.StartsApart s
  ends : r.EndsApart s
  tokens : r.tokens s = ts

instance (r : Naming) (s : String) (ts : List Token) : Decidable (r.Reads s ts) :=
  inferInstanceAs (Decidable (_ ∧ _))

instance (r : Naming) (s : String) (ts : List Token) : Decidable (r.Separates s ts) :=
  decidable_of_iff (s ≠ "" ∧ r.StartsApart s ∧ r.EndsApart s ∧ r.tokens s = ts)
    ⟨fun ⟨h1, h2, h3, h4⟩ => ⟨h1, h2, h3, h4⟩, fun ⟨h1, h2, h3, h4⟩ => ⟨h1, h2, h3, h4⟩⟩

variable {r : Naming}

/-! ## Texts side by side -/

theorem scan_append (p : Position) (a b : List Char) :
    r.scan p (a ++ b) =
      ((r.scan p a).1 ++ (r.scan (r.scan p a).2 b).1, (r.scan (r.scan p a).2 b).2) := by
  induction a generalizing p with
  | nil => rfl
  | cons c rest ih => simp only [List.cons_append, scan, ih, List.append_assoc]

/-- What stands apart from a name ends it. -/
theorem readChar_of_isApart {p : Position} {c : Char} (hp : p.isOutside = true)
    (hc : r.isApart c = true) :
    r.readChar p c = (r.pending p ++ (r.readFirst c).1, (r.readFirst c).2) := by
  obtain ⟨hword, hquote⟩ : continuesWord c = false ∧ c ≠ r.closeQuote := by
    simpa [isApart] using hc
  cases p with
  | between => rfl
  | word cs => simp [readChar, hword]
  | quoted cs => cases hp
  | closed cs => simp [readChar, hquote]

theorem scan_of_startsApart {p : Position} {c : Char} {cs : List Char} (hp : p.isOutside = true)
    (hc : r.isApart c = true) :
    r.scan p (c :: cs) =
      (r.pending p ++ (r.scan .between (c :: cs)).1, (r.scan .between (c :: cs)).2) := by
  rw [scan, readChar_of_isApart hp hc]
  simp only [scan, readChar, List.append_assoc]

/-- Where no name runs from one text into the next, the next is read as if it came first. -/
theorem scan_append_of_apart {a b : String} (ha : r.IsClosed a)
    (h : r.EndsApart a ∨ r.StartsApart b) :
    r.scan .between (a ++ b).toList =
      if b.toList = [] then r.scan .between a.toList
      else (r.tokens a ++ (r.scan .between b.toList).1, (r.scan .between b.toList).2) := by
  rw [String.toList_append, scan_append]
  cases hb : b.toList with
  | nil => simp [scan]
  | cons c cs =>
    rw [if_neg (List.cons_ne_nil c cs)]
    rcases h with he | hs
    · rw [EndsApart] at he
      simp only [tokens, he, pending, List.append_nil]
    · have hc : r.isApart c = true := by simpa [StartsApart, hb] using hs
      simp only [scan_of_startsApart ha hc, tokens, List.append_assoc]

theorem Reads.append {a b : String} {ts us : List Token} (ha : r.Reads a ts) (hb : r.Reads b us)
    (h : r.EndsApart a ∨ r.StartsApart b) : r.Reads (a ++ b) (ts ++ us) := by
  obtain ⟨hac, rfl⟩ := ha
  obtain ⟨hbc, rfl⟩ := hb
  unfold Reads IsClosed tokens
  rw [scan_append_of_apart hac h]
  split
  · next hnil => exact ⟨hac, by simp [hnil, scan, pending]⟩
  · exact ⟨hbc, by simp only [tokens, List.append_assoc]⟩

theorem EndsApart.append {a b : String} (ha : r.EndsApart a) (hb : r.EndsApart b) :
    r.EndsApart (a ++ b) := by
  have hclosed : r.IsClosed a := by
    rw [IsClosed, ha]
    rfl
  unfold EndsApart
  rw [scan_append_of_apart hclosed (Or.inl ha)]
  split
  · exact ha
  · exact hb

theorem StartsApart.append {a b : String} (ha : r.StartsApart a) (hb : r.StartsApart b) :
    r.StartsApart (a ++ b) := by
  unfold StartsApart at *
  rw [String.toList_append]
  cases h : a.toList with
  | nil => exact hb
  | cons c cs => simpa [h] using ha

theorem reads_empty : r.Reads "" [] := ⟨rfl, rfl⟩

theorem startsApart_empty : r.StartsApart "" := rfl

theorem endsApart_empty : r.EndsApart "" := rfl

theorem Separates.reads {s : String} {ts : List Token} (h : r.Separates s ts) : r.Reads s ts := by
  refine ⟨?_, h.tokens⟩
  rw [IsClosed, h.ends]
  rfl

theorem Separates.startsApart_append {s : String} {ts : List Token} (h : r.Separates s ts)
    (b : String) : r.StartsApart (s ++ b) := by
  have hs := h.starts
  unfold StartsApart at *
  rw [String.toList_append]
  cases hl : s.toList with
  | nil => exact absurd (String.toList_eq_nil_iff.1 hl) h.ne
  | cons c cs => simpa [hl] using hs

theorem Separates.reads_append {s b : String} {ts us : List Token} (h : r.Separates s ts)
    (hb : r.Reads b us) : r.Reads (s ++ b) (ts ++ us) :=
  h.reads.append hb (Or.inl h.ends)

theorem Separates.endsApart_append {a s : String} {ts : List Token} (h : r.Separates s ts)
    (ha : r.IsClosed a) : r.EndsApart (a ++ s) := by
  unfold EndsApart
  rw [scan_append_of_apart ha (Or.inr h.starts), if_neg (mt String.toList_eq_nil_iff.1 h.ne)]
  exact h.ends

/-- Texts with a separator between them are read one after the other. -/
theorem Reads.separated {a s b : String} {ts ss us : List Token} (ha : r.Reads a ts)
    (hs : r.Separates s ss) (hb : r.Reads b us) : r.Reads (a ++ s ++ b) (ts ++ ss ++ us) := by
  rw [String.append_assoc, List.append_assoc]
  exact ha.append (hs.reads_append hb) (Or.inr (hs.startsApart_append b))

/-- The items of a list are read one after the other. -/
theorem reads_intercalate {α : Type} {glue : String} {gs : List Token} {items : List α}
    {text : α → String} {read : α → List Token} (hg : r.Separates glue gs)
    (h : ∀ x ∈ items, r.Reads (text x) (read x)) :
    r.Reads (glue.intercalate (items.map text)) (gs.intercalate (items.map read)) := by
  induction items with
  | nil => exact reads_empty
  | cons x rest ih =>
    have hrest := ih fun y hy => h y (List.mem_cons_of_mem _ hy)
    cases rest with
    | nil => simpa using h
    | cons y rest =>
      simp only [List.map_cons, String.intercalate_cons_cons, List.intercalate_cons_cons] at hrest ⊢
      exact (h x List.mem_cons_self).separated hg hrest

/-! ## Names -/

/-- The quotes are not taken for anything else: they are no part of a word, and not placeholders. -/
structure HasOwnQuotes (r : Naming) : Prop where
  openQuote : continuesWord r.openQuote = false
  placeholder : r.openQuote ≠ '?' ∧ r.closeQuote ≠ '?'

/-- The quotes and reserved words of one of the dialects. -/
def IsBuiltin (r : Naming) : Prop := ∃ db, (Dialect.builtin db).naming = r

theorem isBuiltin (db : Database) : (Dialect.builtin db).naming.IsBuiltin := ⟨db, rfl⟩

theorem IsBuiltin.hasOwnQuotes (h : r.IsBuiltin) : r.HasOwnQuotes := by
  obtain ⟨db, rfl⟩ := h
  cases db <;> exact ⟨by decide, by decide⟩

theorem continuesWord_of_startsWord {c : Char} (h : startsWord c = true) :
    continuesWord c = true := by
  rcases Bool.or_eq_true_iff.1 h with ha | hu
  · simp [continuesWord, Char.isAlphanum, ha]
  · simp [continuesWord, hu]

theorem all_continuesWord_of_isWord {cs : List Char} (h : isWord cs = true) :
    cs.all continuesWord = true := by
  cases cs with
  | nil => rfl
  | cons c rest =>
    obtain ⟨hc, hrest⟩ : startsWord c = true ∧ rest.all continuesWord = true := by
      simpa [isWord] using h
    rw [List.all_cons, continuesWord_of_startsWord hc, hrest]
    rfl

theorem scan_word (cs : List Char) {rest : List Char} (h : rest.all continuesWord = true) :
    r.scan (.word cs) rest = ([], .word (cs ++ rest)) := by
  induction rest generalizing cs with
  | nil => simp [scan]
  | cons c rest ih =>
    obtain ⟨hc, hrest⟩ : continuesWord c = true ∧ rest.all continuesWord = true := by
      simpa using h
    simp [scan, readChar, hc, ih _ hrest]

/-- Word characters are one token, whatever it is. -/
theorem scan_between_word (hq : r.HasOwnQuotes) {cs : List Char} (hne : cs ≠ [])
    (h : cs.all continuesWord = true) : r.scan .between cs = ([], .word cs) := by
  cases cs with
  | nil => exact absurd rfl hne
  | cons c rest =>
    obtain ⟨hc, hrest⟩ : continuesWord c = true ∧ rest.all continuesWord = true := by
      simpa using h
    have ho : c ≠ r.openQuote := by
      rintro rfl
      simp [hq.openQuote] at hc
    simp [scan, readChar, readFirst, ho, hc, scan_word _ hrest]

/-- Doubled closing quotes are read as single ones and do not end the name. -/
theorem scan_double (cs name : List Char) :
    r.scan (.quoted cs) (Text.double r.closeQuote name) = ([], .quoted (cs ++ name)) := by
  induction name generalizing cs with
  | nil => simp [Text.double, scan]
  | cons c rest ih =>
    by_cases hc : c = r.closeQuote
    · simp [Text.double, hc, scan, readChar, ih]
    · simp [Text.double, hc, scan, readChar, ih]

theorem scan_quoted (name : String) :
    r.scan .between (r.quoted name).toList = ([], .closed name.toList) := by
  have hopen : r.scan .between [r.openQuote] = ([], .quoted []) := by
    simp [scan, readChar, readFirst]
  have hclose (cs : List Char) : r.scan (.quoted cs) [r.closeQuote] = ([], .closed cs) := by
    simp [scan, readChar]
  have hsplit : (r.quoted name).toList =
      [r.openQuote] ++ (Text.double r.closeQuote name.toList ++ [r.closeQuote]) := by
    simp [quoted, Text.enclose]
  rw [hsplit, scan_append, hopen, scan_append, scan_double, hclose]
  rfl

/-- What is written without quotes is a word, and none that is reserved. -/
theorem written_cases (r : Naming) (name : String) :
    r.written name = r.quoted (r.folded name) ∨
      r.written name = r.folded name ∧ isWord (r.folded name).toList = true ∧
        r.isReserved (r.folded name) = false := by
  by_cases hm : r.mustQuote (r.folded name) = true
  · exact .inl (if_pos hm)
  · exact .inr ⟨if_neg hm, by simpa [mustQuote] using hm⟩

/-- At the end of a written name the reader has it, folded, and has it alone. -/
theorem scan_written (hq : r.HasOwnQuotes) (name : String) :
    ∃ p : Position, r.scan .between (r.written name).toList = ([], p) ∧ p.isOutside = true ∧
      r.pending p = [.name (r.folded name)] := by
  rcases r.written_cases name with hw | ⟨hw, hword, hres⟩
  · rw [hw, scan_quoted]
    exact ⟨_, rfl, rfl, by simp [pending]⟩
  · have hne : (r.folded name).toList ≠ [] := by
      intro h
      rw [h] at hword
      cases hword
    rw [hw, scan_between_word hq hne (all_continuesWord_of_isWord hword)]
    exact ⟨_, rfl, rfl, by simp [pending, wordToken, hword, hres]⟩

/-- A name as it is written is read as the name, folded, up to whatever comes next. -/
theorem reads_written (hq : r.HasOwnQuotes) (name : String) :
    r.Reads (r.written name) [.name (r.folded name)] := by
  obtain ⟨p, hscan, houtside, hpending⟩ := scan_written hq name
  rw [Reads, IsClosed, tokens, hscan]
  exact ⟨houtside, hpending⟩

/-- The tokens of a name in a schema. -/
def qualifiedTokens (r : Naming) (schema : Option String) (name : String) : List Token :=
  match schema with
  | some schema => [.name (r.folded schema), .mark '.', .name (r.folded name)]
  | none => [.name (r.folded name)]

theorem reads_writtenIn (hr : r.IsBuiltin) (schema : Option String) (name : String) :
    r.Reads (r.writtenIn schema name) (r.qualifiedTokens schema name) := by
  have hdot : r.Separates "." [.mark '.'] := by
    obtain ⟨db, rfl⟩ := hr
    cases db <;> decide
  cases schema with
  | none => exact reads_written hr.hasOwnQuotes name
  | some schema =>
    exact (reads_written hr.hasOwnQuotes schema).separated hdot
      (reads_written hr.hasOwnQuotes name)

theorem startsWord_of_isDigit {c : Char} (h : c.isDigit = true) : startsWord c = false := by
  rw [Char.isDigit_iff_toNat] at h
  have h9 : c.toNat ≤ 57 := h.2
  cases hs : startsWord c with
  | false => rfl
  | true =>
    simp only [startsWord, Char.isAlpha, Char.isUpper, Char.isLower, Bool.or_eq_true,
      Bool.and_eq_true, decide_eq_true_eq, beq_iff_eq, ge_iff_le, UInt32.le_iff_toNat_le,
      Char.toNat_val] at hs
    rcases hs with (⟨h1, _⟩ | ⟨h1, _⟩) | rfl
    · simp at h1
      omega
    · simp at h1
      omega
    · revert h9
      decide

/-- A number is read as one, in all of its digits. -/
theorem reads_nat (hq : r.HasOwnQuotes) (n : Nat) :
    r.Reads (toString n) [.number (toString n)] := by
  have hlist : (toString n).toList = Nat.toDigits 10 n := by simp
  have hdigit : ∀ c ∈ (toString n).toList, c.isDigit = true := by
    rw [hlist]
    exact fun c hc => Nat.isDigit_of_mem_toDigits (by decide) (by decide) hc
  have hall : (toString n).toList.all continuesWord = true := by
    rw [List.all_eq_true]
    intro c hc
    simp [continuesWord, Char.isAlphanum, hdigit c hc]
  cases hcs : (toString n).toList with
  | nil => exact absurd (hlist.symm.trans hcs) Nat.toDigits_ne_nil
  | cons c rest =>
    rw [hcs] at hdigit hall
    have hword : isWord (c :: rest) = false := by
      simp [isWord, startsWord_of_isDigit (hdigit c List.mem_cons_self)]
    have hscan := scan_between_word hq (List.cons_ne_nil c rest) hall
    rw [Reads, IsClosed, tokens, hcs, hscan]
    refine ⟨rfl, ?_⟩
    rw [pending, wordToken, hword, ← hcs, String.ofList_toList]
    rfl

/-! ## Placeholders -/

theorem sum_placeholders_pending {p : Position} (h : p.IsClean) :
    ((r.pending p).map Token.placeholders).sum = p.placeholders := by
  cases p with
  | between => rfl
  | word cs =>
    have h0 : cs.count '?' = 0 := List.count_eq_zero.2 h
    have hw : (r.wordToken cs).placeholders = 0 := by
      unfold wordToken
      dsimp only
      split
      · rfl
      · split
        · rfl
        · simpa [Token.placeholders] using h0
    simpa [pending, Position.placeholders] using hw
  | quoted cs => simp [pending, Token.placeholders, Position.placeholders]
  | closed cs => simp [pending, Token.placeholders, Position.placeholders]

theorem ne_placeholder_of_continuesWord {c : Char} (h : continuesWord c = true) : c ≠ '?' := by
  rintro rfl
  revert h
  decide

theorem ne_placeholder_of_isBlank {c : Char} (h : Text.isBlank c = true) : c ≠ '?' := by
  rintro rfl
  revert h
  decide

theorem readFirst_placeholders (hq : r.HasOwnQuotes) (c : Char) :
    (r.readFirst c).2.IsClean ∧
      ((r.readFirst c).1.map Token.placeholders).sum + (r.readFirst c).2.placeholders =
        [c].count '?' := by
  unfold readFirst
  split
  · next h =>
    have hc : c ≠ '?' := h ▸ hq.placeholder.1
    exact ⟨trivial, by simp [Position.placeholders, hc]⟩
  · split
    · next h =>
      have hc := ne_placeholder_of_continuesWord h
      exact ⟨by simpa [Position.IsClean] using hc.symm, by simp [Position.placeholders, hc]⟩
    · split
      · next h =>
        have hc := ne_placeholder_of_isBlank h
        exact ⟨trivial, by simp [Position.placeholders, hc]⟩
      · exact ⟨trivial, by simp [Position.placeholders, Token.placeholders]⟩

/-- Ending the token before a character loses no placeholder of it. -/
theorem readAfter_placeholders (hq : r.HasOwnQuotes) {p : Position} (hp : p.IsClean) (c : Char) :
    (r.readFirst c).2.IsClean ∧
      ((r.pending p ++ (r.readFirst c).1).map Token.placeholders).sum +
        (r.readFirst c).2.placeholders = p.placeholders + [c].count '?' := by
  obtain ⟨hclean, hfirst⟩ := readFirst_placeholders hq c
  refine ⟨hclean, ?_⟩
  rw [List.map_append, List.sum_append, sum_placeholders_pending hp]
  omega

theorem readChar_placeholders (hq : r.HasOwnQuotes) {p : Position} (hp : p.IsClean) (c : Char) :
    (r.readChar p c).2.IsClean ∧
      ((r.readChar p c).1.map Token.placeholders).sum + (r.readChar p c).2.placeholders =
        p.placeholders + [c].count '?' := by
  have hafter := readAfter_placeholders hq hp c
  unfold readChar
  split
  · next cs =>
    split
    · next h =>
      have hc := ne_placeholder_of_continuesWord h
      have hcs : '?' ∉ cs := hp
      exact ⟨by simp [Position.IsClean, hcs, hc.symm], by simp [Position.placeholders, hc]⟩
    · exact hafter
  · split
    · next h =>
      have hc : c ≠ '?' := h ▸ hq.placeholder.2
      exact ⟨trivial, by simp [Position.placeholders, hc]⟩
    · exact ⟨trivial, by simp [Position.placeholders]⟩
  · split
    · next h =>
      have hc : c ≠ '?' := h ▸ hq.placeholder.2
      exact ⟨trivial, by simp [Position.placeholders, hc]⟩
    · exact hafter
  · exact hafter

theorem scan_placeholders (hq : r.HasOwnQuotes) {p : Position} (hp : p.IsClean) (cs : List Char) :
    (r.scan p cs).2.IsClean ∧
      ((r.scan p cs).1.map Token.placeholders).sum + (r.scan p cs).2.placeholders =
        p.placeholders + cs.count '?' := by
  induction cs generalizing p with
  | nil => exact ⟨hp, by simp [scan]⟩
  | cons c rest ih =>
    obtain ⟨hword, hchar⟩ := readChar_placeholders hq hp c
    obtain ⟨hlast, hrest⟩ := ih hword
    refine ⟨hlast, ?_⟩
    have hcount : (c :: rest).count '?' = [c].count '?' + rest.count '?' := by
      rw [← List.count_append, List.singleton_append]
    simp only [scan, List.map_append, List.sum_append, hcount]
    omega

theorem placeholders_of_isClean {ts : List Token} (h : ∀ t ∈ ts, t.IsClean) :
    (ts.map Token.placeholders).sum = ts.count (.mark '?') := by
  induction ts with
  | nil => rfl
  | cons t rest ih =>
    have ht : t.placeholders = [t].count (.mark '?') := by
      have hclean := h t List.mem_cons_self
      cases t with
      | name text => simpa [Token.placeholders] using List.count_eq_zero.2 hclean
      | unclosed text => simpa [Token.placeholders] using List.count_eq_zero.2 hclean
      | keyword word => simp [Token.placeholders]
      | number text => simp [Token.placeholders]
      | mark c => simp [Token.placeholders, List.count_singleton]
    have hcount : (t :: rest).count (.mark '?') =
        [t].count (.mark '?') + rest.count (.mark '?') := by
      rw [← List.count_append, List.singleton_append]
    rw [List.map_cons, List.sum_cons, ih fun t hm => h t (List.mem_cons_of_mem _ hm), ht, hcount]

/-- Where no name holds one, the placeholders of a text are tokens of their own. -/
theorem count_placeholder (hq : r.HasOwnQuotes) {s : String} (h : ∀ t ∈ r.tokens s, t.IsClean) :
    s.toList.count '?' = (r.tokens s).count (.mark '?') := by
  obtain ⟨hclean, hsum⟩ := scan_placeholders hq (p := .between) trivial s.toList
  rw [← placeholders_of_isClean h, tokens, List.map_append, List.sum_append,
    sum_placeholders_pending hclean, hsum]
  simp [Position.placeholders]

end Naming

/-! ## Lower case -/

namespace Text

theorem ofNat_ne_placeholder {n : Nat} (h : 0x3F < n) : Char.ofNat n ≠ '?' := by
  intro he
  have hn : (Char.ofNat n).toNat = 0x3F := congrArg Char.toNat he
  rw [Char.toNat_ofNat] at hn
  split at hn
  · omega
  · cases hn

/-- No letter has a placeholder for its lower case: the table has letters beyond it only. -/
theorem eq_placeholder_of_mem_lowerChar {c : Char} (h : '?' ∈ lowerChar c) : c = '?' := by
  have hascii : ∀ n < 0x80, (Char.ofNat n).toLower = '?' → Char.ofNat n = '?' := by decide +kernel
  have htable : caseRuns.all (fun run => 0x3F < run.lower) = true := by decide +kernel
  unfold lowerChar at h
  split at h
  · next hlt =>
    have he := hascii c.toNat hlt
    rw [Char.ofNat_toNat] at he
    exact he (List.mem_singleton.1 h).symm
  · split at h
    · exact absurd h (by decide)
    · split at h
      · next run hrun =>
        have hlower : 0x3F < run.lower := by
          simpa using List.all_eq_true.1 htable run (List.mem_of_find?_eq_some hrun)
        have hlt : 0x3F < run.lower + (c.toNat - run.first) := by omega
        exact absurd (List.mem_singleton.1 h).symm (ofNat_ne_placeholder hlt)
      · exact (List.mem_singleton.1 h).symm

theorem mem_of_mem_lowerFrom {before cs : List Char} (h : '?' ∈ lowerFrom before cs) :
    '?' ∈ cs := by
  induction cs generalizing before with
  | nil => cases h
  | cons c rest ih =>
    rw [lowerFrom, List.mem_append] at h
    rcases h with h | h
    · split at h
      · split at h <;> exact absurd h (by decide)
      · exact eq_placeholder_of_mem_lowerChar h ▸ List.mem_cons_self
    · exact List.mem_cons_of_mem _ (ih h)

end Text

namespace Naming

variable {r : Naming}

theorem notMem_folded {name : String} (h : '?' ∉ name.toList) : '?' ∉ (r.folded name).toList := by
  unfold folded
  split
  · rw [Text.lower, String.toList_ofList]
    exact fun hm => h (Text.mem_of_mem_lowerFrom hm)
  · exact h

end Naming

end SqlDialects
