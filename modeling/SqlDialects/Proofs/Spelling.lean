import SqlDialects.Proofs.ClosedLiteral

/-!
# Parts of a text put together again

Cutting a text into parts loses nothing of it: written one after the other, the parts are the text.
So a text whose parts are known is known itself.

Results:
1. `Lexeme.flatMap_spelling`: the parts of a text, written out, are the text.
2. `Lexeme.eq_of_lexemes_eq`: texts with the same parts are the same.
3. `Lexeme.lexemes_append`: a text that leaves no string open is cut off from what follows, unless
   that goes on with its last part.
-/

namespace SqlDialects

/-- The characters that a part is read from. -/
def Lexeme.spelling : Lexeme → List Char
  | .string text => '\'' :: (Text.double '\'' text.toList ++ ['\''])
  | .number text | .word text => text.toList
  | .mark c => [c]
  | .unclosed text => '\'' :: Text.double '\'' text.toList

namespace LexicalState

/-! ## One character after the other -/

/-- The characters of the part that has begun. -/
def begun : LexicalState → List Char
  | .between => []
  | .quoted cs => '\'' :: Text.double '\'' cs
  | .closed cs => '\'' :: (Text.double '\'' cs ++ ['\''])
  | .sign c => [c]
  | .number cs | .word cs => cs

theorem flatMap_spelling_pending (p : LexicalState) :
    p.pending.flatMap Lexeme.spelling = p.begun := by
  cases p <;> simp [pending, begun, Lexeme.spelling]

theorem begun_start (c : Char) :
    (start c).1.flatMap Lexeme.spelling ++ (start c).2.begun = [c] := by
  unfold start
  split
  · next hquote => rw [hquote]; rfl
  · split
    · rfl
    · split
      · rfl
      · split <;> rfl

theorem begun_restart (p : LexicalState) (c : Char) :
    (p.restart c).1.flatMap Lexeme.spelling ++ (p.restart c).2.begun = p.begun ++ [c] := by
  rw [restart, List.flatMap_append, flatMap_spelling_pending, List.append_assoc, begun_start]

/-- A character is in the parts that end with it, or in the one that has begun. -/
theorem begun_step (p : LexicalState) (c : Char) :
    (p.step c).1.flatMap Lexeme.spelling ++ (p.step c).2.begun = p.begun ++ [c] := by
  cases p with
  | between => exact begun_start c
  | quoted cs =>
    simp only [step]
    split
    · next hquote => rw [hquote]; rfl
    · next hother => simp [begun, Text.double_append, Text.double, hother]
  | closed cs =>
    simp only [step]
    split
    · next hquote => simp [begun, Text.double_append, Text.double, hquote]
    · exact begun_restart _ c
  | sign s =>
    simp only [step]
    split
    · rfl
    · exact begun_restart _ c
  | number cs =>
    simp only [step]
    split
    · rfl
    · exact begun_restart _ c
  | word cs =>
    simp only [step]
    split
    · rfl
    · exact begun_restart _ c

theorem flatMap_spelling_lexemes (p : LexicalState) (cs : List Char) :
    (p.lexemes cs).flatMap Lexeme.spelling = p.begun ++ cs := by
  induction cs generalizing p with
  | nil => rw [lexemes, scan, List.nil_append, flatMap_spelling_pending, List.append_nil]
  | cons c rest ih =>
    rw [lexemes_cons, List.flatMap_append, ih, ← List.append_assoc, begun_step, List.append_assoc,
      List.singleton_append]

/-! ## Where a text may be cut -/

/-- A character that may go on with a part before it: a quote, or one of a number or a word. -/
def goesOn (c : Char) : Bool := c == '\'' || isNumberPart c || c.isAlphanum || c == '_'

/-- Outside strings a character that goes on with nothing ends the part before it. -/
theorem lexemes_of_not_goesOn {p : LexicalState} {cs : List Char}
    (hp : ∀ text, p ≠ .quoted text) (hcs : ∀ c ∈ cs.head?, goesOn c = false) :
    p.lexemes cs = p.pending ++ between.lexemes cs := by
  cases cs with
  | nil => simp [lexemes, scan, pending]
  | cons c rest =>
    have hc : goesOn c = false := hcs c rfl
    simp only [goesOn, Bool.or_eq_false_iff, beq_eq_false_iff_ne] at hc
    obtain ⟨⟨⟨hquote, hnumber⟩, hword⟩, hline⟩ := hc
    have hrestart : p.step c = p.restart c := by
      cases p with
      | between => simp [step, restart, pending]
      | quoted text => exact absurd rfl (hp text)
      | closed text => simp [step, hquote]
      | sign s => simp [step, hnumber]
      | number text => simp [step, hnumber]
      | word text => simp [step, hword, hline]
    rw [lexemes_cons, lexemes_cons, hrestart, restart]
    simp only [step, List.append_assoc]

end LexicalState

namespace Lexeme

open LexicalState (between goesOn)

/-! ## Whole texts -/

/-- The parts of a text, written out, are the text. -/
theorem flatMap_spelling (s : String) : (lexemes s).flatMap spelling = s.toList :=
  LexicalState.flatMap_spelling_lexemes between s.toList

theorem eq_of_lexemes_eq {a b : String} (h : lexemes a = lexemes b) : a = b := by
  rw [← String.toList_inj, ← flatMap_spelling a, h, flatMap_spelling]

theorem lexemes_eq_string_iff {s text : String} :
    lexemes s = [.string text] ↔ s = Text.literal text := by
  refine ⟨fun h => eq_of_lexemes_eq (h.trans (lexemes_literal_self text).symm), ?_⟩
  rintro rfl
  exact lexemes_literal_self text

/-- A text that is one number or word is that number or word. -/
theorem eq_of_lexemes_eq_singleton {s text : String}
    (h : lexemes s = [.number text] ∨ lexemes s = [.word text]) : s = text := by
  rw [← String.toList_inj, ← flatMap_spelling s]
  rcases h with h | h
  · rw [h]
    simp [spelling]
  · rw [h]
    simp [spelling]

/-- A text that leaves no string open is cut off from what follows, unless that goes on with its
last part. -/
theorem lexemes_append {a b : String} (ha : ∀ text, .unclosed text ∉ lexemes a)
    (hb : ∀ c ∈ b.toList.head?, goesOn c = false) :
    lexemes (a ++ b) = lexemes a ++ lexemes b := by
  have hopen : ∀ cs, (between.scan a.toList).2 ≠ .quoted cs := by
    intro cs hquoted
    refine ha (String.ofList cs) ?_
    rw [lexemes, LexicalState.lexemes, hquoted]
    exact List.mem_append_right _ List.mem_cons_self
  rw [lexemes, String.toList_append, LexicalState.lexemes_append,
    LexicalState.lexemes_of_not_goesOn hopen hb, ← List.append_assoc]
  rfl

end Lexeme

end SqlDialects
