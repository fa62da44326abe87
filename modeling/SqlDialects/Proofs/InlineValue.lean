import SqlDialects.Proofs.Spelling
import SqlDialects.Value.Basic

/-!
# Values as part of a statement

A value may stand in a statement as text in place of a parameter. It is then read with the rest of
the statement, so that its text has to be one literal whatever the value holds: a word for NULL or a
truth value, a number, bytes in hexadecimal digits, or a string. What has text of its own is quoted,
with the exception of exact numbers, which are kept as text and put into the statement as they are.

Results:
1. `Lexeme.lexemes_spliced`: a literal between two pieces of a statement is cut off from both.
2. `Text.bytesOfHex?_hex`: hexadecimal digits lead back to their bytes.
3. `Value.isClosed_iff`: a value that is no float is one literal, unless it is an exact number by a
   text that is none.
-/

namespace SqlDialects

/-! ## Hexadecimal digits -/

namespace Text

theorem hexValue?_hexDigit {n : Nat} (h : n < 16) : hexValue? (hexDigit n) = some n := by
  have hall : ∀ n < 16, hexValue? (hexDigit n) = some n := by decide
  exact hall n h

/-- Two digits for every byte lead back to it. -/
theorem bytesOfHex?_hex (bytes : List UInt8) : bytesOfHex? (hex bytes) = some bytes := by
  induction bytes with
  | nil => rfl
  | cons b rest ih =>
    have hhigh : hexValue? (hexDigit (b.toNat / 16)) = some (b.toNat / 16) :=
      hexValue?_hexDigit (by have := b.toNat_lt; omega)
    have hlow : hexValue? (hexDigit (b.toNat % 16)) = some (b.toNat % 16) :=
      hexValue?_hexDigit (Nat.mod_lt _ (by decide))
    have hbyte : UInt8.ofNat (b.toNat / 16 * 16 + b.toNat % 16) = b := by
      rw [Nat.div_add_mod', UInt8.ofNat_toNat]
    have hcons : hex (b :: rest) =
        hexDigit (b.toNat / 16) :: hexDigit (b.toNat % 16) :: hex rest := rfl
    rw [hcons, bytesOfHex?, hhigh, hlow, ih]
    exact congrArg (fun byte => some (byte :: rest)) hbyte

theorem quote_notMem_hex (bytes : List UInt8) : '\'' ∉ hex bytes := by
  have hall : ∀ n < 16, hexDigit n ≠ '\'' := by decide
  intro h
  obtain ⟨b, -, hb⟩ := List.mem_flatMap.1 h
  have hbyte := b.toNat_lt
  simp only [List.mem_cons, List.not_mem_nil, or_false] at hb
  rcases hb with hb | hb
  · exact hall _ (by omega) hb.symm
  · exact hall _ (by omega) hb.symm

end Text

/-! ## Literals -/

namespace Numeral

/-- A number in the digits from 0 to 9. -/
structure IsPlain (cs : List Char) : Prop where
  isNumber : IsNumber cs
  isDigit : ∀ c ∈ cs, Text.isDecimalDigit c = true → c.isDigit = true

theorem isPlain_int (n : Int) : IsPlain (toString n).toList := by
  refine ⟨isNumber_int n, fun c hc hdecimal => ?_⟩
  cases n with
  | ofNat m =>
    change c ∈ (Nat.repr m).toList at hc
    rw [Nat.toList_repr] at hc
    exact Nat.isDigit_of_mem_toDigits (by decide) (by decide) hc
  | negSucc m =>
    change c ∈ ("-" ++ Nat.repr (m + 1)).toList at hc
    rw [String.toList_append, Nat.toList_repr] at hc
    rcases List.mem_cons.1 hc with rfl | hc
    · exact absurd hdecimal (by decide)
    · exact Nat.isDigit_of_mem_toDigits (by decide) (by decide) hc

end Numeral

namespace Lexeme

open LexicalState (between goesOn)

/-- The parts of a single literal. -/
inductive IsLiteral : List Lexeme → Prop
  | null : IsLiteral [.word "NULL"]
  | truth {word : String} : word ∈ ["TRUE", "FALSE"] → IsLiteral [.word word]
  | number {text : String} : Numeral.IsPlain text.toList → IsLiteral [.number text]
  | bytes {digits : String} :
      (Text.bytesOfHex? digits.toList).isSome = true → IsLiteral [.word "X", .string digits]
  | string (text : String) : IsLiteral [.string text]

theorem IsLiteral.unclosed_notMem {parts : List Lexeme} (h : IsLiteral parts) (text : String) :
    .unclosed text ∉ parts := by
  cases h <;> simp

/-- A literal between two pieces of a statement is cut off from both: the first has ended its last
part, and the second does not go on with the literal. -/
theorem lexemes_spliced {a s b : String} (hs : IsLiteral (lexemes s))
    (ha : (between.scan a.toList).2 = .between)
    (hb : ∀ c ∈ b.toList.head?, goesOn c = false) :
    lexemes (a ++ s ++ b) = lexemes a ++ lexemes s ++ lexemes b := by
  have hfront : lexemes a = (between.scan a.toList).1 := by
    rw [lexemes, LexicalState.lexemes, ha]
    exact List.append_nil _
  have hrest := lexemes_append hs.unclosed_notMem hb
  rw [List.append_assoc, ← hrest, hfront, String.append_assoc, lexemes, String.toList_append,
    LexicalState.lexemes_append, ha]
  rfl

/-- A string right after a word. -/
theorem lexemes_X_literal (text : String) :
    lexemes ("X" ++ Text.literal text) = [.word "X", .string text] := by
  have hword : between.step 'X' = ([], .word ['X']) := rfl
  have hquote : (LexicalState.word ['X']).step '\'' =
      ([.word "X"] ++ (between.step '\'').1, (between.step '\'').2) := rfl
  have hstring := lexemes_literal_self text
  rw [lexemes, Text.toList_literal, LexicalState.lexemes_cons] at hstring
  rw [lexemes, String.toList_append, Text.toList_literal]
  show between.lexemes ('X' :: '\'' :: (Text.double '\'' text.toList ++ ['\''])) = _
  rw [LexicalState.lexemes_cons, hword, List.nil_append, LexicalState.lexemes_cons, hquote,
    List.append_assoc, hstring]
  rfl

end Lexeme

/-! ## Values -/

namespace Value

open Lexeme (lexemes IsLiteral)
open LexicalState (between goesOn)

/-- A value that any statement has as one literal, and that is its own text where it is a string. -/
structure IsClosed (v : Value) : Prop where
  literal : IsLiteral (lexemes v.inline)
  decoded : ∀ text, lexemes v.inline = [.string text] → text = v.plain
  spliced : ∀ a b : String, (between.scan a.toList).2 = .between →
    (∀ c ∈ b.toList.head?, goesOn c = false) →
      lexemes (a ++ v.inline ++ b) = lexemes a ++ lexemes v.inline ++ lexemes b

/-- A text that is a literal without quotes around it. -/
inductive IsBareLiteral : String → Prop
  | word {text : String} : text ∈ ["NULL", "TRUE", "FALSE"] → IsBareLiteral text
  | number {text : String} : Numeral.IsPlain text.toList → IsBareLiteral text
  | bytes {digits : String} : (Text.bytesOfHex? digits.toList).isSome = true →
      IsBareLiteral ("X" ++ Text.literal digits)

variable {v : Value} {s : String}

theorem isClosed_of_isLiteral (h : IsLiteral (lexemes v.inline))
    (hdecoded : ∀ text, lexemes v.inline = [.string text] → text = v.plain) : v.IsClosed :=
  ⟨h, hdecoded, fun _ _ => Lexeme.lexemes_spliced h⟩

theorem isClosed_of_literal (h : v.inline = Text.literal v.plain) : v.IsClosed := by
  have hparts : lexemes v.inline = [.string v.plain] := by rw [h, Lexeme.lexemes_literal_self]
  refine isClosed_of_isLiteral (hparts ▸ .string v.plain) fun text htext => ?_
  rw [hparts] at htext
  cases htext
  rfl

/-- A text is a literal without quotes exactly if it is read as one and not as a string. -/
theorem isBareLiteral_iff :
    IsBareLiteral s ↔ IsLiteral (lexemes s) ∧ ∀ text, lexemes s ≠ [.string text] := by
  constructor
  · intro h
    cases h with
    | word hword =>
      simp only [List.mem_cons, List.not_mem_nil, or_false] at hword
      rcases hword with rfl | rfl | rfl
      · have hparts : lexemes "NULL" = [.word "NULL"] := by decide
        exact hparts ▸ ⟨.null, by simp⟩
      · have hparts : lexemes "TRUE" = [.word "TRUE"] := by decide
        exact hparts ▸ ⟨.truth (by decide), by simp⟩
      · have hparts : lexemes "FALSE" = [.word "FALSE"] := by decide
        exact hparts ▸ ⟨.truth (by decide), by simp⟩
    | number hnumber =>
      exact Lexeme.lexemes_of_isNumber hnumber.isNumber ▸ ⟨.number hnumber, by simp⟩
    | bytes hdigits => exact Lexeme.lexemes_X_literal _ ▸ ⟨.bytes hdigits, by simp⟩
  · rintro ⟨h, hstring⟩
    generalize hparts : lexemes s = parts at h hstring
    cases h with
    | null =>
      rw [Lexeme.eq_of_lexemes_eq_singleton (.inr hparts)]
      exact .word (by decide)
    | truth hword =>
      rw [Lexeme.eq_of_lexemes_eq_singleton (.inr hparts)]
      exact .word (List.mem_cons_of_mem _ hword)
    | number hnumber =>
      rw [Lexeme.eq_of_lexemes_eq_singleton (.inl hparts)]
      exact .number hnumber
    | bytes hdigits =>
      rw [Lexeme.eq_of_lexemes_eq (hparts.trans (Lexeme.lexemes_X_literal _).symm)]
      exact .bytes hdigits
    | string text => exact absurd rfl (hstring text)

theorem IsBareLiteral.isClosed (h : IsBareLiteral v.inline) : v.IsClosed := by
  obtain ⟨hliteral, hstring⟩ := isBareLiteral_iff.1 h
  exact isClosed_of_isLiteral hliteral fun text htext => absurd htext (hstring text)

/-- An exact number that is read as one literal is none in quotes: it is not the text between
them. -/
theorem isClosed_decimal_iff : (decimal s).IsClosed ↔ IsBareLiteral s := by
  refine ⟨fun h => isBareLiteral_iff.2 ⟨h.literal, fun text htext => ?_⟩,
    fun h => IsBareLiteral.isClosed (v := .decimal s) h⟩
  have hinside : text = s := h.decoded text htext
  have hquoted : s = Text.literal s := by
    conv_lhs => rw [Lexeme.lexemes_eq_string_iff.1 htext, hinside]
  have hunquoted := Text.unquote_literal s
  rw [← hquoted] at hunquoted
  exact absurd (Text.length_lt_of_unquote? hunquoted) (lt_irrefl _)

theorem isBareLiteral_bytes (b : List UInt8) : IsBareLiteral (Value.bytes b).inline := by
  have hquote : '\'' ∉ (String.ofList (Text.hex b)).toList := by
    rw [String.toList_ofList]
    exact Text.quote_notMem_hex b
  have hinline : (Value.bytes b).inline = "X" ++ Text.literal (String.ofList (Text.hex b)) := by
    rw [Lexeme.literal_eq hquote, ← String.append_assoc, ← String.append_assoc]
    rfl
  rw [hinline]
  refine .bytes ?_
  rw [String.toList_ofList, Text.bytesOfHex?_hex]
  rfl

/-- Whatever a value holds, a statement has it as one literal, which is its own text if it is a
string. Floats apart, which have no literal for what is not finite, this fails for exact numbers
alone, and for those whose text is no literal. -/
theorem isClosed_iff (hfloat : v.kind ≠ .float) (hdouble : v.kind ≠ .double) :
    v.IsClosed ↔ ∀ s, v = .decimal s → IsBareLiteral s := by
  cases v with
  | float x => exact absurd rfl hfloat
  | double x => exact absurd rfl hdouble
  | decimal s =>
    rw [isClosed_decimal_iff]
    exact ⟨fun h t ht => (Value.decimal.inj ht) ▸ h, fun h => h s rfl⟩
  | null => exact iff_of_true (IsBareLiteral.isClosed (.word (by decide))) (by simp)
  | bool b =>
    refine iff_of_true (IsBareLiteral.isClosed ?_) (by simp)
    cases b with
    | false => exact .word (by decide)
    | true => exact .word (by decide)
  | short | int | long =>
    exact iff_of_true (IsBareLiteral.isClosed (.number (Numeral.isPlain_int _))) (by simp)
  | bytes b => exact iff_of_true (isBareLiteral_bytes b).isClosed (by simp)
  | char | date | timestamp | text => exact iff_of_true (isClosed_of_literal rfl) (by simp)

theorem price_isClosed : (decimal "-12.50").kind ≠ .float ∧ (decimal "-12.50").kind ≠ .double ∧
    (decimal "-12.50").IsClosed := by
  have hdigits : ("-12.50".toList.all fun c => !Text.isDecimalDigit c || c.isDigit) = true := by
    decide
  have hnumber : Numeral.IsPlain "-12.50".toList := by
    refine ⟨Numeral.isNumber_of_isPlainDecimal (by decide), fun c hc hdecimal => ?_⟩
    simpa [hdecimal] using List.all_eq_true.1 hdigits c hc
  have hfloat : (decimal "-12.50").kind ≠ .float := by decide
  have hdouble : (decimal "-12.50").kind ≠ .double := by decide
  refine ⟨hfloat, hdouble, (isClosed_iff hfloat hdouble).2 fun s hs => ?_⟩
  cases hs
  exact .number hnumber

/-- The text of an exact number may be a condition, which a statement then has. -/
theorem condition_not_isClosed : (decimal "1 OR 1=1").inline = "1 OR 1=1" ∧
    lexemes (decimal "1 OR 1=1").inline = [.number "1", .mark ' ', .word "OR", .mark ' ',
      .number "1", .mark '=', .number "1"] ∧
    ¬(decimal "1 OR 1=1").IsClosed := by
  have hparts : lexemes (decimal "1 OR 1=1").inline = [.number "1", .mark ' ', .word "OR",
      .mark ' ', .number "1", .mark '=', .number "1"] := by decide
  refine ⟨rfl, hparts, fun h => ?_⟩
  have hliteral := h.literal
  rw [hparts] at hliteral
  cases hliteral

end Value

end SqlDialects
