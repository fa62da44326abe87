import Mathlib.Data.List.TakeWhile
import SqlDialects.ColumnRule.Default

/-!
# Numbers as they are written

Whole numbers, floating point numbers and configured decimals are all written as digits, with a sign
before them and a point among them at most.

Results:
1. `Numeral.isNumber_int`, `Numeral.isNumber_double`: what is written for numbers.
2. `Numeral.isNumber_of_isPlainDecimal`: what is accepted as a decimal.
3. `Numeral.IsNumber.mem_cases`, `Numeral.IsNumber.exists_digit`: which characters these have.
-/

namespace SqlDialects

theorem Text.isDecimalDigit_of_isDigit {c : Char} (h : c.isDigit = true) :
    isDecimalDigit c = true := by
  refine List.any_eq_true.2 ⟨0x30, by decide, ?_⟩
  have hc : 48 ≤ c.toNat ∧ c.toNat ≤ 57 := by simpa [Char.isDigit, UInt32.le_iff_toNat_le] using h
  simp only [Bool.and_eq_true, decide_eq_true_eq]
  omega

namespace Numeral

/-! ## Forms -/

/-- Digits of any script. -/
def AreDigits (cs : List Char) : Prop := ∀ c ∈ cs, Text.isDecimalDigit c = true

/-- Digits with a point at most, and a digit somewhere. -/
inductive IsUnsigned : List Char → Prop
  | whole {digits : List Char} : AreDigits digits → digits ≠ [] → IsUnsigned digits
  | pointed {digits places : List Char} : AreDigits digits → AreDigits places →
      digits ≠ [] ∨ places ≠ [] → IsUnsigned (digits ++ '.' :: places)

/-- A number, with a sign or without one. -/
inductive IsNumber : List Char → Prop
  | unsigned {cs : List Char} : IsUnsigned cs → IsNumber cs
  | signed {c : Char} {cs : List Char} : c = '+' ∨ c = '-' → IsUnsigned cs → IsNumber (c :: cs)

theorem AreDigits.exists_digit {cs : List Char} (h : AreDigits cs) (hne : cs ≠ []) :
    ∃ c ∈ cs, Text.isDecimalDigit c = true := by
  obtain ⟨c, hc⟩ := List.exists_mem_of_ne_nil _ hne
  exact ⟨c, hc, h c hc⟩

namespace IsUnsigned

variable {cs : List Char}

theorem mem_cases (h : IsUnsigned cs) {c : Char} (hc : c ∈ cs) :
    Text.isDecimalDigit c = true ∨ c = '.' := by
  cases h with
  | whole hdigits => exact .inl (hdigits c hc)
  | pointed hdigits hplaces =>
    rcases List.mem_append.1 hc with hc | hc
    · exact .inl (hdigits c hc)
    · rcases List.mem_cons.1 hc with rfl | hc
      · exact .inr rfl
      · exact .inl (hplaces c hc)

theorem exists_digit (h : IsUnsigned cs) : ∃ c ∈ cs, Text.isDecimalDigit c = true := by
  cases h with
  | whole hdigits hne => exact hdigits.exists_digit hne
  | pointed hdigits hplaces hne =>
    rcases hne with hne | hne
    · obtain ⟨c, hc, hd⟩ := hdigits.exists_digit hne
      exact ⟨c, List.mem_append_left _ hc, hd⟩
    · obtain ⟨c, hc, hd⟩ := hplaces.exists_digit hne
      exact ⟨c, List.mem_append_right _ (List.mem_cons_of_mem _ hc), hd⟩

end IsUnsigned

namespace IsNumber

variable {cs : List Char}

theorem mem_cases (h : IsNumber cs) {c : Char} (hc : c ∈ cs) :
    Text.isDecimalDigit c = true ∨ c ∈ ['.', '+', '-'] := by
  cases h with
  | unsigned hu =>
    rcases hu.mem_cases hc with hd | rfl
    · exact .inl hd
    · exact .inr (by decide)
  | signed hsign hu =>
    rcases List.mem_cons.1 hc with rfl | hc
    · rcases hsign with rfl | rfl
      · exact .inr (by decide)
      · exact .inr (by decide)
    · rcases hu.mem_cases hc with hd | rfl
      · exact .inl hd
      · exact .inr (by decide)

theorem exists_digit (h : IsNumber cs) : ∃ c ∈ cs, Text.isDecimalDigit c = true := by
  cases h with
  | unsigned hu => exact hu.exists_digit
  | signed _ hu =>
    obtain ⟨c, hc, hd⟩ := hu.exists_digit
    exact ⟨c, List.mem_cons_of_mem _ hc, hd⟩

end IsNumber

/-! ## What is written -/

theorem areDigits_of_isDigit {cs : List Char} (h : ∀ c ∈ cs, c.isDigit = true) : AreDigits cs :=
  fun c hc => Text.isDecimalDigit_of_isDigit (h c hc)

theorem areDigits_toDigits (n : Nat) : AreDigits (Nat.toDigits 10 n) :=
  areDigits_of_isDigit fun _ hc => Nat.isDigit_of_mem_toDigits (by decide) (by decide) hc

theorem isUnsigned_toDigits (n : Nat) : IsUnsigned (Nat.toDigits 10 n) :=
  .whole (areDigits_toDigits n) Nat.toDigits_ne_nil

theorem isDigit_of_mem_padDigits {width n : Nat} {c : Char} (h : c ∈ padDigits width n) :
    c.isDigit = true := by
  rcases List.mem_append.1 h with h | h
  · rw [(List.mem_replicate.1 h).2]
    rfl
  · exact Nat.isDigit_of_mem_toDigits (by decide) (by decide) h

theorem isUnsigned_decimalNumber (x : DecimalNumber) : IsUnsigned x.text := by
  unfold DecimalNumber.text
  split
  · exact isUnsigned_toDigits _
  · simp only
    split
    · exact isUnsigned_toDigits _
    · refine .pointed (areDigits_toDigits _) ?_ (.inl Nat.toDigits_ne_nil)
      -- Zeros at the end are dropped from the places, which leaves digits.
      apply areDigits_of_isDigit
      intro c hc
      rw [List.mem_reverse] at hc
      exact isDigit_of_mem_padDigits (List.mem_reverse.1 ((List.dropWhile_suffix _).subset hc))

theorem isNumber_int (n : Int) : IsNumber (toString n).toList := by
  cases n with
  | ofNat m =>
    change IsNumber (Nat.repr m).toList
    rw [Nat.toList_repr]
    exact .unsigned (isUnsigned_toDigits m)
  | negSucc m =>
    change IsNumber ("-" ++ Nat.repr (m + 1)).toList
    rw [String.toList_append, Nat.toList_repr]
    exact .signed (.inr rfl) (isUnsigned_toDigits (m + 1))

theorem isNumber_double {x : Double} (h : x.isFinite = true) : IsNumber x.text.toList := by
  unfold Double.isFinite at h
  unfold Double.text
  split at h
  · next negative significand exponent hx =>
    simp only [hx, BinaryNumber.text, String.toList_ofList]
    split
    · exact .signed (.inr rfl) (isUnsigned_decimalNumber _)
    · exact .unsigned (isUnsigned_decimalNumber _)
  · cases h

theorem isUnsigned_of_isPlainDecimal {cs : List Char} (h : isPlainDecimal cs = true) :
    IsUnsigned (dropSign cs) := by
  have hwhole : AreDigits ((dropSign cs).takeWhile Text.isDecimalDigit) :=
    fun c hc => List.mem_takeWhile_imp hc
  rw [← List.takeWhile_append_dropWhile (p := Text.isDecimalDigit) (l := dropSign cs)]
  simp only [isPlainDecimal] at h
  split at h
  · next hrest =>
    rw [hrest, List.append_nil]
    exact .whole hwhole (by simpa using h)
  · next places hrest =>
    rw [hrest]
    simp only [Bool.and_eq_true, Bool.or_eq_true, Bool.not_eq_true', List.isEmpty_eq_false_iff] at h
    exact .pointed hwhole (List.all_eq_true.1 h.1) h.2
  · cases h

theorem isNumber_of_isPlainDecimal {cs : List Char} (h : isPlainDecimal cs = true) :
    IsNumber cs := by
  have hu := isUnsigned_of_isPlainDecimal h
  unfold dropSign at hu
  split at hu
  · exact .signed (.inl rfl) hu
  · exact .signed (.inr rfl) hu
  · exact .unsigned hu

end Numeral

end SqlDialects
