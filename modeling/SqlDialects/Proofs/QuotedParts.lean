import SqlDialects.Proofs.TextDefaults

/-!
# Folding a text part by part

Three ways with quotes meet in the readings of defaults. Quoting writes each quote twice, unquoting
makes one of two next to each other, and folding turns at each quote between text that it leaves
alone and text that it brings to one spelling. A doubled quote turns it twice, so that inside a
literal it leaves all text alone. What has been read before counts in folding by one thing only:
whether the quotes in it are an even or an odd number.

Results:
1. `Text.canonicalFrom_append`: a text folds in two parts, the second between quotes if the first
   has an odd number of them.
2. `Text.canonicalFrom_canonicalFrom`: what is folded stays as it is.
3. `Text.literal_outlives_readings`: quoted text comes back from unquoting and from folding.
-/

namespace SqlDialects

namespace Text

/-- A text folds in two parts; the second is between quotes if the first has left one open. -/
theorem canonicalFrom_append (quoted : Bool) (a b : List Char) :
    canonicalFrom quoted (a ++ b) =
      canonicalFrom quoted a ++ canonicalFrom (quoted ^^ decide (Odd (a.count '\''))) b := by
  induction a generalizing quoted with
  | nil => simp [canonicalFrom]
  | cons c cs ih =>
    rw [List.cons_append, canonicalFrom, canonicalFrom]
    by_cases hquote : c = '\''
    · have hturned : (quoted ^^ decide (Odd ((c :: cs).count '\''))) =
          (!quoted ^^ decide (Odd (cs.count '\''))) := by
        rw [hquote, List.count_cons_self, Bool.not_xor, ← Bool.xor_not, ← decide_not,
          decide_eq_decide.2 Nat.odd_add_one]
      rw [if_pos hquote, if_pos hquote, ih, hturned, List.cons_append]
    · rw [if_neg hquote, if_neg hquote, List.count_cons_of_ne hquote, ih]
      split
      · rfl
      · split <;> rfl

theorem canonical_append (a b : String) :
    canonical (a ++ b) =
      canonical a ++
        String.ofList (canonicalFrom (decide (Odd (a.toList.count '\''))) b.toList) := by
  rw [canonical, String.toList_append, canonicalFrom_append, Bool.false_xor, String.ofList_append]
  rfl

/-- What raising changes becomes a letter, which is neither a quote nor a blank. -/
theorem toUpper_cases (c : Char) : c.toUpper = c ∨ c.toUpper.isUpper = true := by
  by_cases hlower : c.isLower = true
  · exact .inr (by simp [Char.isAlpha, hlower])
  · exact .inl (Char.toUpper_eq_of_not_isLower hlower)

theorem toUpper_ne_quote {c : Char} (h : c ≠ '\'') : c.toUpper ≠ '\'' := by
  rcases toUpper_cases c with hself | hletter
  · rwa [hself]
  · intro hquote
    rw [hquote] at hletter
    exact absurd hletter (by decide)

theorem isBlank_toUpper {c : Char} (h : isBlank c = false) : isBlank c.toUpper = false := by
  rcases toUpper_cases c with hself | hletter
  · rwa [hself]
  · simp only [Char.isUpper, decide_eq_true_eq] at hletter
    have hfirst : 65 ≤ c.toUpper.toNat := hletter.1
    have hlast : c.toUpper.toNat ≤ 90 := hletter.2
    simp only [isBlank, Bool.or_eq_false_iff, Bool.and_eq_false_imp, decide_eq_true_eq,
      decide_eq_false_iff_not, beq_eq_false_iff_ne]
    omega

/-- What is folded stays as it is. -/
theorem canonicalFrom_canonicalFrom (quoted : Bool) (cs : List Char) :
    canonicalFrom quoted (canonicalFrom quoted cs) = canonicalFrom quoted cs := by
  induction cs generalizing quoted with
  | nil => rfl
  | cons c cs ih =>
    rw [canonicalFrom]
    split
    · next hquote => rw [canonicalFrom, if_pos hquote, ih]
    · next hquote =>
      split
      · next hquoted => rw [canonicalFrom, if_neg hquote, if_pos hquoted, ih]
      · next hquoted =>
        split
        · exact ih quoted
        · next hblank =>
          have hkept := isBlank_toUpper (Bool.eq_false_iff.2 hblank)
          rw [canonicalFrom, if_neg (toUpper_ne_quote hquote), if_neg hquoted, hkept,
            if_neg Bool.false_ne_true, Char.toUpper_toUpper_eq_toUpper, ih]

theorem canonical_canonical (s : String) : canonical (canonical s) = canonical s := by
  rw [canonical, canonical, String.toList_ofList, canonicalFrom_canonicalFrom]

/-- Quoted text comes back from unquoting and stays as it is in folding. Folding once is folding for
good, and where all quotes of a text are closed, what comes after it folds on its own. -/
theorem literal_outlives_readings (s : String) :
    unquote? (literal s) = some s ∧ canonical (literal s) = literal s ∧
      canonical (canonical s) = canonical s ∧
      ∀ rest, Even (s.toList.count '\'') →
        canonical (s ++ rest) = canonical s ++ canonical rest := by
  refine ⟨unquote_literal s, canonical_literal s, canonical_canonical s, ?_⟩
  intro rest heven
  rw [canonical_append, decide_eq_false (Nat.not_odd_iff_even.2 heven)]
  rfl

/-- Quotes at both ends of a text and next to each other in it are all part of the text. -/
theorem lone_quotes_outlive_readings :
    unquote? (literal "'it''s'") = some "'it''s'" ∧
      canonical (literal "'it''s'") = "'''it''''s'''" ∧
      Even ("nvl( 'it''s', ".toList.count '\'') ∧
      canonical ("nvl( 'it''s', " ++ "'so so' )") = "NVL('it''s'," ++ "'so so')" := by
  have heven : Even ("nvl( 'it''s', ".toList.count '\'') := by decide
  obtain ⟨hread, hkept, -, -⟩ := literal_outlives_readings "'it''s'"
  obtain ⟨-, -, -, happend⟩ := literal_outlives_readings "nvl( 'it''s', "
  refine ⟨hread, hkept.trans (by decide), heven, (happend "'so so' )" heven).trans (by decide)⟩

end Text

end SqlDialects
