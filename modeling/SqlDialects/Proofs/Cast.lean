import SqlDialects.Proofs.Text

/-!
# Casts and quotes

A cast may stand anywhere in a text, and more than one may. This module says what is left of a text
without its casts where quotes stand in it: quotes are walls, which no cast reaches across, so that
the parts between them lose their casts one by one.

Results:
1. `Cast.removeAll_append_quote`: each side of a quote loses its own casts.
2. `Cast.removeAll_double`: it is the same before quotes are doubled and after.
3. `Cast.removeAll_literal_append`: what is left of a literal is the literal of what is left.
-/

namespace SqlDialects

namespace Cast

/-! ## Casts end at quotes -/

theorem dropWhile_append_quote {p : Char → Bool} (hp : p '\'' = false) (cs rest : List Char) :
    (cs ++ '\'' :: rest).dropWhile p = cs.dropWhile p ++ '\'' :: rest := by
  rw [List.dropWhile_append]
  split
  · next h => rw [List.isEmpty_iff.1 h, List.dropWhile_cons_of_neg (by simp [hp])]; rfl
  · rfl

theorem dropSize_append_quote (cs rest : List Char) :
    dropSize (cs ++ '\'' :: rest) = dropSize cs ++ '\'' :: rest := by
  cases cs with
  | nil => rfl
  | cons c tail =>
    by_cases hc : c = '('
    · subst hc
      simp only [List.cons_append, dropSize, dropWhile_append_quote (p := isSizeChar) (by decide)]
      cases tail.dropWhile isSizeChar with
      | nil => rfl
      | cons d after =>
        by_cases hd : d = ')'
        · subst hd
          rfl
        · simp [hd]
    · simp [dropSize, hc]

theorem dropBrackets_eq_self {cs : List Char} (h : cs.take 2 ≠ ['[', ']']) :
    dropBrackets cs = cs := by
  unfold dropBrackets
  split
  · simp at h
  · rfl

theorem dropBrackets_append_quote (cs rest : List Char) :
    dropBrackets (cs ++ '\'' :: rest) = dropBrackets cs ++ '\'' :: rest := by
  match cs with
  | [] => rfl
  | [c] => rw [dropBrackets_eq_self (by simp), dropBrackets_eq_self (by simp)]
  | c :: d :: tail =>
    by_cases h : c = '[' ∧ d = ']'
    · obtain ⟨rfl, rfl⟩ := h
      rfl
    · rw [dropBrackets_eq_self (by simpa using h), dropBrackets_eq_self (by simpa using h)]

theorem drop?_eq_none {cs : List Char} (h : cs.take 2 ≠ [':', ':']) : drop? cs = none := by
  unfold drop?
  split
  · simp at h
  · rfl

/-- Whether a cast starts here is decided before the next quote, and so is where it ends. -/
theorem drop?_append_quote (cs rest : List Char) :
    drop? (cs ++ '\'' :: rest) = (drop? cs).map (· ++ '\'' :: rest) := by
  match cs with
  | [] => rfl
  | [c] => by_cases hc : c = ':' <;> simp [drop?, hc]
  | [c, d] =>
    by_cases h : c = ':' ∧ d = ':'
    · obtain ⟨rfl, rfl⟩ := h
      rfl
    · rw [drop?_eq_none (by simpa using h), drop?_eq_none (by simpa using h)]
      rfl
  | c :: d :: e :: tail =>
    by_cases h : c = ':' ∧ d = ':'
    · obtain ⟨rfl, rfl⟩ := h
      simp only [List.cons_append, drop?, dropWhile_append_quote (p := isNameChar) (by decide),
        dropSize_append_quote, dropBrackets_append_quote]
      split <;> rfl
    · rw [drop?_eq_none (by simpa using h), drop?_eq_none (by simpa using h)]
      rfl

theorem removeAll_cons_of_none {c : Char} {cs : List Char} (h : drop? (c :: cs) = none) :
    removeAll (c :: cs) = c :: removeAll cs := by
  rw [removeAll]
  split
  · next rest hrest =>
    rw [h] at hrest
    cases hrest
  · rfl

theorem removeAll_of_some {cs rest : List Char} (h : drop? cs = some rest) :
    removeAll cs = removeAll rest := by
  cases cs with
  | nil => cases h
  | cons c cs =>
    rw [removeAll]
    split
    · next other hother =>
      rw [h] at hother
      cases hother
      rfl
    · next hnone =>
      rw [h] at hnone
      cases hnone

/-- No cast reaches across a quote. -/
theorem removeAll_append_quote (cs rest : List Char) :
    removeAll (cs ++ '\'' :: rest) = removeAll cs ++ '\'' :: removeAll rest := by
  fun_induction removeAll cs with
  | case1 => exact removeAll_cons_of_none rfl
  | case2 c cs after h ih =>
    rw [← ih]
    refine removeAll_of_some ?_
    rw [drop?_append_quote, h]
    rfl
  | case3 c cs h ih =>
    rw [List.cons_append, List.cons_append, ← ih]
    refine removeAll_cons_of_none ?_
    rw [← List.cons_append, drop?_append_quote, h]
    rfl

theorem quote_mem_removeAll {cs : List Char} (h : '\'' ∈ cs) : '\'' ∈ removeAll cs := by
  obtain ⟨before, after, rfl⟩ := List.append_of_mem h
  rw [removeAll_append_quote]
  simp

/-! ## What is left -/

/-- A text without colons has no casts. -/
theorem removeAll_eq_self {cs : List Char} (h : ':' ∉ cs) : removeAll cs = cs := by
  induction cs with
  | nil => exact removeAll.eq_1
  | cons c rest ih =>
    rw [List.mem_cons, not_or] at h
    have hnone : drop? (c :: rest) = none := drop?_eq_none (by simp [Ne.symm h.1])
    rw [removeAll_cons_of_none hnone, ih h.2]

theorem dropSize_suffix (cs : List Char) : dropSize cs <:+ cs := by
  unfold dropSize
  split
  · next rest =>
    split
    · next after h =>
      have hrest : ')' :: after <:+ rest := h ▸ List.dropWhile_suffix isSizeChar
      exact ((List.suffix_cons _ _).trans hrest).trans (List.suffix_cons _ _)
    · exact List.suffix_rfl
  · exact List.suffix_rfl

theorem dropBrackets_suffix (cs : List Char) : dropBrackets cs <:+ cs := by
  unfold dropBrackets
  split
  · exact (List.suffix_cons _ _).trans (List.suffix_cons _ _)
  · exact List.suffix_rfl

theorem drop?_suffix {cs rest : List Char} (h : drop? cs = some rest) : rest <:+ cs := by
  unfold drop? at h
  split at h
  · next c tail =>
    split at h
    · cases h
      have htail : tail <:+ ':' :: ':' :: c :: tail := ⟨[':', ':', c], rfl⟩
      exact ((dropBrackets_suffix _).trans (dropSize_suffix _)).trans
        ((List.dropWhile_suffix _).trans htail)
    · cases h
  · cases h

theorem removeAll_sublist (cs : List Char) : (removeAll cs).Sublist cs := by
  fun_induction removeAll cs with
  | case1 => exact List.Sublist.slnil
  | case2 c cs rest h ih => exact ih.trans (drop?_suffix h).sublist
  | case3 c cs _ ih => exact ih.cons_cons c

theorem notMem_removeAll {cs : List Char} (h : '\'' ∉ cs) : '\'' ∉ removeAll cs :=
  fun hm => h ((removeAll_sublist cs).subset hm)

/-- Casts may go before quotes are doubled or after. -/
theorem removeAll_double (cs : List Char) :
    removeAll (Text.double '\'' cs) = Text.double '\'' (removeAll cs) := by
  -- A cast may start anywhere, so the induction is on what comes after a part without quotes.
  suffices h : ∀ before : List Char, '\'' ∉ before →
      removeAll (before ++ Text.double '\'' cs) = Text.double '\'' (removeAll (before ++ cs)) by
    exact h [] List.not_mem_nil
  induction cs with
  | nil =>
    intro before hbefore
    rw [Text.double, List.append_nil, Text.double_eq_self (notMem_removeAll hbefore)]
  | cons c cs ih =>
    intro before hbefore
    by_cases hc : c = '\''
    · subst hc
      have hrest : removeAll (Text.double '\'' cs) = Text.double '\'' (removeAll cs) :=
        ih [] List.not_mem_nil
      have hquote : removeAll ('\'' :: Text.double '\'' cs) =
          '\'' :: Text.double '\'' (removeAll cs) := by
        rw [removeAll_cons_of_none rfl, hrest]
      rw [Text.double, if_pos rfl, removeAll_append_quote, hquote, removeAll_append_quote,
        Text.double_append, Text.double_eq_self (notMem_removeAll hbefore), Text.double,
        if_pos rfl]
    · have hlonger : '\'' ∉ before ++ [c] := by simp [hbefore, Ne.symm hc]
      have hrest := ih (before ++ [c]) hlonger
      rw [Text.double, if_neg hc]
      simpa using hrest

/-! ## Literals -/

/-- A text without what looks like casts in it. -/
def erased (s : String) : String := String.ofList (removeAll s.toList)

/-- What is left of a literal is a literal, whatever comes after it. -/
theorem removeAll_literal_append (s : String) (rest : List Char) :
    removeAll ((Text.literal s).toList ++ rest) =
      (Text.literal (erased s)).toList ++ removeAll rest := by
  have hopening : removeAll ('\'' :: (Text.double '\'' s.toList ++ '\'' :: rest)) =
      '\'' :: removeAll (Text.double '\'' s.toList ++ '\'' :: rest) :=
    removeAll_cons_of_none rfl
  simp only [Text.toList_literal, List.cons_append, List.append_assoc, List.nil_append, hopening,
    removeAll_append_quote, removeAll_double, erased, String.toList_ofList]

theorem removeAll_literal (s : String) :
    removeAll (Text.literal s).toList = (Text.literal (erased s)).toList := by
  simpa [removeAll] using removeAll_literal_append s []

theorem erased_eq_self {s : String} (h : ':' ∉ s.toList) : erased s = s := by
  rw [erased, removeAll_eq_self h, String.ofList_toList]

/-- A cast, with nothing behind it. -/
structure IsCast (cast : String) : Prop where
  drop? : drop? cast.toList = some []
  trimmed : ∀ c ∈ cast.toList.getLast?, Text.isBlank c = false

theorem IsCast.removeAll_eq_nil {cast : String} (h : IsCast cast) : removeAll cast.toList = [] := by
  rw [removeAll_of_some h.drop?]
  exact removeAll.eq_1

theorem IsCast.ne_nil {cast : String} (h : IsCast cast) : cast.toList ≠ [] := by
  intro hnil
  have hdrop := h.drop?
  rw [hnil] at hdrop
  cases hdrop

end Cast

end SqlDialects
