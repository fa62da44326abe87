import Mathlib
import SqlDialects.DefaultReading
import SqlDialects.Text.Ascii

/-!
# What readings of a text keep

Trimming, folding and undoing parentheses all take characters out of a text. This module says which
characters they never take, and that undoing quotes gives back exactly what was quoted.

Results:
1. `undouble_double`, `unquote_literal`: a quoted string reads back as it was.
2. `mem_trimChars`, `mem_canonicalFrom`, `mem_withoutParensChars`: what is neither blank nor a
   parenthesis outlives the readings, up to its case.
3. `sameName_iff`: names that differ in case at most are those with one lower case.
-/

namespace SqlDialects

namespace Text

/-! ## Names without regard to case -/

theorem sameName_iff {a b : String} : sameName a b = true ↔ asciiLower a = asciiLower b := by
  simp only [sameName, asciiLower, beq_iff_eq, String.ofList_inj]

theorem sameName_refl (a : String) : sameName a a = true := sameName_iff.2 rfl

theorem sameName_asciiUpper (a : String) : sameName (asciiUpper a) a = true := by
  simp [sameName, asciiUpper, Function.comp_def]

theorem asciiLower_append (a b : String) : asciiLower (a ++ b) = asciiLower a ++ asciiLower b := by
  simp [asciiLower]

theorem asciiUpper_asciiLower (a : String) : asciiUpper (asciiLower a) = asciiUpper a := by
  simp [asciiLower, asciiUpper, Function.comp_def]

theorem asciiUpper_eq_iff {a b : String} : asciiUpper a = asciiUpper b ↔ sameName a b = true := by
  rw [sameName_iff]
  constructor
  · intro h
    rw [← sameName_iff.1 (sameName_asciiUpper a), h, sameName_iff.1 (sameName_asciiUpper b)]
  · intro h
    rw [← asciiUpper_asciiLower a, h, asciiUpper_asciiLower]

theorem length_eq_of_sameName {a b : String} (h : sameName a b = true) :
    a.toList.length = b.toList.length := by
  have hm : a.toList.map Char.toLower = b.toList.map Char.toLower := by simpa [sameName] using h
  simpa using congrArg List.length hm

/-- Where names differ by more than case, looking one up finds its entry. -/
theorem find?_sameName {α : Type} {name : α → String} {l : List α} {a : α} {s : String}
    (hd : (l.map fun x => asciiLower (name x)).Nodup) (ha : a ∈ l)
    (hs : sameName (name a) s = true) : l.find? (fun x => sameName (name x) s) = some a := by
  cases hx : l.find? fun x => sameName (name x) s with
  | none => exact absurd hs (List.find?_eq_none.1 hx a ha)
  | some x =>
    have hxs : asciiLower (name x) = asciiLower s :=
      sameName_iff.1 (by simpa using List.find?_some hx)
    have hkey : asciiLower (name x) = asciiLower (name a) := hxs.trans (sameName_iff.1 hs).symm
    rw [List.inj_on_of_nodup_map hd (List.mem_of_find?_eq_some hx) ha hkey]

/-- A character of a name is one of any name that is the same, up to case. -/
theorem mem_of_sameName {a b : String} {c : Char} (h : sameName a b = true) (hc : c ∈ a.toList) :
    c.toLower ∈ b.toList.map Char.toLower := by
  have hm : a.toList.map Char.toLower = b.toList.map Char.toLower := by simpa [sameName] using h
  rw [← hm]
  exact List.mem_map_of_mem hc

/-! ## Quotes -/

@[simp] theorem undouble_double (mark : Char) (cs : List Char) :
    undouble mark (double mark cs) = cs := by
  induction cs with
  | nil => rfl
  | cons c rest ih =>
    by_cases h : c = mark
    · simp [double, undouble, h, ih]
    · simp only [double, if_neg h]
      cases hd : double mark rest with
      | nil =>
        rw [hd] at ih
        simp [undouble, ← ih]
      | cons d tail =>
        rw [hd] at ih
        simp [undouble, h, ih]

theorem double_append (mark : Char) (cs ds : List Char) :
    double mark (cs ++ ds) = double mark cs ++ double mark ds := by
  induction cs with
  | nil => rfl
  | cons c cs ih =>
    rw [List.cons_append, double, double, ih]
    split <;> rfl

theorem double_eq_self {mark : Char} {cs : List Char} (h : mark ∉ cs) : double mark cs = cs := by
  induction cs with
  | nil => rfl
  | cons c rest ih =>
    rw [List.mem_cons, not_or] at h
    rw [double, if_neg (Ne.symm h.1), ih h.2]

theorem toList_literal (s : String) :
    (literal s).toList = '\'' :: (double '\'' s.toList ++ ['\'']) := by
  simp [literal, enclose]

/-- A quoted string reads back as the string. -/
theorem unquote_literal (s : String) : unquote? (literal s) = some s := by
  simp [unquote?, toList_literal, unquoteChars]

theorem literal_inj {a b : String} : literal a = literal b ↔ a = b := by
  refine ⟨fun h => ?_, fun h => h ▸ rfl⟩
  have hread := congrArg unquote? h
  rw [unquote_literal, unquote_literal] at hread
  exact Option.some.inj hread

/-- Undoing pairs of quotes takes nothing but quotes. -/
theorem mem_undouble {mark c : Char} {cs : List Char} (h : c ∈ cs) (hc : c ≠ mark) :
    c ∈ undouble mark cs := by
  fun_induction undouble mark cs with
  | case1 => exact h
  | case2 => exact h
  | case3 a b rest hab ih =>
    have : c ∈ rest := by grind
    exact List.mem_cons_of_mem _ (ih this)
  | case4 a b rest _ ih =>
    rcases List.mem_cons.1 h with rfl | hr
    · exact List.mem_cons_self
    · exact List.mem_cons_of_mem _ (ih hr)

/-- A text that loses its quotes has one at each end. -/
theorem eq_of_unquote? {s inner : String} (h : unquote? s = some inner) :
    ∃ cs, s.toList = '\'' :: (cs ++ ['\'']) ∧ inner.toList = undouble '\'' cs := by
  unfold unquote? unquoteChars at h
  split at h
  · next rest heq =>
    split at h
    · next hlast =>
      cases h
      refine ⟨rest.dropLast, ?_, String.toList_ofList⟩
      rw [heq, List.dropLast_append_getLast? _ hlast]
    · cases h
  · cases h

/-- What is no quote is inside the quotes. -/
theorem mem_unquote? {s inner : String} {c : Char} (hi : unquote? s = some inner)
    (h : c ∈ s.toList) (hc : c ≠ '\'') : c ∈ inner.toList := by
  obtain ⟨cs, hs, hinner⟩ := eq_of_unquote? hi
  rw [hs] at h
  rw [hinner]
  exact mem_undouble (by simpa [hc] using h) hc

/-- Undoing pairs of quotes makes no text longer. -/
theorem length_undouble_le (mark : Char) (cs : List Char) :
    (undouble mark cs).length ≤ cs.length := by
  fun_induction undouble mark cs with
  | case1 => exact Nat.le_refl _
  | case2 => exact Nat.le_refl _
  | case3 c d rest _ ih => simp only [List.length_cons]; omega
  | case4 c d rest _ ih => simp only [List.length_cons] at ih ⊢; omega

/-- A text in quotes is longer than its inside. -/
theorem length_lt_of_unquote? {s inner : String} (h : unquote? s = some inner) :
    inner.toList.length < s.toList.length := by
  obtain ⟨cs, hs, hinner⟩ := eq_of_unquote? h
  have hle := length_undouble_le '\'' cs
  rw [hs, hinner, List.length_cons, List.length_append]
  omega

/-! ## Blanks and case -/

theorem mem_dropWhile {p : Char → Bool} {c : Char} {cs : List Char} (h : c ∈ cs)
    (hc : p c = false) : c ∈ cs.dropWhile p := by
  induction cs with
  | nil => exact h
  | cons d rest ih =>
    by_cases hd : p d
    · rw [List.dropWhile_cons_of_pos hd]
      rcases List.mem_cons.1 h with rfl | hr
      · simp [hd] at hc
      · exact ih hr
    · rwa [List.dropWhile_cons_of_neg hd]

theorem mem_trimChars {c : Char} {cs : List Char} (h : c ∈ cs) (hc : isBlank c = false) :
    c ∈ trimChars cs := by
  rw [trimChars, List.mem_reverse]
  exact mem_dropWhile (List.mem_reverse.2 (mem_dropWhile h hc)) hc

theorem mem_of_mem_trimChars {c : Char} {cs : List Char} (h : c ∈ trimChars cs) : c ∈ cs := by
  rw [trimChars, List.mem_reverse] at h
  exact (List.dropWhile_suffix _).subset
    (List.mem_reverse.1 ((List.dropWhile_suffix _).subset h))

/-- A text that starts and ends with what is not blank stays as it is. -/
theorem trimChars_eq_self {a b : Char} {cs : List Char} (ha : isBlank a = false)
    (hb : isBlank b = false) : trimChars (a :: (cs ++ [b])) = a :: (cs ++ [b]) := by
  have h1 : (a :: (cs ++ [b])).dropWhile isBlank = a :: (cs ++ [b]) :=
    List.dropWhile_cons_of_neg (by simp [ha])
  have h2 : (a :: (cs ++ [b])).reverse = b :: (a :: cs).reverse := by simp
  rw [trimChars, h1, h2, List.dropWhile_cons_of_neg (by simp [hb]), ← h2, List.reverse_reverse]

theorem trimChars_literal (s : String) : trimChars (literal s).toList = (literal s).toList := by
  rw [toList_literal, trimChars_eq_self (by decide) (by decide)]

theorem trim_literal (s : String) : trim (literal s) = literal s := by
  rw [trim, trimChars_literal, String.ofList_toList]

theorem isAllBlank_eq_false_of_mem {s : String} {c : Char} (hc : c ∈ s.toList)
    (hblank : isBlank c = false) : isAllBlank s = false := by
  unfold isAllBlank
  rw [List.all_eq_false]
  exact ⟨c, hc, by rw [hblank]; exact Bool.false_ne_true⟩

theorem isAllBlank_literal (raw : String) : isAllBlank (literal raw) = false :=
  isAllBlank_eq_false_of_mem (c := '\'') (by simp [toList_literal]) (by decide)

/-- Folding keeps every character that is not blank, but for its case. -/
theorem mem_canonicalFrom {c : Char} {cs : List Char} (quoted : Bool) (h : c ∈ cs)
    (hc : isBlank c = false) : ∃ x ∈ canonicalFrom quoted cs, x.toLower = c.toLower := by
  induction cs generalizing quoted with
  | nil => cases h
  | cons d rest ih =>
    -- Whatever is written for `d`, a character of the rest is found by induction.
    have later : ∀ q a, c ∈ rest → ∃ x ∈ a :: canonicalFrom q rest, x.toLower = c.toLower := by
      intro q a hr
      obtain ⟨x, hx, he⟩ := ih q hr
      exact ⟨x, List.mem_cons_of_mem _ hx, he⟩
    rw [canonicalFrom]
    split
    · rcases List.mem_cons.1 h with rfl | hr
      · exact ⟨_, List.mem_cons_self, rfl⟩
      · exact later _ _ hr
    · split
      · rcases List.mem_cons.1 h with rfl | hr
        · exact ⟨_, List.mem_cons_self, rfl⟩
        · exact later _ _ hr
      · split
        · next hd =>
          rcases List.mem_cons.1 h with rfl | hr
          · simp [hd] at hc
          · exact ih _ hr
        · rcases List.mem_cons.1 h with rfl | hr
          · exact ⟨_, List.mem_cons_self, Char.toLower_toUpper_eq_toLower _⟩
          · exact later _ _ hr

theorem mem_canonical {c : Char} {s : String} (h : c ∈ s.toList) (hc : isBlank c = false) :
    ∃ x ∈ (canonical s).toList, x.toLower = c.toLower := by
  rw [canonical, String.toList_ofList]
  exact mem_canonicalFrom false h hc

/-! ## Parentheses -/

theorem mem_withoutParensChars {c : Char} {cs : List Char} (h : c ∈ cs) (hb : isBlank c = false)
    (ho : c ≠ '(') (hc : c ≠ ')') : c ∈ withoutParensChars cs := by
  fun_induction withoutParensChars cs with
  | case1 cs inner hi ih =>
    refine ih ?_
    have ht := mem_trimChars h hb
    unfold innerOfParens at hi
    split at hi
    · next rest heq =>
      split at hi
      · next hcond =>
        cases hi
        rw [heq] at ht
        have hr : c ∈ rest := by grind
        rw [← List.dropLast_append_getLast? _ hcond.1] at hr
        simpa [hc] using hr
      · cases hi
    · cases hi
  | case2 cs _ => exact mem_trimChars h hb

end Text

end SqlDialects
