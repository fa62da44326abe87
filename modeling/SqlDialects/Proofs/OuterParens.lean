import SqlDialects.Proofs.WrappedDefaults

/-!
# The parentheses around a whole text

Readings of reported defaults take a pair of parentheses away for as long as the first one closes at
the last character. They find that out by a count of what is open outside quotes, in any text: its
quotes and parentheses need not have partners. This module says which text is left of any text, by
the grammar of balanced text and without the count.

A text is kept in bytes, and the inside of a pair is cut out by bytes, from the second one up to the
last. That both are places between characters, and that the second is not before the first, does
not go without saying. So the reading is written down once more, with cuts that can fail.

Results:
1. `Text.innerOfParens_eq_some_iff`: a pair is around the whole of a text exactly if the text inside
   is balanced.
2. `Text.splitAtByte?_eq_some_iff`: where a text can be cut.
3. `Text.withoutParensBytes?_eq`: the reading in bytes never fails, and leaves the same text.
4. `Text.withoutParensChars_eq_iff`: what is left is the one text without blanks at its ends and
   without a pair around it that the whole text has in some number of pairs.
-/

namespace SqlDialects

namespace Text

/-! ## Which text is inside -/

/-- Text that closes `n` parentheses opened before it; everything else in it has its partner. -/
inductive Closes : Nat → List Char → Prop
  | balanced {cs : List Char} : IsBalanced cs → Closes 0 cs
  | close {n : Nat} {a b : List Char} : IsBalanced a → Closes n b → Closes (n + 1) (a ++ ')' :: b)

namespace Closes

variable {n : Nat} {a b before rest cs : List Char}

theorem append (ha : IsBalanced a) (h : Closes n b) : Closes n (a ++ b) := by
  cases h with
  | balanced hb => exact .balanced (.append ha hb)
  | close hc hd =>
    rw [← List.append_assoc]
    exact .close (.append ha hc) hd

/-- One more is opened, and it is the first that is closed. -/
theorem opened (h : Closes (n + 1) cs) : Closes n ('(' :: cs) := by
  cases h with
  | @close _ a b ha hb =>
    have hcut : '(' :: (a ++ ')' :: b) = '(' :: (a ++ [')']) ++ b := by simp
    rw [hcut]
    exact hb.append (.parens ha)

theorem quoted (hbefore : '\'' ∉ before) (h : Closes n rest) :
    Closes n ('\'' :: (before ++ '\'' :: rest)) := by
  have hcut : '\'' :: (before ++ '\'' :: rest) = '\'' :: (before ++ ['\'']) ++ rest := by simp
  rw [hcut]
  exact h.append (.quoted hbefore)

end Closes

/-- Text that closes `n` parentheses, for a reader who is between quotes as it begins, or is not. -/
def ClosesFrom (n : Nat) : Bool → List Char → Prop
  | false, cs => Closes n cs
  | true, cs => ∃ before rest, cs = before ++ '\'' :: rest ∧ '\'' ∉ before ∧ Closes n rest

/-- Where a count of open parentheses comes to none at the last character, and not before, the text
before that one closes all of them but one. Between quotes, all that is known while the text is read
is that a quote is to come. -/
theorem closesFrom_of_enclosesFrom {n : Nat} {quoted : Bool} {cs : List Char}
    (h : enclosesFrom (n + 1) quoted (cs ++ [')']) = true) : ClosesFrom n quoted cs := by
  induction cs generalizing n quoted with
  | nil =>
    cases quoted with
    | false =>
      have hn : n = 0 := by simpa [enclosesFrom] using h
      exact hn ▸ .balanced .nil
    | true => simp [enclosesFrom] at h
  | cons c cs ih =>
    rw [List.cons_append, enclosesFrom] at h
    split at h
    · next hc =>
      subst hc
      cases quoted with
      | false =>
        obtain ⟨before, rest, rfl, hbefore, hrest⟩ := ih h
        exact Closes.quoted hbefore hrest
      | true => exact ⟨[], cs, rfl, List.not_mem_nil, ih h⟩
    · next hquote =>
      split at h
      · next hquoted =>
        subst hquoted
        obtain ⟨before, rest, rfl, hbefore, hrest⟩ := ih h
        exact ⟨c :: before, rest, rfl, by simp [hbefore, Ne.symm hquote], hrest⟩
      · next hquoted =>
        rw [Bool.not_eq_true] at hquoted
        subst hquoted
        split at h
        · next hc =>
          subst hc
          exact Closes.opened (ih h)
        · next hopening =>
          split at h
          · next hc =>
            subst hc
            split at h
            · cases h
            · next hlast =>
              -- The last character is still to come, so that this one leaves another open.
              cases n with
              | zero => exact absurd ⟨rfl, by simp⟩ hlast
              | succ n => exact .close .nil (ih h)
          · next hclosing =>
            have hplain : isPaired c = false := by simp [isPaired, hquote, hopening, hclosing]
            exact Closes.append (.plain hplain) (ih h)

/-- Text that starts with a parenthesis whose partner is its last character. -/
def IsInParens (cs : List Char) : Prop :=
  ∃ inside, cs = '(' :: (inside ++ [')']) ∧ IsBalanced inside

theorem innerOfParens_eq_some_iff {cs inside : List Char} :
    innerOfParens cs = some inside ↔ cs = '(' :: (inside ++ [')']) ∧ IsBalanced inside := by
  constructor
  · intro h
    unfold innerOfParens at h
    split at h
    · next rest =>
      split at h
      · next hends =>
        obtain ⟨hlast, hencloses⟩ := hends
        cases h
        have hrest := List.dropLast_append_getLast? _ hlast
        rw [← hrest] at hencloses
        obtain ⟨hbalanced⟩ : Closes 0 rest.dropLast := closesFrom_of_enclosesFrom hencloses
        exact ⟨by rw [hrest], hbalanced⟩
      · cases h
    · cases h
  · rintro ⟨rfl, hbalanced⟩
    exact innerOfParens_of_isBalanced hbalanced

theorem innerOfParens_eq_none_iff {cs : List Char} :
    innerOfParens cs = none ↔ ¬IsInParens cs := by
  rw [Option.eq_none_iff_forall_ne_some, IsInParens, not_exists]
  simp only [ne_eq, innerOfParens_eq_some_iff]

/-! ## What is left -/

/-- A text in `n` pairs of parentheses, with blanks around each of them and around the text. What
`IsWrapped` leaves open is part of it here: the two of a pair are partners. -/
inductive IsInPairs (core : List Char) : Nat → List Char → Prop
  | core {before after : List Char} :
      AreBlank before → AreBlank after → IsInPairs core 0 (before ++ core ++ after)
  | pair {n : Nat} {before inside after : List Char} :
      AreBlank before → AreBlank after → IsBalanced inside → IsInPairs core n inside →
      IsInPairs core (n + 1) (before ++ '(' :: (inside ++ [')']) ++ after)

theorem exists_trimmed (cs : List Char) :
    ∃ before after, AreBlank before ∧ AreBlank after ∧ cs = before ++ trimChars cs ++ after := by
  refine ⟨cs.takeWhile isBlank, ((cs.dropWhile isBlank).reverse.takeWhile isBlank).reverse,
    ?_, ?_, ?_⟩
  · intro c hc
    exact List.mem_takeWhile_imp hc
  · intro c hc
    exact List.mem_takeWhile_imp (List.mem_reverse.1 hc)
  rw [trimChars, List.append_assoc, ← List.reverse_append, List.takeWhile_append_dropWhile,
    List.reverse_reverse, List.takeWhile_append_dropWhile]

theorem trimChars_trimChars (cs : List Char) : trimChars (trimChars cs) = trimChars cs := by
  obtain ⟨before, after, hbefore, hafter, hcs⟩ := exists_trimmed cs
  conv_rhs => rw [hcs, trimChars_append hbefore hafter]

theorem trimChars_withoutParensChars (cs : List Char) :
    trimChars (withoutParensChars cs) = withoutParensChars cs := by
  fun_induction withoutParensChars cs with
  | case1 cs inner _ ih => exact ih
  | case2 cs _ => exact trimChars_trimChars cs

theorem not_isInParens_withoutParensChars (cs : List Char) :
    ¬IsInParens (withoutParensChars cs) := by
  fun_induction withoutParensChars cs with
  | case1 cs inner _ ih => exact ih
  | case2 cs hnone => exact innerOfParens_eq_none_iff.1 hnone

theorem exists_isInPairs (cs : List Char) : ∃ n, IsInPairs (withoutParensChars cs) n cs := by
  fun_induction withoutParensChars cs with
  | case1 cs inner hinner ih =>
    obtain ⟨n, hn⟩ := ih
    obtain ⟨before, after, hbefore, hafter, hcs⟩ := exists_trimmed cs
    obtain ⟨htrimmed, hbalanced⟩ := innerOfParens_eq_some_iff.1 hinner
    rw [htrimmed] at hcs
    rw [hcs]
    exact ⟨n + 1, .pair hbefore hafter hbalanced hn⟩
  | case2 cs _ =>
    obtain ⟨before, after, hbefore, hafter, hcs⟩ := exists_trimmed cs
    refine ⟨0, ?_⟩
    conv_rhs => rw [hcs]
    exact .core hbefore hafter

/-- The pairs around a text are taken away, and nothing of the text. -/
theorem withoutParensChars_of_isInPairs {core cs : List Char} {n : Nat}
    (hcore : trimChars core = core) (hbare : ¬IsInParens core) (h : IsInPairs core n cs) :
    withoutParensChars cs = core := by
  induction h with
  | core hbefore hafter =>
    have hself := (trimChars_append hbefore hafter core).trans hcore
    have hnone := innerOfParens_eq_none_iff.2 hbare
    rw [← hself] at hnone
    rw [withoutParensChars_of_none hnone, hself]
  | @pair n before inside after hbefore hafter hbalanced _ ih =>
    have hpair : trimChars (before ++ '(' :: (inside ++ [')']) ++ after) =
        '(' :: (inside ++ [')']) := by
      rw [trimChars_append hbefore hafter, trimChars_eq_self (by decide) (by decide)]
    have hinside := innerOfParens_of_isBalanced hbalanced
    rw [← hpair] at hinside
    rw [withoutParensChars_of_some hinside, ih]

/-! ## Cuts between bytes -/

open String (utf8Len)

/-- The characters before a byte and those from it on. None where the byte is in the middle of a
character or behind the end. -/
def splitAtByte? : Nat → List Char → Option (List Char × List Char)
  | 0, cs => some ([], cs)
  | _ + 1, [] => none
  | n + 1, c :: rest =>
    if c.utf8Size ≤ n + 1 then
      (splitAtByte? (n + 1 - c.utf8Size) rest).map fun parts => (c :: parts.1, parts.2)
    else none

/-- The characters from one byte up to another. None where the two are out of order as well. -/
def betweenBytes? (first last : Nat) (cs : List Char) : Option (List Char) := do
  let (front, _) ← splitAtByte? last cs
  let (_, between) ← splitAtByte? first front
  return between

/-- Bytes at the start of a text take up its first character. -/
theorem exists_cons_of_utf8Len {n : Nat} {c : Char} {cs front rest : List Char}
    (hcs : front ++ rest = c :: cs) (hfront : utf8Len front = n + 1) :
    ∃ tail, front = c :: tail ∧ tail ++ rest = cs ∧ utf8Len tail + c.utf8Size = n + 1 := by
  cases front with
  | nil => cases hfront
  | cons d tail =>
    rw [List.cons_append, List.cons.injEq] at hcs
    obtain ⟨rfl, htail⟩ := hcs
    exact ⟨tail, rfl, htail, hfront⟩

theorem splitAtByte?_eq_some_iff {n : Nat} {cs front rest : List Char} :
    splitAtByte? n cs = some (front, rest) ↔ front ++ rest = cs ∧ utf8Len front = n := by
  fun_induction splitAtByte? n cs generalizing front with
  | case1 cs =>
    constructor
    · intro h
      cases h
      exact ⟨rfl, rfl⟩
    · rintro ⟨rfl, hfront⟩
      rw [String.utf8Len_eq_zero.1 hfront]
      rfl
  | case2 n =>
    constructor
    · nofun
    · rintro ⟨hcs, hfront⟩
      rw [(List.append_eq_nil_iff.1 hcs).1] at hfront
      cases hfront
  | case3 n c cs hsize ih =>
    rw [Option.map_eq_some_iff]
    constructor
    · rintro ⟨parts, hparts, heq⟩
      cases heq
      obtain ⟨hcs, hfront⟩ := ih.1 hparts
      exact ⟨by rw [List.cons_append, hcs], by rw [String.utf8Len_cons, hfront]; omega⟩
    · rintro ⟨hcs, hfront⟩
      obtain ⟨tail, rfl, htail, hlength⟩ := exists_cons_of_utf8Len hcs hfront
      exact ⟨(tail, rest), ih.2 ⟨htail, by omega⟩, rfl⟩
  | case4 n c cs hsize =>
    constructor
    · nofun
    · rintro ⟨hcs, hfront⟩
      obtain ⟨tail, -, -, hlength⟩ := exists_cons_of_utf8Len hcs hfront
      omega

theorem betweenBytes?_eq_some_iff {first last : Nat} {cs between : List Char} :
    betweenBytes? first last cs = some between ↔
      ∃ before after, cs = before ++ between ++ after ∧ utf8Len before = first ∧
        utf8Len (before ++ between) = last := by
  simp only [betweenBytes?, Option.bind_eq_bind, Option.bind_eq_some_iff, Option.pure_def,
    Option.some.injEq, Prod.exists, splitAtByte?_eq_some_iff]
  constructor
  · rintro ⟨front, after, ⟨rfl, hlast⟩, before, between, ⟨rfl, hfirst⟩, rfl⟩
    exact ⟨before, after, rfl, hfirst, hlast⟩
  · rintro ⟨before, after, rfl, hfirst, hlast⟩
    exact ⟨before ++ between, after, ⟨rfl, hlast⟩, before, between, ⟨rfl, hfirst⟩, rfl⟩

/-! ## The reading in bytes -/

/-- The byte that a text ends with. None where there is no byte. -/
def lastByte? (cs : List Char) : Option Nat :=
  if utf8Len cs = 0 then none else some (utf8Len cs - 1)

/-- Whether the opening parenthesis at the start closes at the byte `last`, for a reader who has got
to the byte `here`. -/
def enclosesAt (last here depth : Nat) (quoted : Bool) : List Char → Bool
  | [] => depth == 0
  | c :: rest =>
    let next := here + c.utf8Size
    if c = '\'' then enclosesAt last next depth (!quoted) rest
    else if quoted then enclosesAt last next depth quoted rest
    else if c = '(' then enclosesAt last next (depth + 1) quoted rest
    else if c = ')' then
      if depth - 1 = 0 ∧ here ≠ last then false else enclosesAt last next (depth - 1) quoted rest
    else enclosesAt last next depth quoted rest

/-- Where the text ends at the byte `last`, a reader of bytes and one of characters agree: a
parenthesis is at that byte exactly if nothing comes after it. -/
theorem enclosesAt_eq {last here : Nat} {cs : List Char} (h : here + utf8Len cs = last + 1)
    (depth : Nat) (quoted : Bool) :
    enclosesAt last here depth quoted cs = enclosesFrom depth quoted cs := by
  induction cs generalizing here depth quoted with
  | nil => rfl
  | cons c rest ih =>
    have hnext : here + c.utf8Size + utf8Len rest = last + 1 := by
      rw [String.utf8Len_cons] at h
      omega
    have hlast : c = ')' → (here ≠ last ↔ rest ≠ []) := by
      rintro rfl
      have hsize : Char.utf8Size ')' = 1 := rfl
      rw [← not_iff_not, not_not, not_not, ← String.utf8Len_eq_zero]
      omega
    simp only [enclosesAt, enclosesFrom, ih hnext]
    by_cases hc : c = ')'
    · simp only [hc, hlast hc]
    · simp only [hc, if_false]

/-- The inside of a text that starts with a parenthesis closed only by its last character, cut out
by bytes. Where a cut fails there is no answer, not even that the text has no such inside. -/
def innerOfParensBytes? (cs : List Char) : Option (Option (List Char)) := do
  if cs.head? = some '(' ∧ cs.getLast? = some ')' then
    let last ← lastByte? cs
    if enclosesAt last 0 0 false cs then
      let inside ← betweenBytes? 1 last cs
      return some inside
    else return none
  else return none

theorem head_and_getLast_iff {cs : List Char} :
    cs.head? = some '(' ∧ cs.getLast? = some ')' ↔ ∃ inside, cs = '(' :: (inside ++ [')']) := by
  constructor
  · rintro ⟨hhead, hlast⟩
    cases cs with
    | nil => cases hhead
    | cons c rest =>
      cases hhead
      cases rest with
      | nil => cases hlast
      | cons d rest =>
        rw [List.getLast?_cons_cons] at hlast
        exact ⟨(d :: rest).dropLast, by rw [List.dropLast_append_getLast? _ hlast]⟩
  · rintro ⟨inside, rfl⟩
    exact ⟨rfl, by rw [← List.cons_append, List.getLast?_concat]⟩

/-- Both parentheses are one byte long, so that the cuts beside them are cuts between characters. -/
theorem innerOfParensBytes?_pair (inside : List Char) :
    innerOfParensBytes? ('(' :: (inside ++ [')'])) =
      some (innerOfParens ('(' :: (inside ++ [')']))) := by
  have hsize : utf8Len ('(' :: (inside ++ [')'])) = utf8Len inside + 1 + 1 := by
    rw [String.utf8Len_cons, String.utf8Len_append]
    rfl
  have hlast : lastByte? ('(' :: (inside ++ [')'])) = some (utf8Len inside + 1) := by
    rw [lastByte?, hsize]
    rfl
  have hcut : betweenBytes? 1 (utf8Len inside + 1) ('(' :: (inside ++ [')'])) = some inside :=
    betweenBytes?_eq_some_iff.2 ⟨['('], [')'], rfl, rfl, by
      rw [String.utf8Len_append, Nat.add_comm]
      rfl⟩
  have hencloses := enclosesAt_eq ((Nat.zero_add _).trans hsize) 0 false
  have hends := head_and_getLast_iff.2 ⟨inside, rfl⟩
  simp [innerOfParensBytes?, hlast, hcut, hencloses, innerOfParens, hends, apply_ite some]

theorem innerOfParensBytes?_eq (cs : List Char) :
    innerOfParensBytes? cs = some (innerOfParens cs) := by
  by_cases hends : ∃ inside, cs = '(' :: (inside ++ [')'])
  · obtain ⟨inside, rfl⟩ := hends
    exact innerOfParensBytes?_pair inside
  · have hnone : innerOfParens cs = none := by
      refine innerOfParens_eq_none_iff.2 ?_
      rintro ⟨inside, hcs, -⟩
      exact hends ⟨inside, hcs⟩
    rw [innerOfParensBytes?, if_neg (mt head_and_getLast_iff.1 hends), hnone]
    rfl

theorem utf8Len_trimChars_le (cs : List Char) : utf8Len (trimChars cs) ≤ utf8Len cs := by
  obtain ⟨before, after, -, -, hcs⟩ := exists_trimmed cs
  exact String.utf8Len_le_of_infix ⟨before, after, hcs.symm⟩

theorem utf8Len_lt_of_innerOfParensBytes? {cs inside : List Char}
    (h : innerOfParensBytes? cs = some (some inside)) : utf8Len inside < utf8Len cs := by
  rw [innerOfParensBytes?_eq, Option.some.injEq, innerOfParens_eq_some_iff] at h
  have hopening := Char.utf8Size_pos '('
  rw [h.1, String.utf8Len_cons, String.utf8Len_append]
  omega

/-- Text without the parentheses around the whole of it, cut out by bytes. None if a cut fails. -/
def withoutParensBytes? (cs : List Char) : Option (List Char) :=
  match _h : innerOfParensBytes? (trimChars cs) with
  | none => none
  | some none => some (trimChars cs)
  | some (some inside) => withoutParensBytes? inside
termination_by utf8Len cs
decreasing_by
  exact Nat.lt_of_lt_of_le (utf8Len_lt_of_innerOfParensBytes? ‹_›) (utf8Len_trimChars_le cs)

/-- No cut of the reading fails, and what it leaves is what is left by characters. -/
theorem withoutParensBytes?_eq (cs : List Char) :
    withoutParensBytes? cs = some (withoutParensChars cs) := by
  fun_induction withoutParensBytes? cs with
  | case1 cs hnone =>
    rw [innerOfParensBytes?_eq] at hnone
    cases hnone
  | case2 cs hnone =>
    rw [innerOfParensBytes?_eq, Option.some.injEq] at hnone
    rw [withoutParensChars_of_none hnone]
  | case3 cs inside hinside ih =>
    rw [innerOfParensBytes?_eq, Option.some.injEq] at hinside
    rw [withoutParensChars_of_some hinside, ih]

/-- Read in bytes, no cut fails. Of any text the one text is left that has no blanks at its ends and
no pair of parentheses around it, and that the whole text has in some number of pairs. A second
reading takes nothing more from it. -/
theorem withoutParensChars_eq_iff (cs : List Char) :
    withoutParensBytes? cs = some (withoutParensChars cs) ∧
      (∀ core, withoutParensChars cs = core ↔
        trimChars core = core ∧ ¬IsInParens core ∧ ∃ n, IsInPairs core n cs) ∧
      withoutParensChars (withoutParensChars cs) = withoutParensChars cs := by
  have htrimmed := trimChars_withoutParensChars cs
  have hbare := not_isInParens_withoutParensChars cs
  refine ⟨withoutParensBytes?_eq cs, fun core => ⟨?_, ?_⟩, ?_⟩
  · rintro rfl
    exact ⟨htrimmed, hbare, exists_isInPairs cs⟩
  · rintro ⟨hcore, hnone, n, hn⟩
    exact withoutParensChars_of_isInPairs hcore hnone hn
  · have hnone := innerOfParens_eq_none_iff.2 hbare
    rw [← htrimmed] at hnone
    rw [withoutParensChars_of_none hnone, htrimmed]

/-- Two pairs that close further in stay, and so do the parentheses between quotes. -/
example : withoutParensChars "( ((')') || ('(')) )".toList = "(')') || ('(')".toList := by cbv

end Text

end SqlDialects
