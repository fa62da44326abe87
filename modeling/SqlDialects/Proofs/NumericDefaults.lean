import SqlDialects.Proofs.Numeral
import SqlDialects.Proofs.WrappedDefaults

/-!
# Numbers as defaults

The default of a numeric column stands in a script without quotes, so what is accepted has to be a
number there. Whole numbers are read and written anew; decimals stay as they are given.

Results:
1. `readInteger_eq_ok_iff`: which texts are integers of a range, and which integers they are.
2. `ColumnRule.integer_defaultLiteral_iff`: the defaults of whole numbers;
   `Dialect.integerBits?_columnRule_builtin`: with how many bits each dialect keeps these.
3. `isPlainDecimal_iff`: which texts are decimals, given what counts as a digit.
4. `ColumnRule.decimal_defaultLiteral_iff`: the defaults of decimals, and where digits of other
   scripts make a difference.
-/

namespace SqlDialects

variable {cs : List Char}

theorem Text.isAsciiDigit_eq_isDigit (c : Char) : isAsciiDigit c = c.isDigit := by
  simp [isAsciiDigit, Char.isDigit, Char.le_def]

/-! ## Whole numbers -/

namespace Numeral

/-- Digits `0` to `9`, at least one. -/
def AreAsciiDigits (cs : List Char) : Prop := cs ≠ [] ∧ ∀ c ∈ cs, Text.isAsciiDigit c = true

/-- A whole number in digits, with a sign or without one. -/
inductive Writes : List Char → Int → Prop
  | unsigned {digits : List Char} : AreAsciiDigits digits →
      Writes digits (Nat.ofDigitChars 10 digits 0)
  | plus {digits : List Char} : AreAsciiDigits digits →
      Writes ('+' :: digits) (Nat.ofDigitChars 10 digits 0)
  | minus {digits : List Char} : AreAsciiDigits digits →
      Writes ('-' :: digits) (-(Nat.ofDigitChars 10 digits 0 : Int))

theorem areAsciiDigits_toDigits (n : Nat) : AreAsciiDigits (Nat.toDigits 10 n) := by
  refine ⟨Nat.toDigits_ne_nil, ?_⟩
  intro c hc
  rw [Text.isAsciiDigit_eq_isDigit]
  exact Nat.isDigit_of_mem_toDigits (by decide) (by decide) hc

/-- An integer is written by its own text. -/
theorem writes_toString (n : Int) : Writes (toString n).toList n := by
  cases n with
  | ofNat m =>
    have h := Writes.unsigned (areAsciiDigits_toDigits m)
    rw [Nat.ofDigitChars_ten_toDigits] at h
    show Writes (Nat.repr m).toList m
    rwa [Nat.toList_repr]
  | negSucc m =>
    have h := Writes.minus (areAsciiDigits_toDigits (m + 1))
    rw [Nat.ofDigitChars_ten_toDigits] at h
    show Writes ("-" ++ Nat.repr (m + 1)).toList (-((m + 1 : Nat) : Int))
    rwa [String.toList_append, Nat.toList_repr]

theorem writes_plus_iff {n : Int} :
    Writes ('+' :: cs) n ↔ AreAsciiDigits cs ∧ (Nat.ofDigitChars 10 cs 0 : Int) = n := by
  constructor
  · intro h
    cases h with
    | unsigned h => exact absurd (h.2 '+' List.mem_cons_self) (by decide)
    | plus h => exact ⟨h, rfl⟩
  · rintro ⟨h, rfl⟩
    exact .plus h

theorem writes_minus_iff {n : Int} :
    Writes ('-' :: cs) n ↔ AreAsciiDigits cs ∧ -(Nat.ofDigitChars 10 cs 0 : Int) = n := by
  constructor
  · intro h
    cases h with
    | unsigned h => exact absurd (h.2 '-' List.mem_cons_self) (by decide)
    | minus h => exact ⟨h, rfl⟩
  · rintro ⟨h, rfl⟩
    exact .minus h

theorem writes_iff_of_ne {n : Int} (hminus : ∀ rest, cs ≠ '-' :: rest)
    (hplus : ∀ rest, cs ≠ '+' :: rest) :
    Writes cs n ↔ AreAsciiDigits cs ∧ (Nat.ofDigitChars 10 cs 0 : Int) = n := by
  constructor
  · intro h
    cases h with
    | unsigned h => exact ⟨h, rfl⟩
    | plus => exact absurd rfl (hplus _)
    | minus => exact absurd rfl (hminus _)
  · rintro ⟨h, rfl⟩
    exact .unsigned h

end Numeral

open Numeral

theorem le_ofDigitChars (cs : List Char) (acc : Nat) : acc ≤ Nat.ofDigitChars 10 cs acc := by
  induction cs generalizing acc with
  | nil => exact Nat.le_refl acc
  | cons c rest ih =>
    rw [Nat.ofDigitChars_cons]
    exact Nat.le_trans (by omega) (ih _)

/-- Digits that continue a magnitude are read unless the whole passes the bound: more digits only
make it larger. -/
theorem readMagnitude_eq_ok_iff {bound acc n : Nat} {overflow : IntegerFault} (h : acc ≤ bound) :
    readMagnitude bound overflow acc cs = .ok n ↔
      (∀ c ∈ cs, Text.isAsciiDigit c = true) ∧ Nat.ofDigitChars 10 cs acc = n ∧ n ≤ bound := by
  induction cs generalizing acc with
  | nil =>
    show Except.ok acc = .ok n ↔ _
    constructor
    · intro hn
      cases hn
      exact ⟨fun c hc => absurd hc List.not_mem_nil, rfl, h⟩
    · rintro ⟨-, rfl, -⟩
      rfl
  | cons c rest ih =>
    have hnext : acc * 10 + digitValue c = 10 * acc + (c.toNat - '0'.toNat) := by
      rw [digitValue, Nat.mul_comm]
    rw [Nat.ofDigitChars_cons, ← hnext, List.forall_mem_cons, readMagnitude]
    cases hdigit : Text.isAsciiDigit c with
    | false => simp
    | true =>
      simp only [Bool.not_true, Bool.false_eq_true, if_false, true_and]
      split
      · next hover =>
        have hle := le_ofDigitChars rest (acc * 10 + digitValue c)
        constructor
        · intro hn
          cases hn
        · rintro ⟨-, rfl, hn⟩
          omega
      · next hover => exact ih (Nat.not_lt.1 hover)

theorem map_readMagnitude_eq_ok_iff {bound : Nat} {overflow : IntegerFault} {f : Nat → Int}
    {n : Int} (hne : cs ≠ []) :
    (readMagnitude bound overflow 0 cs).map f = .ok n ↔
      AreAsciiDigits cs ∧ f (Nat.ofDigitChars 10 cs 0) = n ∧ Nat.ofDigitChars 10 cs 0 ≤ bound := by
  constructor
  · intro h
    cases hread : readMagnitude bound overflow 0 cs with
    | error fault =>
      rw [hread] at h
      cases h
    | ok m =>
      obtain ⟨hdigits, rfl, hle⟩ := (readMagnitude_eq_ok_iff (Nat.zero_le _)).1 hread
      rw [hread] at h
      cases h
      exact ⟨⟨hne, hdigits⟩, rfl, hle⟩
  · rintro ⟨hdigits, rfl, hle⟩
    rw [(readMagnitude_eq_ok_iff (Nat.zero_le _)).2 ⟨hdigits.2, rfl, hle⟩]
    rfl

/-- Which texts are integers of a range around zero, and which integers they are. -/
theorem readInteger_eq_ok_iff {range : IntegerRange} {n : Int} (hleast : range.least ≤ 0)
    (hgreatest : 0 ≤ range.greatest) :
    readInteger range cs = .ok n ↔ Writes cs n ∧ range.least ≤ n ∧ n ≤ range.greatest := by
  have hupper (digits : List Char) :
      AreAsciiDigits digits ∧ Int.ofNat (Nat.ofDigitChars 10 digits 0) = n ∧
          Nat.ofDigitChars 10 digits 0 ≤ range.greatest.natAbs ↔
        (AreAsciiDigits digits ∧ (Nat.ofDigitChars 10 digits 0 : Int) = n) ∧
          range.least ≤ n ∧ n ≤ range.greatest := by
    simp only [Int.ofNat_eq_natCast]
    constructor
    · rintro ⟨hdigits, rfl, hle⟩
      exact ⟨⟨hdigits, rfl⟩, by omega, by omega⟩
    · rintro ⟨⟨hdigits, rfl⟩, -, hle⟩
      exact ⟨hdigits, rfl, by omega⟩
  unfold readInteger
  split
  · constructor
    · intro h
      cases h
    · rintro ⟨h, -⟩
      cases h with
      | unsigned h => exact absurd rfl h.1
  · constructor
    · intro h
      cases h
    · rintro ⟨h, -⟩
      exact absurd rfl (writes_plus_iff.1 h).1.1
  · constructor
    · intro h
      cases h
    · rintro ⟨h, -⟩
      exact absurd rfl (writes_minus_iff.1 h).1.1
  · next rest hne =>
    have hmap : ∀ read : Except IntegerFault Nat,
        ((do return (← read : Int)) : Except IntegerFault Int).map (fun m => -m) =
          read.map fun m : Nat => -(m : Int) := by
      intro read
      cases read with
      | error => rfl
      | ok => rfl
    rw [hmap, map_readMagnitude_eq_ok_iff hne, writes_minus_iff]
    constructor
    · rintro ⟨hdigits, rfl, hle⟩
      exact ⟨⟨hdigits, rfl⟩, by omega, by omega⟩
    · rintro ⟨⟨hdigits, rfl⟩, hle, -⟩
      exact ⟨hdigits, rfl, by omega⟩
  · next rest hne =>
    rw [map_readMagnitude_eq_ok_iff hne, writes_plus_iff]
    exact hupper rest
  · next hne _ _ hminus hplus =>
    rw [map_readMagnitude_eq_ok_iff hne, writes_iff_of_ne hminus hplus]
    exact hupper cs

/-- Bits of the whole numbers that a rule is for. -/
def ColumnRule.integerBits? : ColumnRule → Option Nat
  | .integer .short .. => some 16
  | .integer .integer .. => some 32
  | .integer .long .. => some 64
  | _ => none

/-- Every dialect keeps whole numbers with the bits of their types. -/
theorem Dialect.integerBits?_columnRule_builtin (db : Database) :
    ((builtin db).columnRule .short).integerBits? = some 16 ∧
      ((builtin db).columnRule .integer).integerBits? = some 32 ∧
      ((builtin db).columnRule .long).integerBits? = some 64 := by
  cases db <;> exact ⟨rfl, rfl, rfl⟩

namespace ColumnRule

/-- A rule for whole numbers reads those that fit into its bits. -/
theorem defaultLiteral_of_integerBits? {p : ColumnRule} {bits : Nat}
    (h : p.integerBits? = some bits) {raw s : String} :
    p.defaultLiteral raw = .ok s ↔ ∃ n : Int, Writes (Text.trim raw).toList n ∧
      -2 ^ (bits - 1) ≤ n ∧ n < 2 ^ (bits - 1) ∧ toString n = s := by
  obtain ⟨type, hread, hleast, hgreatest⟩ : ∃ type, p.defaultLiteral raw = integerDefault type raw ∧
      (integerRange type).least = -2 ^ (bits - 1) ∧
      (integerRange type).greatest = 2 ^ (bits - 1) - 1 := by
    unfold integerBits? at h
    split at h
    · cases h
      exact ⟨.short, rfl, rfl, rfl⟩
    · cases h
      exact ⟨.integer, rfl, rfl, rfl⟩
    · cases h
      exact ⟨.long, rfl, rfl, rfl⟩
    · cases h
  have hpos : (0 : Int) < 2 ^ (bits - 1) := by positivity
  have hrange (n : Int) : readInteger (integerRange type) (Text.trim raw).toList = .ok n ↔
      Writes (Text.trim raw).toList n ∧ (integerRange type).least ≤ n ∧
        n ≤ (integerRange type).greatest := readInteger_eq_ok_iff (by omega) (by omega)
  rw [hread, integerDefault]
  constructor
  · intro hs
    split at hs
    · next n hn =>
      obtain ⟨hwrites, hle, hlt⟩ := (hrange n).1 hn
      cases hs
      exact ⟨n, hwrites, by omega, by omega, rfl⟩
    · cases hs
  · rintro ⟨n, hwrites, hle, hlt, rfl⟩
    have hn := (hrange n).2 ⟨hwrites, by omega, by omega⟩
    simp only [hn]

/-- The default of a whole number is accepted if it is a sign, if any, and digits, and fits into the
bits of the type. It is written without needless signs and zeros, and that text stands for itself. -/
theorem integer_defaultLiteral_iff {p : ColumnRule} {bits : Nat}
    (h : p.integerBits? = some bits) (raw : String) :
    (∀ s, p.defaultLiteral raw = .ok s ↔ ∃ n : Int, Writes (Text.trim raw).toList n ∧
        -2 ^ (bits - 1) ≤ n ∧ n < 2 ^ (bits - 1) ∧ toString n = s) ∧
      ∀ s, p.defaultLiteral raw = .ok s → p.defaultLiteral s = .ok s := by
  refine ⟨fun s => defaultLiteral_of_integerBits? h, ?_⟩
  intro s hs
  obtain ⟨n, -, hle, hlt, rfl⟩ := (defaultLiteral_of_integerBits? h).1 hs
  have htrim : Text.trim (toString n) = toString n := by
    rw [Text.trim, (Text.isCore_of_isNumber (isNumber_int n)).trimmed, String.ofList_toList]
  refine (defaultLiteral_of_integerBits? h).2 ⟨n, ?_, hle, hlt, rfl⟩
  rw [htrim]
  exact writes_toString n

/-- The least number of 16 bits, given with a needless zero, is written without it. -/
theorem short_least_defaultLiteral :
    (ColumnRule.integer .short "SMALLINT" .smallInt none).integerBits? = some 16 ∧
      (ColumnRule.integer .short "SMALLINT" .smallInt none).defaultLiteral " -032768\t" =
        .ok "-32768" ∧
      (ColumnRule.integer .short "SMALLINT" .smallInt none).defaultLiteral "-32768" =
        .ok "-32768" := by
  have hdefault := integer_defaultLiteral_iff
    (p := .integer .short "SMALLINT" .smallInt none) rfl " -032768\t"
  have htrim : (Text.trim " -032768\t").toList = '-' :: ['0', '3', '2', '7', '6', '8'] := by decide
  have hwrites : Writes (Text.trim " -032768\t").toList (-32768) := by
    rw [htrim]
    exact writes_minus_iff.2 ⟨⟨List.cons_ne_nil _ _, List.all_eq_true.1 rfl⟩, rfl⟩
  have hwritten := (hdefault.1 "-32768").2 ⟨-32768, hwrites, by decide, by decide, by decide⟩
  exact ⟨rfl, hwritten, hdefault.2 _ hwritten⟩

end ColumnRule

/-! ## Decimals -/

namespace Numeral

/-- A decimal without a sign: digits with a point and places after them or without, or a point and
places alone. -/
inductive IsUnsignedDecimal (digit : Char → Bool) : List Char → Prop
  | whole {digits : List Char} : digits ≠ [] → (∀ c ∈ digits, digit c = true) →
      IsUnsignedDecimal digit digits
  | pointed {digits places : List Char} : digits ≠ [] → (∀ c ∈ digits, digit c = true) →
      (∀ c ∈ places, digit c = true) → IsUnsignedDecimal digit (digits ++ '.' :: places)
  | fraction {places : List Char} : places ≠ [] → (∀ c ∈ places, digit c = true) →
      IsUnsignedDecimal digit ('.' :: places)

/-- A decimal, with a sign or without one. -/
inductive IsDecimal (digit : Char → Bool) : List Char → Prop
  | unsigned {cs : List Char} : IsUnsignedDecimal digit cs → IsDecimal digit cs
  | signed {sign : Char} {cs : List Char} : sign = '+' ∨ sign = '-' → IsUnsignedDecimal digit cs →
      IsDecimal digit (sign :: cs)

variable {digit digit' : Char → Bool}

namespace IsUnsignedDecimal

theorem mem_cases (h : IsUnsignedDecimal digit cs) {c : Char} (hc : c ∈ cs) :
    digit c = true ∨ c = '.' := by
  cases h with
  | whole _ hdigits => exact .inl (hdigits c hc)
  | pointed _ hdigits hplaces =>
    rcases List.mem_append.1 hc with hc | hc
    · exact .inl (hdigits c hc)
    · exact (List.mem_cons.1 hc).symm.imp_left (hplaces c)
  | fraction _ hplaces => exact (List.mem_cons.1 hc).symm.imp_left (hplaces c)

/-- What counts as a digit matters for the characters of the text alone. -/
theorem imp (h : IsUnsignedDecimal digit cs)
    (himp : ∀ c ∈ cs, digit c = true → digit' c = true) : IsUnsignedDecimal digit' cs := by
  cases h with
  | whole hne hdigits => exact .whole hne fun c hc => himp c hc (hdigits c hc)
  | pointed hne hdigits hplaces =>
    refine .pointed hne (fun c hc => himp c ?_ (hdigits c hc)) fun c hc => himp c ?_ (hplaces c hc)
    · exact List.mem_append_left _ hc
    · exact List.mem_append_right _ (List.mem_cons_of_mem _ hc)
  | fraction hne hplaces =>
    exact .fraction hne fun c hc => himp c (List.mem_cons_of_mem _ hc) (hplaces c hc)

end IsUnsignedDecimal

namespace IsDecimal

theorem mem_cases (h : IsDecimal digit cs) {c : Char} (hc : c ∈ cs) :
    digit c = true ∨ c ∈ ['.', '+', '-'] := by
  cases h with
  | unsigned h => exact (h.mem_cases hc).imp_right fun hpoint => by simp [hpoint]
  | signed hsign h =>
    rcases List.mem_cons.1 hc with rfl | hc
    · exact .inr (by rcases hsign with rfl | rfl <;> decide)
    · exact (h.mem_cases hc).imp_right fun hpoint => by simp [hpoint]

theorem imp (h : IsDecimal digit cs) (himp : ∀ c ∈ cs, digit c = true → digit' c = true) :
    IsDecimal digit' cs := by
  cases h with
  | unsigned h => exact .unsigned (h.imp himp)
  | signed hsign h =>
    exact .signed hsign (h.imp fun c hc => himp c (List.mem_cons_of_mem _ hc))

end IsDecimal

/-- A sign is no digit and no point, so that what follows it is a decimal without a sign. -/
theorem isDecimal_sign_iff {sign : Char} (hsign : sign = '+' ∨ sign = '-') :
    IsDecimal Text.isDecimalDigit (sign :: cs) ↔ IsUnsignedDecimal Text.isDecimalDigit cs := by
  constructor
  · intro h
    cases h with
    | unsigned h =>
      have hmem := h.mem_cases List.mem_cons_self
      rcases hsign with rfl | rfl <;> exact absurd hmem (by decide)
    | signed _ h => exact h
  · exact .signed hsign

theorem isDecimal_iff_dropSign :
    IsDecimal Text.isDecimalDigit cs ↔ IsUnsignedDecimal Text.isDecimalDigit (dropSign cs) := by
  unfold dropSign
  split
  · exact isDecimal_sign_iff (.inl rfl)
  · exact isDecimal_sign_iff (.inr rfl)
  · next hplus hminus =>
    constructor
    · intro h
      cases h with
      | unsigned h => exact h
      | signed hsign =>
        rcases hsign with rfl | rfl
        · exact absurd rfl (hplus _)
        · exact absurd rfl (hminus _)
    · exact .unsigned

theorem isUnsignedDecimal_of_isUnsigned (h : IsUnsigned cs) :
    IsUnsignedDecimal Text.isDecimalDigit cs := by
  cases h with
  | whole hdigits hne => exact .whole hne hdigits
  | @pointed digits places hdigits hplaces hne =>
    by_cases hwhole : digits = []
    · subst hwhole
      exact .fraction (hne.resolve_left fun h => h rfl) hplaces
    · exact .pointed hwhole hdigits hplaces

end Numeral

/-- A text is a decimal if it is one in the digits of all scripts. -/
theorem isPlainDecimal_iff : isPlainDecimal cs = true ↔ IsDecimal Text.isDecimalDigit cs := by
  rw [isDecimal_iff_dropSign]
  constructor
  · intro h
    exact isUnsignedDecimal_of_isUnsigned (isUnsigned_of_isPlainDecimal h)
  · intro h
    have hpoint : Text.isDecimalDigit '.' = false := by decide
    simp only [isPlainDecimal]
    generalize dropSign cs = unsigned at h
    cases h with
    | whole hne hdigits =>
      rw [List.dropWhile_eq_nil_iff.2 hdigits, List.takeWhile_eq_self_iff.2 hdigits]
      simpa using hne
    | pointed hne hdigits hplaces =>
      rw [List.dropWhile_append_of_pos hdigits, List.takeWhile_append_of_pos hdigits]
      simp only [List.dropWhile_cons, List.takeWhile_cons, hpoint]
      simpa [hne] using hplaces
    | fraction hne hplaces =>
      simp only [List.dropWhile_cons, List.takeWhile_cons, hpoint]
      simpa [hne] using hplaces

/-- A decimal in digits of all scripts is one in `0` to `9` if it has no other digits. -/
theorem Numeral.isDecimal_ascii_iff :
    IsDecimal Text.isAsciiDigit cs ↔ IsDecimal Text.isDecimalDigit cs ∧
      ∀ c ∈ cs, Text.isDecimalDigit c = true → Text.isAsciiDigit c = true := by
  constructor
  · intro h
    have hdecimal : IsDecimal Text.isDecimalDigit cs := by
      refine h.imp ?_
      intro c _ hc
      rw [Text.isAsciiDigit_eq_isDigit] at hc
      exact Text.isDecimalDigit_of_isDigit hc
    refine ⟨hdecimal, ?_⟩
    intro c hc hdigit
    refine (h.mem_cases hc).resolve_right ?_
    intro hmark
    simp only [List.mem_cons, List.not_mem_nil, or_false] at hmark
    rcases hmark with rfl | rfl | rfl <;> exact absurd hdigit (by decide)
  · rintro ⟨h, hascii⟩
    exact h.imp hascii

namespace ColumnRule

/-- The default of a decimal is accepted if it is one in the digits of all scripts, and stays as it
is. Only decimals in `0` to `9` are accepted, except where there are digits of other scripts. -/
theorem decimal_defaultLiteral_iff (keyword : String) (code : TypeCode) (raw : String) :
    (∀ s, (decimal keyword code).defaultLiteral raw = .ok s ↔
        IsDecimal Text.isDecimalDigit (Text.trim raw).toList ∧ s = Text.trim raw) ∧
      (((∃ s, (decimal keyword code).defaultLiteral raw = .ok s) ↔
          IsDecimal Text.isAsciiDigit (Text.trim raw).toList) ↔
        ¬(IsDecimal Text.isDecimalDigit (Text.trim raw).toList ∧
          ∃ c ∈ (Text.trim raw).toList,
            Text.isDecimalDigit c = true ∧ Text.isAsciiDigit c = false)) := by
  have haccepted (s : String) : (decimal keyword code).defaultLiteral raw = .ok s ↔
      IsDecimal Text.isDecimalDigit (Text.trim raw).toList ∧ s = Text.trim raw := by
    show decimalDefault raw = .ok s ↔ _
    rw [← isPlainDecimal_iff, decimalDefault]
    constructor
    · intro h
      split at h
      · next hplain =>
        cases h
        exact ⟨hplain, rfl⟩
      · cases h
    · rintro ⟨hplain, rfl⟩
      exact if_pos hplain
  refine ⟨haccepted, ?_⟩
  simp only [haccepted, exists_and_left, exists_eq, and_true, isDecimal_ascii_iff]
  rw [iff_self_and]
  constructor
  · intro h
    rintro ⟨hdecimal, c, hc, hdigit, hforeign⟩
    rw [h hdecimal c hc hdigit] at hforeign
    cases hforeign
  · intro h hdecimal c hc hdigit
    by_contra hforeign
    exact h ⟨hdecimal, c, hc, hdigit, Bool.eq_false_iff.2 hforeign⟩

/-- The digit three of the Arabic script is accepted, which is no decimal in `0` to `9`. -/
theorem foreign_three_accepted :
    (decimal "DECIMAL" .decimal).defaultLiteral "٣" = .ok "٣" ∧
      ¬IsDecimal Text.isAsciiDigit (Text.trim "٣").toList := by
  refine ⟨by decide, ?_⟩
  have htrim : (Text.trim "٣").toList = ['٣'] := by decide
  rw [htrim]
  intro h
  exact absurd (h.mem_cases List.mem_cons_self) (by decide)

end ColumnRule

end SqlDialects
