import SqlDialects.Dialect.Builtin
import SqlDialects.Proofs.Cast
import SqlDialects.Proofs.Numeral

/-!
# Which rendered defaults read back as unchanged

A configured default is written as a literal, and the catalog reports that literal in decorations of
its own. A reading takes nothing and NULL for no default at all. So a rendered default reads back
as unchanged unless its one spelling is empty or NULL.

The argument is one character. A *mark* is a character that no reading takes away and that no
spelling of NULL has. A text with a mark reads as a default (`isGiven_normalize`), and every
rendered literal has a mark, but for strings where quotes are not reported: those read as the raw
text.

Results:
1. `isMatch_rendered_iff`: for any reading and any rules, a rendered default matches iff it is not
   the text NULL in a column of text whose quotes are not reported.
2. `builtin_isMatch_rendered_iff`: over the dialects, these are the strings, the codes of
   enumerations and the large texts of MySQL.
3. `Dialect.isAllBlank_rendered_builtin`: no rendered default is blank.
-/

namespace SqlDialects

namespace Text

/-- Neither blank nor a parenthesis, and no letter of NULL. -/
def IsMark (c : Char) : Prop :=
  isBlank c = false ∧ c ≠ '(' ∧ c ≠ ')' ∧ c.toLower ∉ ['n', 'u', 'l']

instance (c : Char) : Decidable (IsMark c) :=
  inferInstanceAs (Decidable (_ ∧ _ ∧ _ ∧ _))

/-- Neither empty nor a spelling of NULL. -/
def IsGiven (s : String) : Prop := s.isEmpty = false ∧ sameName s "NULL" = false

instance (s : String) : Decidable (IsGiven s) := inferInstanceAs (Decidable (_ ∧ _))

/-- One character that NULL does not have is enough. -/
theorem isGiven_of_mem {s : String} {c x : Char} (hc : IsMark c) (hx : x ∈ s.toList)
    (h : x.toLower = c.toLower) : IsGiven s := by
  constructor
  · rw [Bool.eq_false_iff]
    intro he
    rw [String.isEmpty_iff.1 he] at hx
    simp at hx
  · rw [Bool.eq_false_iff]
    intro hn
    have hm := mem_of_sameName hn hx
    rw [h] at hm
    exact hc.2.2.2 (by simpa using hm)

/-- The digits of a script lie after the parentheses and beside the letters and the blanks. -/
theorem digitZeros_apart : ∀ first ∈ digitZeros, 48 ≤ first ∧ (first < 56 ∨ 122 < first) ∧
    (first + 10 ≤ 0x2000 ∨ 0x200A < first) ∧
    ∀ blank ∈ [0x85, 0xA0, 0x1680, 0x2028, 0x2029, 0x202F, 0x205F, 0x3000],
      first + 10 ≤ blank ∨ blank < first := by
  decide

theorem isMark_of_isDecimalDigit {c : Char} (h : isDecimalDigit c = true) : IsMark c := by
  obtain ⟨first, hf, hc⟩ := List.any_eq_true.1 h
  obtain ⟨hlow, hletters, hspaces, hblanks⟩ := digitZeros_apart first hf
  simp only [Bool.and_eq_true, decide_eq_true_eq] at hc
  have hne : ∀ x : Char, x.toNat < 48 ∨ (65 ≤ x.toNat ∧ x.toNat ≤ 122) → c ≠ x := by
    rintro x hx rfl
    omega
  have hlower : c.toLower = c := by
    refine Char.toLower_eq_of_not_isUpper ?_
    simp only [Char.isUpper, ge_iff_le, UInt32.le_iff_toNat_le, Char.toNat_val, decide_eq_true_eq]
    have hA : 'A'.toNat = 65 := rfl
    have hZ : 'Z'.toNat = 90 := rfl
    omega
  refine ⟨?_, hne _ (by decide), hne _ (by decide), ?_⟩
  · rw [Bool.eq_false_iff]
    intro hb
    simp only [isBlank, Bool.or_eq_true, Bool.and_eq_true, decide_eq_true_eq, beq_iff_eq] at hb
    simp only [List.forall_mem_cons] at hblanks
    omega
  · rw [hlower]
    simp [hne 'n' (by decide), hne 'u' (by decide), hne 'l' (by decide)]

end Text

namespace DefaultReading

open Text (IsMark IsGiven)

/-! ## What a reading makes of a text -/

/-- A spelling of the current day or time gives way to the one that stands for all. -/
theorem canonicalDefault_cases (s : String) :
    (∃ entry ∈ defaultSynonyms, Text.sameName s entry.1 = true ∧ canonicalDefault s = entry.2) ∨
      (∀ entry ∈ defaultSynonyms, Text.sameName s entry.1 = false) ∧ canonicalDefault s = s := by
  unfold canonicalDefault
  split
  · next entry hentry =>
    have hsame : Text.sameName s entry.1 = true := by simpa using List.find?_some hentry
    exact .inl ⟨entry, List.mem_of_find?_eq_some hentry, hsame, rfl⟩
  · next hnone =>
    refine .inr ⟨fun entry hentry => ?_, rfl⟩
    exact Bool.eq_false_iff.2 (List.find?_eq_none.1 hnone entry hentry)

/-- What the reading without quotes makes of a text: the inside of its quotes, a number for a truth
value or the current day or time in capitals, or else the text without the blanks around it. -/
theorem withoutQuotes_cases (s : String) :
    (∃ inner, Text.unquote? (Text.trim s) = some inner ∧ withoutQuotes s = inner) ∨
      withoutQuotes s ∈ ["1", "0", "CURRENT_TIMESTAMP", "CURRENT_DATE"] ∨
      withoutQuotes s = Text.trim s ∧ Text.unquote? (Text.trim s) = none ∧
        (∀ entry ∈ defaultSynonyms, Text.sameName (Text.trim s) entry.1 = false) ∧
        Text.sameName (Text.trim s) "TRUE" = false ∧
        Text.sameName (Text.trim s) "FALSE" = false ∧
        ¬(Text.sameName (Text.trim s) "CURRENT_TIMESTAMP" = true ∨
          Text.sameName (Text.trim s) "CURRENT_DATE" = true) := by
  have hcurrents : ∀ entry ∈ defaultSynonyms, (Text.sameName entry.2 "CURRENT_TIMESTAMP" ||
      Text.sameName entry.2 "CURRENT_DATE") = true := by decide
  simp only [withoutQuotes]
  split
  · next inner hinner => exact .inl ⟨inner, hinner, rfl⟩
  · next hunquoted =>
    right
    split
    · exact .inl (by decide)
    · next htrue =>
      split
      · exact .inl (by decide)
      · next hfalse =>
        split
        · next hcurrent =>
          left
          rcases Bool.or_eq_true_iff.1 hcurrent with hsame | hsame
          · rw [Text.asciiUpper_eq_iff.2 hsame]
            decide
          · rw [Text.asciiUpper_eq_iff.2 hsame]
            decide
        · next hcurrent =>
          right
          rcases canonicalDefault_cases (Text.trim s) with
            ⟨entry, hentry, -, hcanonical⟩ | ⟨hnone, hcanonical⟩
          · rw [hcanonical] at hcurrent
            exact absurd (hcurrents entry hentry) hcurrent
          · rw [hcanonical] at htrue hfalse hcurrent ⊢
            exact ⟨rfl, hunquoted, hnone, Bool.eq_false_iff.2 htrue, Bool.eq_false_iff.2 hfalse,
              fun h => hcurrent (Bool.or_eq_true_iff.2 h)⟩

/-! ## Marks outlive every reading -/

theorem isGiven_canonicalDefault {s : String} (h : IsGiven s) : IsGiven (canonicalDefault s) := by
  have hall : ∀ entry ∈ defaultSynonyms, IsGiven entry.2 := by decide
  rcases canonicalDefault_cases s with ⟨entry, hentry, -, hcanonical⟩ | ⟨-, hself⟩
  · rw [hcanonical]
    exact hall entry hentry
  · rwa [hself]

theorem isGiven_canonicalFolded {s : String} {c : Char} (hc : IsMark c) (h : c ∈ s.toList) :
    IsGiven (canonicalFolded s) := by
  obtain ⟨x, hx, he⟩ := Text.mem_canonical h hc.1
  exact isGiven_canonicalDefault (Text.isGiven_of_mem hc hx he)

theorem mem_of_mem_dropSign {c : Char} {cs : List Char} (h : c ∈ dropSign cs) : c ∈ cs := by
  unfold dropSign at h
  split at h
  · exact List.mem_cons_of_mem _ h
  · exact List.mem_cons_of_mem _ h
  · exact h

theorem exists_digit_of_isSignedNumber {cs : List Char} (h : isSignedNumber cs = true) :
    ∃ c ∈ cs, Text.isDecimalDigit c = true := by
  simp only [isSignedNumber, Bool.and_eq_true, Bool.not_eq_true', List.isEmpty_eq_false_iff] at h
  obtain ⟨c, hc⟩ := List.exists_mem_of_ne_nil _ h.1
  refine ⟨c, mem_of_mem_dropSign ((List.takeWhile_prefix _).subset hc), ?_⟩
  exact List.mem_takeWhile_imp hc

/-- Casts have colons and no quotes. -/
theorem mem_removeAll {c : Char} {cs : List Char} (h : c ∈ cs) (hc : c = '\'' ∨ ':' ∉ cs) :
    c ∈ Cast.removeAll cs := by
  rcases hc with rfl | hc
  · exact Cast.quote_mem_removeAll h
  · rwa [Cast.removeAll_eq_self hc]

theorem isGiven_withoutCasts {s : String} {c : Char} (hc : IsMark c) (h : c ∈ s.toList)
    (hq : c = '\'' ∨ ':' ∉ s.toList) : IsGiven (withoutCasts s) := by
  have hcast : c ∈ Cast.removeAll (Text.trimChars s.toList) :=
    mem_removeAll (Text.mem_trimChars h hc.1)
      (hq.imp_right fun hn hm => hn (Text.mem_of_mem_trimChars hm))
  have hbare := Text.mem_withoutParensChars hcast hc.1 hc.2.1 hc.2.2.1
  simp only [withoutCasts]
  split
  · next number hnum =>
    split at hnum
    · cases hnum
    · obtain ⟨x, hx, hd⟩ := exists_digit_of_isSignedNumber (Option.filter_eq_some_iff.1 hnum).2
      exact Text.isGiven_of_mem (Text.isMark_of_isDecimalDigit hd) (by simpa using hx) rfl
  · exact isGiven_canonicalFolded hc (by simpa using hbare)

theorem isGiven_withoutQuotes {s : String} {c : Char} (hc : IsMark c) (h : c ∈ s.toList)
    (hq : c ≠ '\'') : IsGiven (withoutQuotes s) := by
  have ht : c ∈ (Text.trim s).toList := by simpa [Text.trim] using Text.mem_trimChars h hc.1
  have hall : ∀ fixed ∈ ["1", "0", "CURRENT_TIMESTAMP", "CURRENT_DATE"], IsGiven fixed := by
    decide
  rcases withoutQuotes_cases s with ⟨inner, hinner, hself⟩ | hfixed | ⟨hself, -⟩
  · rw [hself]
    exact Text.isGiven_of_mem hc (Text.mem_unquote? hinner ht hq) rfl
  · exact hall _ hfixed
  · rw [hself]
    exact Text.isGiven_of_mem hc ht rfl

theorem mem_dropNationalMark {c : Char} {cs : List Char} (h : c ∈ cs) (hc : c ≠ 'N') :
    c ∈ dropNationalMark cs := by
  unfold dropNationalMark
  split
  · exact (List.mem_cons.1 h).resolve_left hc
  · exact h

/-- A text with a mark reads as a default. Where casts are dropped the mark has to be a quote or the
text free of colons; where quotes are dropped it may be no quote. -/
theorem isGiven_normalize {d : DefaultReading} {s : String} {c : Char} (hc : IsMark c)
    (h : c ∈ s.toList) (hcast : d = .castSuffix → c = '\'' ∨ ':' ∉ s.toList)
    (hbare : d = .bare → c ≠ '\'') : IsGiven (d.normalize s) := by
  cases d <;> simp only [normalize]
  case quoted =>
    exact isGiven_canonicalFolded hc (by simpa [Text.trim] using Text.mem_trimChars h hc.1)
  case castSuffix => exact isGiven_withoutCasts hc h (hcast rfl)
  case bare => exact isGiven_withoutQuotes hc h (hbare rfl)
  case parenthesized =>
    have hne : c ≠ 'N' := by
      rintro rfl
      exact absurd hc (by decide)
    refine isGiven_canonicalFolded hc ?_
    simpa using mem_dropNationalMark (Text.mem_withoutParensChars h hc.1 hc.2.1 hc.2.2.1) hne

theorem isSome_reported? {d : DefaultReading} {s : String} :
    (d.reported? (some s)).isSome = true ↔ IsGiven (d.normalize s) := by
  simp only [reported?, Option.map_some, IsGiven]
  rw [Option.isSome_filter]
  simp

/-! ## Rendered literals -/

/-- A literal is read as a default unless quotes are not reported. -/
theorem isGiven_of_quote {d : DefaultReading} {lit : String} (hd : d ≠ .bare)
    (h : '\'' ∈ lit.toList) : IsGiven (d.normalize lit) :=
  isGiven_normalize (by decide) h (fun _ => .inl rfl) fun hb => absurd hb hd

/-- A literal that is a number or a keyword is read as a default by every reading. -/
theorem isGiven_of_colonless {d : DefaultReading} {lit : String} {c : Char} (hc : IsMark c)
    (h : c ∈ lit.toList) (hq : c ≠ '\'') (hcolon : ':' ∉ lit.toList) :
    IsGiven (d.normalize lit) :=
  isGiven_normalize hc h (fun _ => .inr hcolon) fun _ => hq

/-- A quoted literal with a mark between its quotes is read as a default by every reading. -/
theorem isGiven_of_quote_of_mark {d : DefaultReading} {lit : String} {c : Char} (hc : IsMark c)
    (h : c ∈ lit.toList) (hq : c ≠ '\'') (hquote : '\'' ∈ lit.toList) :
    IsGiven (d.normalize lit) := by
  by_cases hd : d = .bare
  · exact isGiven_normalize hc h (fun he => absurd (hd ▸ he) (by decide)) fun _ => hq
  · exact isGiven_of_quote hd hquote

/-- A quoted string is read as the string where quotes are not reported. -/
theorem normalize_bare_literal (s : String) : bare.normalize (Text.literal s) = s := by
  simp [normalize, withoutQuotes, Text.trim_literal, Text.unquote_literal]

theorem isGiven_normalize_literal {d : DefaultReading} {raw : String}
    (h : Text.isAllBlank raw = false) :
    IsGiven (d.normalize (Text.literal raw)) ↔
      ¬(d = .bare ∧ Text.sameName raw "NULL" = true) := by
  by_cases hd : d = .bare
  · subst hd
    have hne : raw.isEmpty = false := by
      rw [Bool.eq_false_iff]
      intro he
      rw [String.isEmpty_iff.1 he] at h
      exact absurd h (by decide)
    simp [normalize_bare_literal, IsGiven, hne]
  · simp only [hd, false_and, not_false_eq_true, iff_true]
    exact isGiven_of_quote hd (by simp [Text.toList_literal])

/-! ### Numbers -/

/-- A digit of some script, and no colon. -/
def IsNumeral (cs : List Char) : Prop :=
  (∃ c ∈ cs, Text.isDecimalDigit c = true) ∧ ':' ∉ cs

theorem isGiven_of_isNumeral {d : DefaultReading} {lit : String} (h : IsNumeral lit.toList) :
    IsGiven (d.normalize lit) := by
  obtain ⟨⟨c, hc, hd⟩, hcolon⟩ := h
  refine isGiven_of_colonless (Text.isMark_of_isDecimalDigit hd) hc ?_ hcolon
  rintro rfl
  exact absurd hd (by decide)

theorem isNumeral_of_isNumber {cs : List Char} (h : Numeral.IsNumber cs) : IsNumeral cs := by
  refine ⟨h.exists_digit, ?_⟩
  intro hcolon
  rcases h.mem_cases hcolon with hdigit | hmark
  · exact absurd hdigit (by decide)
  · exact absurd hmark (by decide)

theorem isGiven_of_isNumber {d : DefaultReading} {lit : String}
    (h : Numeral.IsNumber lit.toList) : IsGiven (d.normalize lit) :=
  isGiven_of_isNumeral (isNumeral_of_isNumber h)

/-! ### Days and times -/

theorem isGiven_dateDefault {d : DefaultReading} {style : CalendarLiteral} {raw lit : String}
    (h : ColumnRule.dateDefault style raw = .ok lit) : IsGiven (d.normalize lit) := by
  unfold ColumnRule.dateDefault at h
  simp only at h
  split at h
  · cases h
    exact isGiven_of_colonless (c := '_') (by decide) (by decide) (by decide) (by decide)
  · split at h
    · cases h
    · next day _ =>
      cases h
      have hdash : '-' ∈ day.text.toList := by simp [Date.text, Date.textChars]
      cases style with
      | quoted =>
        exact isGiven_of_quote_of_mark (c := '-') (by decide) (by simp [hdash]) (by decide)
          (by simp)
      | function =>
        exact isGiven_of_quote_of_mark (c := '-') (by decide) (by simp [hdash]) (by decide)
          (by simp)

theorem isGiven_timestampDefault {d : DefaultReading} {type : ColumnType}
    {style : CalendarLiteral} {raw lit : String}
    (h : ColumnRule.timestampDefault type style raw = .ok lit) : IsGiven (d.normalize lit) := by
  unfold ColumnRule.timestampDefault at h
  simp only at h
  split at h
  · cases h
    exact isGiven_of_colonless (c := '_') (by decide) (by decide) (by decide) (by decide)
  · split at h
    · cases h
    · next time _ =>
      cases h
      have hdash : '-' ∈ time.text.toList := by
        simp [Timestamp.text, Timestamp.textChars, Date.textChars]
      cases style with
      | quoted =>
        exact isGiven_of_quote_of_mark (c := '-') (by decide) (by simp [hdash]) (by decide)
          (by simp)
      | function =>
        exact isGiven_of_quote_of_mark (c := '-') (by decide) (by simp [hdash]) (by decide)
          (by simp)

/-! ### Truth values -/

theorem isGiven_booleanLiteral (d : DefaultReading) (style : BooleanStorage) (b : Bool) :
    IsGiven (d.normalize (ColumnRule.booleanLiteral style b)) := by
  cases style <;> cases b
  · exact isGiven_of_colonless (c := 'F') (by decide) (by decide) (by decide) (by decide)
  · exact isGiven_of_colonless (c := 'T') (by decide) (by decide) (by decide) (by decide)
  · -- `N` is a letter of NULL, but not all of it
    have hlit : ColumnRule.booleanLiteral .yesNo false = Text.literal "N" := by decide
    rw [hlit, isGiven_normalize_literal (by decide)]
    exact fun h => absurd h.2 (by decide)
  · exact isGiven_of_quote_of_mark (c := 'Y') (by decide) (by decide) (by decide) (by decide)
  · exact isGiven_of_colonless (c := '0') (by decide) (by decide) (by decide) (by decide)
  · exact isGiven_of_colonless (c := '1') (by decide) (by decide) (by decide) (by decide)

/-! ## Rendered defaults -/

/-- Rules whose defaults are the configured text in quotes, whatever it is. -/
def quotesAnyText : ColumnRule → Bool
  | .clob .. | .string .. => true
  | _ => false

/-- What is reported matches a configured default if it is seen as one and has the spelling of the
literal. -/
theorem isMatch_iff {d : DefaultReading} {p : ColumnRule} {raw lit reported : String}
    (hraw : Text.isAllBlank raw = false) (hlit : p.defaultLiteral raw = .ok lit) :
    d.isMatch (some reported) (some raw) p = true ↔
      IsGiven (d.normalize reported) ∧ d.normalize reported = d.normalize lit := by
  have hfilter : (some raw).filter (fun c => !Text.isAllBlank c) = some raw := by simp [hraw]
  rw [← isSome_reported?, isMatch, hfilter]
  cases hr : d.reported? (some reported) with
  | none => simp
  | some n =>
    have hn : d.normalize reported = n := by
      obtain ⟨x, hx, hxn⟩ := Option.map_eq_some_iff.1 (Option.filter_eq_some_iff.1 hr).1
      cases hx
      exact hxn
    simpa [hlit, hn] using eq_comm

theorem isMatch_rendered {d : DefaultReading} {p : ColumnRule} {raw lit : String}
    (hraw : Text.isAllBlank raw = false) (hlit : p.defaultLiteral raw = .ok lit) :
    d.isMatch (some lit) (some raw) p = true ↔ IsGiven (d.normalize lit) :=
  (isMatch_iff hraw hlit).trans (and_iff_left rfl)

theorem isEmpty_eq_false_of_not_isAllBlank {raw : String} (h : Text.isAllBlank raw = false) :
    raw.isEmpty = false := by
  rw [Bool.eq_false_iff]
  intro he
  rw [String.isEmpty_iff.1 he] at h
  exact absurd h (by decide)

theorem isGiven_characterDefault {d : DefaultReading} {raw lit : String}
    (hraw : Text.isAllBlank raw = false) (h : ColumnRule.characterDefault raw = .ok lit) :
    IsGiven (d.normalize lit) := by
  unfold ColumnRule.characterDefault at h
  split at h
  · next hlen =>
    cases h
    refine (isGiven_normalize_literal hraw).2 fun hn => ?_
    -- NULL has four characters
    have := Text.length_eq_of_sameName hn.2
    rw [hlen] at this
    exact absurd this (by decide)
  · cases h

theorem isGiven_integerDefault {d : DefaultReading} {type : ColumnType} {raw lit : String}
    (h : ColumnRule.integerDefault type raw = .ok lit) : IsGiven (d.normalize lit) := by
  simp only [ColumnRule.integerDefault] at h
  split at h
  · cases h
    exact isGiven_of_isNumber (Numeral.isNumber_int _)
  · cases h

theorem isGiven_floatingDefault {d : DefaultReading} {type : ColumnType} {raw lit : String}
    (h : ColumnRule.floatingDefault type raw = .ok lit) : IsGiven (d.normalize lit) := by
  simp only [ColumnRule.floatingDefault] at h
  split at h
  · split at h
    · next hfin =>
      cases h
      exact isGiven_of_isNumber (Numeral.isNumber_double hfin)
    · cases h
  · cases h

theorem isGiven_decimalDefault {d : DefaultReading} {raw lit : String}
    (h : ColumnRule.decimalDefault raw = .ok lit) : IsGiven (d.normalize lit) := by
  simp only [ColumnRule.decimalDefault] at h
  split at h
  · next hdec =>
    cases h
    exact isGiven_of_isNumber (Numeral.isNumber_of_isPlainDecimal hdec)
  · cases h

/-- Literals that are no text of their own are read as defaults by every reading. -/
theorem isGiven_rendered {d : DefaultReading} {p : ColumnRule} {raw lit : String}
    (hraw : Text.isAllBlank raw = false) (hp : quotesAnyText p = false)
    (hlit : p.defaultLiteral raw = .ok lit) : IsGiven (d.normalize lit) := by
  cases p <;> simp only [ColumnRule.defaultLiteral] at hlit
  case character => exact isGiven_characterDefault hraw hlit
  case boolean style =>
    split at hlit
    · cases hlit
      exact isGiven_booleanLiteral _ _ _
    · cases hlit
  case integer => exact isGiven_integerDefault hlit
  case floating => exact isGiven_floatingDefault hlit
  case decimal => exact isGiven_decimalDefault hlit
  case date => exact isGiven_dateDefault hlit
  case timestamp => exact isGiven_timestampDefault hlit
  case clob => cases hp
  case blob =>
    rw [isEmpty_eq_false_of_not_isAllBlank hraw] at hlit
    cases hlit
  case string => cases hp

theorem defaultLiteral_of_quotesAnyText {p : ColumnRule} {raw : String}
    (hraw : Text.isAllBlank raw = false) (hp : quotesAnyText p = true) :
    p.defaultLiteral raw = .ok (Text.literal raw) := by
  cases p <;> try cases hp
  case clob => simp [ColumnRule.defaultLiteral, isEmpty_eq_false_of_not_isAllBlank hraw]
  case string => rfl

/-- What a rendered default has to be for a reading to see it. -/
theorem isGiven_rendered_iff {d : DefaultReading} {p : ColumnRule} {raw lit : String}
    (hraw : Text.isAllBlank raw = false) (hlit : p.defaultLiteral raw = .ok lit) :
    IsGiven (d.normalize lit) ↔
      ¬(d = .bare ∧ quotesAnyText p = true ∧ Text.sameName raw "NULL" = true) := by
  cases hp : quotesAnyText p with
  | false =>
    exact iff_of_true (isGiven_rendered hraw hp hlit) fun h => absurd h.2.1 (by decide)
  | true =>
    rw [defaultLiteral_of_quotesAnyText hraw hp] at hlit
    cases hlit
    simpa using isGiven_normalize_literal (d := d) hraw

/-- A rendered default matches what it was rendered from, but for the text NULL where quotes are not
reported. -/
theorem isMatch_rendered_iff {d : DefaultReading} {p : ColumnRule} {raw lit : String}
    (hraw : Text.isAllBlank raw = false) (hlit : p.defaultLiteral raw = .ok lit) :
    d.isMatch (some lit) (some raw) p = true ↔
      ¬(d = .bare ∧ quotesAnyText p = true ∧ Text.sameName raw "NULL" = true) :=
  (isMatch_rendered hraw hlit).trans (isGiven_rendered_iff hraw hlit)

end DefaultReading

/-! ## The dialects -/

namespace Dialect

open DefaultReading (quotesAnyText)

theorem quotesAnyText_columnRule_builtin (db : Database) (type : ColumnType) :
    quotesAnyText ((builtin db).columnRule type) = true ↔
      type = .string ∨ type = .enumConstant ∨ type = .clob := by
  cases db <;> cases type <;> decide

theorem defaults_builtin_eq_bare_iff (db : Database) :
    (builtin db).defaults = .bare ↔ db = .mysql := by
  cases db <;> decide

/-- In every dialect and for every type, a rendered default reads back as unchanged, but for the
text NULL in the columns of text of MySQL. -/
theorem builtin_isMatch_rendered_iff {db : Database} {type : ColumnType} {raw lit : String}
    (hraw : Text.isAllBlank raw = false)
    (hlit : ((builtin db).columnRule type).defaultLiteral raw = .ok lit) :
    (builtin db).defaults.isMatch (some lit) (some raw) ((builtin db).columnRule type) = true ↔
      ¬(db = .mysql ∧ (type = .string ∨ type = .enumConstant ∨ type = .clob) ∧
        Text.sameName raw "NULL" = true) := by
  rw [DefaultReading.isMatch_rendered_iff hraw hlit, defaults_builtin_eq_bare_iff,
    quotesAnyText_columnRule_builtin]

theorem postgresql_isMatch_rendered_null :
    Text.isAllBlank "null" = false ∧
      ((builtin .postgresql).columnRule .string).defaultLiteral "null" = .ok "'null'" ∧
      (builtin .postgresql).defaults.isMatch (some "'null'") (some "null")
        ((builtin .postgresql).columnRule .string) = true :=
  ⟨by decide, by decide, (builtin_isMatch_rendered_iff (by decide) (by decide)).2 (by decide)⟩

/-- MySQL reports the string NULL without its quotes, which reads as no default. -/
theorem mysql_not_isMatch_rendered_null :
    Text.isAllBlank "NULL" = false ∧
      ((builtin .mysql).columnRule .string).defaultLiteral "NULL" = .ok "'NULL'" ∧
      (builtin .mysql).defaults.isMatch (some "'NULL'") (some "NULL")
        ((builtin .mysql).columnRule .string) = false := by
  decide

end Dialect

/-! ## Literals are not blank -/

/-- What a reading sees as a default is not blank. -/
theorem DefaultReading.isAllBlank_of_isGiven {literal : String}
    (h : Text.IsGiven (DefaultReading.quoted.normalize literal)) :
    Text.isAllBlank literal = false := by
  rw [Bool.eq_false_iff]
  intro hblank
  have htrim : Text.trim literal = "" := by
    unfold Text.trim Text.trimChars
    rw [List.dropWhile_eq_nil_iff.2 (List.all_eq_true.1 hblank)]
    rfl
  have hnone : ¬Text.IsGiven (canonicalFolded "") := by decide
  refine hnone ?_
  rw [← htrim]
  exact h

/-- What the type has in place of an empty large object. -/
def ColumnRule.emptyLiteral? : ColumnRule → Option String
  | .clob _ _ _ literal | .blob _ _ _ literal => some literal
  | _ => none

theorem ColumnRule.isAllBlank_defaultLiteral {p : ColumnRule} {raw literal : String}
    (hempty : ∀ l ∈ p.emptyLiteral?, Text.isAllBlank l = false)
    (h : p.defaultLiteral raw = .ok literal) : Text.isAllBlank literal = false := by
  cases p <;> simp only [defaultLiteral] at h
  case character =>
    unfold characterDefault at h
    split at h
    · cases h
      exact Text.isAllBlank_literal raw
    · cases h
  case boolean =>
    split at h
    · cases h
      exact DefaultReading.isAllBlank_of_isGiven (DefaultReading.isGiven_booleanLiteral _ _ _)
    · cases h
  case integer =>
    exact DefaultReading.isAllBlank_of_isGiven (DefaultReading.isGiven_integerDefault h)
  case floating =>
    exact DefaultReading.isAllBlank_of_isGiven (DefaultReading.isGiven_floatingDefault h)
  case decimal =>
    exact DefaultReading.isAllBlank_of_isGiven (DefaultReading.isGiven_decimalDefault h)
  case date => exact DefaultReading.isAllBlank_of_isGiven (DefaultReading.isGiven_dateDefault h)
  case timestamp =>
    exact DefaultReading.isAllBlank_of_isGiven (DefaultReading.isGiven_timestampDefault h)
  case clob =>
    cases h
    split
    · exact hempty _ rfl
    · exact Text.isAllBlank_literal raw
  case blob =>
    split at h
    · cases h
      exact hempty _ rfl
    · cases h
  case string =>
    cases h
    exact Text.isAllBlank_literal raw

/-- No rendered default is blank, so that a column with one is seen to have it. -/
theorem Dialect.isAllBlank_rendered_builtin {db : Database} {type : ColumnType}
    {raw literal : String}
    (h : ((Dialect.builtin db).columnRule type).defaultLiteral raw = .ok literal) :
    Text.isAllBlank literal = false := by
  refine ColumnRule.isAllBlank_defaultLiteral ?_ h
  cases db <;> cases type <;> decide

end SqlDialects
