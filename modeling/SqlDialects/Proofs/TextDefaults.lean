import SqlDialects.Proofs.DefaultReading

/-!
# Which text defaults are told apart

A column of text has its configured default as a literal, and its catalog reports that literal as it
stands, with a cast behind it, in parentheses or without its quotes. This module says for any two
texts whether what is reported for the one reads as the other.

Between quotes nothing is folded, so every reading but one gives back the literal as it stood, or its
text. The reading that drops casts also drops what looks like one between the quotes, and takes the
quotes off a number that had one.

Results:
1. `DefaultReading.normalize_literal_eq_iff`: which literals have one spelling.
2. `Dialect.builtin_isMatch_changed_iff`: a changed default is noticed but for casts in PostgreSQL.
3. `Dialect.postgresql_isMatch_cast_iff`: a literal with a cast reads as its text but for numbers.
4. `Dialect.mysql_isMatch_bare_iff`: which texts without quotes read as themselves.
-/

namespace SqlDialects

/-! ## Literals stay as they are -/

namespace Text

theorem canonicalFrom_double (cs rest : List Char) :
    canonicalFrom true (double '\'' cs ++ rest) = double '\'' cs ++ canonicalFrom true rest := by
  induction cs with
  | nil => rfl
  | cons c cs ih =>
    by_cases hc : c = '\''
    · simp [double, canonicalFrom, hc, ih]
    · simp [double, canonicalFrom, hc, ih]

/-- Nothing is folded between quotes. -/
theorem canonical_literal (s : String) : canonical (literal s) = literal s := by
  rw [canonical, ← String.toList_inj, String.toList_ofList, toList_literal, canonicalFrom,
    if_pos rfl, Bool.not_false, canonicalFrom_double]
  rfl

/-- A text that starts with no parenthesis has none around it. -/
theorem withoutParensChars_eq_trimChars {cs : List Char} (h : (trimChars cs).head? ≠ some '(') :
    withoutParensChars cs = trimChars cs := by
  have hnone : innerOfParens (trimChars cs) = none := by
    unfold innerOfParens
    split
    · next rest heq => simp [heq] at h
    · rfl
  rw [withoutParensChars]
  split
  · next inner hinner =>
    rw [hnone] at hinner
    cases hinner
  · rfl

theorem withoutParensChars_literal (s : String) :
    withoutParensChars (literal s).toList = (literal s).toList := by
  rw [withoutParensChars_eq_trimChars, trimChars_literal]
  rw [trimChars_literal, toList_literal]
  simp

/-- A cast behind a literal ends in no blank. -/
theorem trimChars_literal_append {cast : String} (hcast : Cast.IsCast cast) (s : String) :
    trimChars ((literal s).toList ++ cast.toList) = (literal s).toList ++ cast.toList := by
  have hlast := hcast.trimmed _ (List.getLast?_eq_getLast_of_ne_nil hcast.ne_nil)
  rw [toList_literal, List.cons_append, ← List.dropLast_append_getLast hcast.ne_nil,
    ← List.append_assoc]
  exact trimChars_eq_self (by decide) hlast

end Text

namespace DefaultReading

open Text (IsGiven)

/-! ## Spellings of literals -/

/-- No keyword has a quote. -/
theorem canonicalDefault_literal (s : String) :
    canonicalDefault (Text.literal s) = Text.literal s := by
  have hquotes : ∀ entry ∈ defaultSynonyms, '\'' ∉ entry.1.toList.map Char.toLower := by decide
  have hnone : defaultSynonyms.find? (fun entry => Text.sameName (Text.literal s) entry.1) =
      none := by
    rw [List.find?_eq_none]
    intro entry hentry hsame
    have hquote : '\'' ∈ (Text.literal s).toList := by simp [Text.toList_literal]
    exact hquotes entry hentry (Text.mem_of_sameName hsame hquote)
  rw [canonicalDefault, hnone]

theorem canonicalFolded_literal (s : String) :
    canonicalFolded (Text.literal s) = Text.literal s := by
  rw [canonicalFolded, Text.canonical_literal, canonicalDefault_literal]

theorem normalize_quoted_literal (s : String) :
    quoted.normalize (Text.literal s) = Text.literal s := by
  rw [normalize, Text.trim_literal, canonicalFolded_literal]

theorem normalize_parenthesized_literal (s : String) :
    parenthesized.normalize (Text.literal s) = Text.literal s := by
  have hmark : dropNationalMark (Text.literal s).toList = (Text.literal s).toList := by
    rw [Text.toList_literal]
    rfl
  rw [normalize, Text.withoutParensChars_literal, hmark, String.ofList_toList,
    canonicalFolded_literal]

/-- What is read of a text that is a literal without its casts: the literal, but if it had casts and
is a number, its text. -/
theorem withoutCasts_eq {text left : String}
    (htrimmed : Text.trimChars text.toList = text.toList)
    (hleft : Cast.removeAll text.toList = (Text.literal left).toList) :
    withoutCasts text =
      if text ≠ Text.literal left ∧ isSignedNumber left.toList = true then left
      else Text.literal left := by
  have hlength : (Text.literal left).toList.length = text.toList.length ↔
      text = Text.literal left := by
    refine ⟨fun h => ?_, fun h => by rw [h]⟩
    have hsublist : (Text.literal left).toList.Sublist text.toList :=
      hleft ▸ Cast.removeAll_sublist text.toList
    exact (String.toList_inj.1 (hsublist.eq_of_length h)).symm
  have hunquoted : Text.unquoteChars (Text.literal left).toList = some left.toList := by
    have h := Text.unquote_literal left
    simpa [Text.unquote?, Option.map_eq_some_iff, String.ext_iff] using h
  simp only [withoutCasts, htrimmed, hleft, Text.withoutParensChars_literal, hlength, hunquoted,
    String.ofList_toList, canonicalFolded_literal]
  by_cases hcasts : text = Text.literal left
  · simp only [hcasts, if_pos, ne_eq, not_true_eq_false, false_and, if_false]
  · cases hnumber : isSignedNumber left.toList with
    | true => simp [hcasts, Option.filter, hnumber]
    | false => simp [hcasts, Option.filter, hnumber]

theorem normalize_castSuffix_literal (s : String) :
    castSuffix.normalize (Text.literal s) =
      if s ≠ Cast.erased s ∧ isSignedNumber (Cast.erased s).toList = true then Cast.erased s
      else Text.literal (Cast.erased s) := by
  rw [normalize, withoutCasts_eq (Text.trimChars_literal s) (Cast.removeAll_literal s)]
  simp only [ne_eq, Text.literal_inj]

theorem normalize_castSuffix_cast {cast : String} (hcast : Cast.IsCast cast) (s : String) :
    castSuffix.normalize (Text.literal s ++ cast) =
      if isSignedNumber (Cast.erased s).toList = true then Cast.erased s
      else Text.literal (Cast.erased s) := by
  have htrimmed : Text.trimChars (Text.literal s ++ cast).toList =
      (Text.literal s ++ cast).toList := by
    rw [String.toList_append, Text.trimChars_literal_append hcast]
  have hleft : Cast.removeAll (Text.literal s ++ cast).toList =
      (Text.literal (Cast.erased s)).toList := by
    rw [String.toList_append, Cast.removeAll_literal_append, hcast.removeAll_eq_nil,
      List.append_nil]
  have hcasts : Text.literal s ++ cast ≠ Text.literal (Cast.erased s) := by
    -- What is left is no longer than the literal, and the cast comes on top of that.
    intro h
    have hshorter := (Cast.removeAll_sublist (Text.literal s).toList).length_le
    rw [Cast.removeAll_literal, ← h, String.toList_append, List.length_append] at hshorter
    have := List.length_pos_of_ne_nil hcast.ne_nil
    omega
  rw [normalize, withoutCasts_eq htrimmed hleft]
  simp only [hcasts, ne_eq, not_false_eq_true, true_and]

/-- Texts that differ in what looks like casts at most; where a number is left of them, either both
have such casts or neither has. -/
structure SameButCasts (a b : String) : Prop where
  erased : Cast.erased a = Cast.erased b
  number : isSignedNumber (Cast.erased a).toList = true →
    (a = Cast.erased a ↔ b = Cast.erased b)

theorem isPlainDecimal_of_isSignedNumber {cs : List Char} (h : isSignedNumber cs = true) :
    isPlainDecimal cs = true := by
  simp only [isSignedNumber, Bool.and_eq_true] at h
  obtain ⟨hwhole, hrest⟩ := h
  unfold isPlainDecimal
  split at hrest
  · next heq => simpa only [heq] using hwhole
  · next places heq =>
    rw [Bool.and_eq_true] at hrest
    simp only [heq, hrest.2, hwhole, Bool.true_or, Bool.and_self]
  · cases hrest

/-- A number has neither quotes nor colons. -/
theorem notMem_of_isSignedNumber {c : Char} (hdigit : Text.isDecimalDigit c = false)
    (hmark : c ∉ ['.', '+', '-']) {cs : List Char} (h : isSignedNumber cs = true) : c ∉ cs := by
  intro hc
  rcases (Numeral.isNumber_of_isPlainDecimal (isPlainDecimal_of_isSignedNumber h)).mem_cases hc with
    hd | hm
  · rw [hdigit] at hd
    cases hd
  · exact hmark hm

theorem ne_literal_of_isSignedNumber {s other : String} (h : isSignedNumber s.toList = true) :
    s ≠ Text.literal other := by
  rintro rfl
  have hquote : '\'' ∈ (Text.literal other).toList := by simp [Text.toList_literal]
  exact notMem_of_isSignedNumber (by decide) (by decide) h hquote

theorem normalize_castSuffix_literal_eq_iff {a b : String} :
    castSuffix.normalize (Text.literal a) = castSuffix.normalize (Text.literal b) ↔
      SameButCasts a b := by
  rw [normalize_castSuffix_literal, normalize_castSuffix_literal]
  constructor
  · intro h
    split at h
    · next ha =>
      split at h
      · next hb => exact ⟨h, fun _ => iff_of_false ha.1 hb.1⟩
      · exact absurd h (ne_literal_of_isSignedNumber ha.2)
    · next ha =>
      split at h
      · next hb => exact absurd h.symm (ne_literal_of_isSignedNumber hb.2)
      · next hb =>
        have herased := Text.literal_inj.1 h
        refine ⟨herased, fun hnumber => iff_of_true ?_ ?_⟩
        · exact not_not.1 fun hcasts => ha ⟨hcasts, hnumber⟩
        · exact not_not.1 fun hcasts => hb ⟨hcasts, herased ▸ hnumber⟩
  · intro h
    by_cases hnumber : isSignedNumber (Cast.erased a).toList = true
    · have hboth := h.number hnumber
      rw [← h.erased] at hboth ⊢
      simp only [ne_eq, hnumber, and_true, hboth]
    · rw [← h.erased, if_neg fun hn => hnumber hn.2, if_neg fun hn => hnumber hn.2]

theorem SameButCasts.refl (a : String) : SameButCasts a a := ⟨rfl, fun _ => Iff.rfl⟩

/-- Literals are told apart by every reading but the one that drops casts. -/
theorem normalize_literal_eq_iff {d : DefaultReading} {a b : String} :
    d.normalize (Text.literal a) = d.normalize (Text.literal b) ↔
      a = b ∨ d = .castSuffix ∧ SameButCasts a b := by
  cases d with
  | quoted => simp [normalize_quoted_literal, Text.literal_inj]
  | parenthesized => simp [normalize_parenthesized_literal, Text.literal_inj]
  | bare => simp [normalize_bare_literal]
  | castSuffix =>
    rw [normalize_castSuffix_literal_eq_iff]
    refine ⟨fun h => .inr ⟨rfl, h⟩, ?_⟩
    rintro (rfl | ⟨-, h⟩)
    · exact SameButCasts.refl a
    · exact h

/-! ## What is reported for a text -/

section Reported

variable {p : ColumnRule} {raw : String}

/-- The literal of one text is taken for another text exactly if casts are dropped and are all that
tells the two apart. -/
theorem isMatch_changed_iff {d : DefaultReading} (hp : quotesAnyText p = true) {other : String}
    (hother : Text.isAllBlank other = false) (hraw : Text.isAllBlank raw = false)
    (hne : other ≠ raw) :
    d.isMatch (some (Text.literal other)) (some raw) p = true ↔
      d = .castSuffix ∧ SameButCasts other raw := by
  rw [isMatch_iff hraw (defaultLiteral_of_quotesAnyText hraw hp), isGiven_normalize_literal hother,
    normalize_literal_eq_iff, or_iff_right hne]
  refine ⟨fun h => h.2, fun h => ⟨?_, h⟩⟩
  rw [h.1]
  exact fun hbare => absurd hbare.1 (by decide)

/-- With a cast behind it, a literal is taken for its text unless that is a number. -/
theorem isMatch_cast_iff (hp : quotesAnyText p = true) (hraw : Text.isAllBlank raw = false)
    {cast : String} (hcast : Cast.IsCast cast) :
    castSuffix.isMatch (some (Text.literal raw ++ cast)) (some raw) p = true ↔
      isSignedNumber raw.toList = false := by
  have hgiven : IsGiven (castSuffix.normalize (Text.literal raw ++ cast)) :=
    isGiven_of_quote (by decide) (by simp [Text.toList_literal])
  rw [isMatch_iff hraw (defaultLiteral_of_quotesAnyText hraw hp), and_iff_right hgiven,
    normalize_castSuffix_literal, normalize_castSuffix_cast hcast]
  cases hnumber : isSignedNumber raw.toList with
  | true =>
    have hcolon : ':' ∉ raw.toList := notMem_of_isSignedNumber (by decide) (by decide) hnumber
    simp [Cast.erased_eq_self hcolon, hnumber, ne_literal_of_isSignedNumber hnumber]
  | false =>
    by_cases hcasts : raw = Cast.erased raw
    · simp [← hcasts, hnumber]
    · simp [hcasts]

/-! ### Without quotes -/

/-- Texts that read as themselves where quotes are not reported: they stand alone, are not quoted,
spell no truth value and no NULL, and a current day or time only in the one way that stands for
all. -/
structure IsPlain (s : String) : Prop where
  trimmed : Text.trim s = s
  unquoted : Text.unquote? s = none
  noSynonym : ∀ entry ∈ defaultSynonyms, Text.sameName s entry.1 = false
  notTrue : Text.sameName s "TRUE" = false
  notFalse : Text.sameName s "FALSE" = false
  notNull : Text.sameName s "NULL" = false
  raised : Text.sameName s "CURRENT_TIMESTAMP" = true ∨ Text.sameName s "CURRENT_DATE" = true →
    Text.asciiUpper s = s

theorem IsPlain.withoutQuotes_eq {s : String} (h : IsPlain s) : withoutQuotes s = s := by
  have hcanonical : canonicalDefault s = s := by
    rcases canonicalDefault_cases s with ⟨entry, hentry, hsame, -⟩ | ⟨-, hself⟩
    · rw [h.noSynonym entry hentry] at hsame
      cases hsame
    · exact hself
  simp only [withoutQuotes, h.trimmed, h.unquoted, hcanonical, h.notTrue, h.notFalse,
    Bool.false_eq_true, if_false]
  split
  · next hcurrent => exact h.raised (Bool.or_eq_true_iff.1 hcurrent)
  · rfl

/-- Nothing else reads as itself, NULL apart. -/
theorem isPlain_of_withoutQuotes_eq {s : String} (h : withoutQuotes s = s)
    (hnull : Text.sameName s "NULL" = false) : IsPlain s := by
  rcases withoutQuotes_cases s with
    ⟨inner, hinner, hself⟩ | hfixed | ⟨hself, hunquoted, hnone, htrue, hfalse, hcurrent⟩
  · -- The inside of quotes is shorter than what has them.
    have hshorter := Text.length_lt_of_unquote? hinner
    have htrim := Text.length_trimChars_le s.toList
    rw [Text.trim, String.toList_ofList, ← hself, h] at hshorter
    omega
  · rw [h] at hfixed
    simp only [List.mem_cons, List.not_mem_nil, or_false] at hfixed
    rcases hfixed with rfl | rfl | rfl | rfl <;>
      exact ⟨by decide, by decide, by decide, by decide, by decide, by decide, by decide⟩
  · have htrimmed : Text.trim s = s := hself.symm.trans h
    rw [htrimmed] at hunquoted hnone htrue hfalse hcurrent
    exact ⟨htrimmed, hunquoted, hnone, htrue, hfalse, hnull, fun hsame => absurd hsame hcurrent⟩

/-- A text without quotes is taken for the configured text exactly if it is plain. -/
theorem isMatch_bare_iff (hp : quotesAnyText p = true) (hraw : Text.isAllBlank raw = false) :
    bare.isMatch (some raw) (some raw) p = true ↔ IsPlain raw := by
  rw [isMatch_iff hraw (defaultLiteral_of_quotesAnyText hraw hp), normalize_bare_literal]
  constructor
  · rintro ⟨hgiven, hself⟩
    rw [hself] at hgiven
    exact isPlain_of_withoutQuotes_eq hself hgiven.2
  · intro h
    have hself : bare.normalize raw = raw := h.withoutQuotes_eq
    rw [hself]
    exact ⟨⟨isEmpty_eq_false_of_not_isAllBlank hraw, h.notNull⟩, rfl⟩

end Reported

end DefaultReading

/-! ## The dialects -/

namespace Dialect

open DefaultReading (quotesAnyText SameButCasts IsPlain)

theorem storedType_string (d : Dialect) (length : Nat) :
    d.storedType .string length = .string ∨ d.storedType .string length = .clob := by
  unfold storedType
  split
  · split
    · exact .inr rfl
    · exact .inl rfl
  · exact .inl rfl

/-- Strings and codes quote any text, and so do the large texts that strings of some length are. -/
theorem quotesAnyText_columnRuleFor_builtin (db : Database) {type : ColumnType}
    (htype : type = .string ∨ type = .enumConstant) (length : Nat) :
    quotesAnyText ((builtin db).columnRuleFor type length) = true := by
  rw [columnRuleFor, quotesAnyText_columnRule_builtin]
  rcases htype with rfl | rfl
  · rcases (builtin db).storedType_string length with h | h
    · exact .inl h
    · exact .inr (.inr h)
  · exact .inr (.inl rfl)

theorem defaults_builtin_eq_castSuffix_iff (db : Database) :
    (builtin db).defaults = .castSuffix ↔ db = .postgresql := by
  cases db <;> decide

/-- In every dialect the literal of one text is told from another text, but in PostgreSQL where what
looks like casts is all that tells the two apart. -/
theorem builtin_isMatch_changed_iff (db : Database) (length : Nat) {old new : String}
    (hold : Text.isAllBlank old = false) (hnew : Text.isAllBlank new = false) (hne : old ≠ new) :
    ∃ literal, ((builtin db).columnRuleFor .string length).defaultLiteral old = .ok literal ∧
      ((builtin db).defaults.isMatch (some literal) (some new)
          ((builtin db).columnRuleFor .string length) = true ↔
        db = .postgresql ∧ SameButCasts old new) := by
  have hp := quotesAnyText_columnRuleFor_builtin db (.inl rfl) length
  refine ⟨Text.literal old, DefaultReading.defaultLiteral_of_quotesAnyText hold hp, ?_⟩
  rw [DefaultReading.isMatch_changed_iff hp hold hnew hne, defaults_builtin_eq_castSuffix_iff]

/-- A number with a cast is a text of its own, and told from the number. -/
theorem postgresql_number_told_apart :
    Text.isAllBlank "5::int" = false ∧ Text.isAllBlank "5" = false ∧ "5::int" ≠ "5" ∧
      ∃ literal,
        ((builtin .postgresql).columnRuleFor .string 8).defaultLiteral "5::int" = .ok literal ∧
          (builtin .postgresql).defaults.isMatch (some literal) (some "5")
            ((builtin .postgresql).columnRuleFor .string 8) = false := by
  have hold : Text.isAllBlank "5::int" = false := by decide
  have hnew : Text.isAllBlank "5" = false := by decide
  have hne : "5::int" ≠ "5" := by decide
  obtain ⟨literal, hliteral, hmatch⟩ := builtin_isMatch_changed_iff .postgresql 8 hold hnew hne
  refine ⟨hold, hnew, hne, literal, hliteral, ?_⟩
  rw [Bool.eq_false_iff, ne_eq, hmatch]
  rintro ⟨-, herased, hnumber⟩
  have hcast : Cast.erased "5::int" = "5" := by cbv
  have hself : Cast.erased "5" = "5" := Cast.erased_eq_self (by decide)
  rw [hcast, hself] at hnumber
  exact absurd ((hnumber (by decide)).2 rfl) (by decide)

/-- What looks like a cast is dropped between quotes as well, so that this change goes unnoticed. -/
theorem postgresql_isMatch_changed :
    Text.isAllBlank "a::b" = false ∧ Text.isAllBlank "a" = false ∧ "a::b" ≠ "a" ∧
      ((builtin .postgresql).columnRuleFor .string 8).defaultLiteral "a::b" = .ok "'a::b'" ∧
      (builtin .postgresql).defaults.isMatch (some "'a::b'") (some "a")
        ((builtin .postgresql).columnRuleFor .string 8) = true := by
  have hcast : Cast.erased "a::b" = "a" := by cbv
  have hself : Cast.erased "a" = "a" := Cast.erased_eq_self (by decide)
  have hsame : SameButCasts "a::b" "a" := by
    refine ⟨hcast.trans hself.symm, fun hnumber => ?_⟩
    rw [hcast] at hnumber
    exact absurd hnumber (by decide)
  have hold : Text.isAllBlank "a::b" = false := by decide
  have hnew : Text.isAllBlank "a" = false := by decide
  have hne : "a::b" ≠ "a" := by decide
  have hliteral : Text.literal "a::b" = "'a::b'" := by decide
  have hp := quotesAnyText_columnRuleFor_builtin .postgresql (.inl rfl) 8
  rw [← hliteral]
  exact ⟨hold, hnew, hne, DefaultReading.defaultLiteral_of_quotesAnyText hold hp,
    (DefaultReading.isMatch_changed_iff hp hold hnew hne).2 ⟨rfl, hsame⟩⟩

theorem isCast_characterVarying : Cast.IsCast "::character varying" where
  drop? := by cbv
  trimmed c hc := by
    obtain rfl : 'g' = c := by simpa using hc
    decide

/-- In PostgreSQL, the literal of a string or code with its cast is taken for the configured text
unless that is a number. -/
theorem postgresql_isMatch_cast_iff {type : ColumnType}
    (htype : type = .string ∨ type = .enumConstant) (length : Nat) {raw : String}
    (hraw : Text.isAllBlank raw = false) :
    (builtin .postgresql).defaults.isMatch (some (Text.literal raw ++ "::character varying"))
        (some raw) ((builtin .postgresql).columnRuleFor type length) = true ↔
      isSignedNumber raw.toList = false :=
  DefaultReading.isMatch_cast_iff (quotesAnyText_columnRuleFor_builtin _ htype length) hraw
    isCast_characterVarying

theorem postgresql_isMatch_cast_word :
    Text.isAllBlank "it's::5" = false ∧
      (builtin .postgresql).defaults.isMatch
        (some (Text.literal "it's::5" ++ "::character varying")) (some "it's::5")
        ((builtin .postgresql).columnRuleFor .enumConstant 0) = true :=
  ⟨by decide, (postgresql_isMatch_cast_iff (.inr rfl) 0 (by decide)).2 (by decide)⟩

/-- The quotes of a number are taken for those of a cast, on the side that has one. -/
theorem postgresql_not_isMatch_cast_number :
    Text.isAllBlank "0" = false ∧
      (builtin .postgresql).defaults.isMatch (some (Text.literal "0" ++ "::character varying"))
        (some "0") ((builtin .postgresql).columnRuleFor .string 0) = false := by
  have hp := quotesAnyText_columnRuleFor_builtin .postgresql (.inl rfl) 0
  have hraw : Text.isAllBlank "0" = false := by decide
  have hmatch := DefaultReading.isMatch_cast_iff hp hraw isCast_characterVarying
  refine ⟨hraw, Bool.eq_false_iff.2 fun h => ?_⟩
  exact absurd (hmatch.1 h) (by decide)

/-- In MySQL, a string reported without its quotes is taken for the configured text exactly if that
is plain. -/
theorem mysql_isMatch_bare_iff (length : Nat) {raw : String}
    (hraw : Text.isAllBlank raw = false) :
    (builtin .mysql).defaults.isMatch (some raw) (some raw)
        ((builtin .mysql).columnRuleFor .string length) = true ↔ IsPlain raw :=
  DefaultReading.isMatch_bare_iff (quotesAnyText_columnRuleFor_builtin _ (.inl rfl) length) hraw

theorem mysql_isMatch_word :
    Text.isAllBlank "it's" = false ∧
      (builtin .mysql).defaults.isMatch (some "it's") (some "it's")
        ((builtin .mysql).columnRuleFor .string 0) = true :=
  ⟨by decide, (mysql_isMatch_bare_iff 0 (by decide)).2
    ⟨by decide, by decide, by decide, by decide, by decide, by decide, by decide⟩⟩

/-- A string that spells a truth value is taken for one, where it is reported without its quotes. -/
theorem mysql_not_isMatch_true :
    Text.isAllBlank "true" = false ∧
      (builtin .mysql).defaults.isMatch (some "true") (some "true")
        ((builtin .mysql).columnRuleFor .string 0) = false := by
  decide

end Dialect

end SqlDialects
