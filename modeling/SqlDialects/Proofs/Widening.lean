import SqlDialects.Proofs.Numeral
import SqlDialects.Proofs.TimeShift
import SqlDialects.Value.Coercion

/-!
# Values in wider types

A type takes the values of others, in a form of its own: whole numbers with more bits, dates as
their midnight, most values as texts. This module says which two values of a kind get the same form,
floating point numbers aside.

Results:
1. `Date.text_injective`: the text of a date tells which one it is, over the whole calendar.
2. `Timestamp.text_eq_iff`: which timestamps have the same text.
3. `Value.coerce_eq_iff`: which values become one; `half_second_lost`: some do.
-/

namespace SqlDialects

/-! ## Dates and times -/

theorem padDigits_injective (width : Nat) : Function.Injective (padDigits width) := by
  have hvalue (n : Nat) : Nat.ofDigitChars 10 (padDigits width n) 0 = n := by
    rw [padDigits, Nat.ofDigitChars_append, Nat.ofDigitChars_replicate_zero, Nat.mul_zero,
      Nat.ofDigitChars_ten_toDigits]
  exact Function.LeftInverse.injective hvalue

theorem length_padDigits {width n : Nat} (hwidth : 0 < width) (h : n < 10 ^ width) :
    (padDigits width n).length = width := by
  have hle := (Nat.length_toDigits_le_iff (b := 10) (by decide) hwidth).2 h
  rw [padDigits, List.length_append, List.length_replicate]
  omega

theorem notMem_padDigits {width n : Nat} {c : Char} (hc : c.isDigit = false) :
    c ∉ padDigits width n :=
  fun h => Bool.false_ne_true (hc.symm.trans (Numeral.isDigit_of_mem_padDigits h))

namespace Date

theorem yearText_injective : Function.Injective yearText := by
  have hsigned {y : Int} (hy : ¬(0 ≤ y ∧ y ≤ 9999)) :
      ∃ mark, mark.isDigit = false ∧ (mark = '-' ↔ y < 0) ∧
        yearText y = mark :: padDigits 4 y.natAbs := by
    refine ⟨_, ?_, ?_, if_neg hy⟩ <;> split <;> simp_all
  intro y z h
  by_cases hy : 0 ≤ y ∧ y ≤ 9999 <;> by_cases hz : 0 ≤ z ∧ z ≤ 9999
  · rw [yearText, if_pos hy, yearText, if_pos hz] at h
    have := padDigits_injective 4 h
    omega
  · obtain ⟨mark, hmark, -, htext⟩ := hsigned hz
    rw [htext, yearText, if_pos hy] at h
    exact absurd (h ▸ List.mem_cons_self) (notMem_padDigits hmark)
  · obtain ⟨mark, hmark, -, htext⟩ := hsigned hy
    rw [htext, yearText, if_pos hz] at h
    exact absurd (h ▸ List.mem_cons_self) (notMem_padDigits hmark)
  · obtain ⟨mark, -, hmark, htext⟩ := hsigned hy
    obtain ⟨mark', -, hmark', htext'⟩ := hsigned hz
    rw [htext, htext'] at h
    obtain ⟨rfl, hdigits⟩ := List.cons.inj h
    have hsame : y < 0 ↔ z < 0 := hmark.symm.trans hmark'
    have := padDigits_injective 4 hdigits
    omega

theorem day_le (d : Date) : d.day ≤ 31 := by
  refine d.bounds.2.2.2.trans ?_
  unfold Calendar.daysIn
  split <;> first | omega | (split <;> omega)

/-- The text of a date tells which one it is. -/
theorem textChars_injective : Function.Injective textChars := by
  have hlength (d : Date) : ('-' :: padDigits 2 d.month).length = 3 ∧
      ('-' :: padDigits 2 d.day).length = 3 := by
    have hbounds := d.bounds
    have hday := d.day_le
    rw [List.length_cons, List.length_cons, length_padDigits (by decide) (by omega),
      length_padDigits (by decide) (by omega)]
    exact ⟨rfl, rfl⟩
  intro d e h
  obtain ⟨h, hday⟩ := List.append_inj' h ((hlength d).2.trans (hlength e).2.symm)
  obtain ⟨hyear, hmonth⟩ := List.append_inj' h ((hlength d).1.trans (hlength e).1.symm)
  have hdate := ofNumbers?_eq_some_iff.2 ⟨yearText_injective hyear,
    padDigits_injective 2 (List.cons.inj hmonth).2, padDigits_injective 2 (List.cons.inj hday).2⟩
  exact Option.some.inj ((ofNumbers?_eq_some_iff.2 ⟨rfl, rfl, rfl⟩).symm.trans hdate).symm

theorem text_injective : Function.Injective text := by
  intro d e h
  rw [text, text, String.ofList_inj] at h
  exact textChars_injective h

end Date

/-- Whether two times of day are written alike: in the same minute, and both in the same second or
one in the leap second before. -/
def TimeOfDay.LooksLike (t s : TimeOfDay) : Prop :=
  t.second / 60 = s.second / 60 ∧
    t.second % 60 + t.nanos / nanosPerSecond = s.second % 60 + s.nanos / nanosPerSecond

namespace TimeOfDay

variable {t s : TimeOfDay}

theorem nanos_div_lt (t : TimeOfDay) : t.nanos / nanosPerSecond < 2 := by
  refine Nat.div_lt_of_lt_mul ?_
  rw [Nat.mul_comm]
  exact t.nanos_lt

theorem length_textChars (t : TimeOfDay) : t.textChars.length = 8 := by
  have hsecond := t.second_lt
  have hnanos := t.nanos_div_lt
  rw [textChars, List.length_append, List.length_append, List.length_cons, List.length_cons,
    length_padDigits (by decide) (by omega), length_padDigits (by decide) (by omega),
    length_padDigits (by decide) (by omega)]

theorem textChars_eq_iff : t.textChars = s.textChars ↔ t.LooksLike s := by
  constructor
  · intro h
    have hlength (t : TimeOfDay) : (':' :: padDigits 2 (t.second / 60 % 60)).length = 3 ∧
        (':' :: padDigits 2 (t.second % 60 + t.nanos / nanosPerSecond)).length = 3 := by
      have hnanos := t.nanos_div_lt
      rw [List.length_cons, List.length_cons, length_padDigits (by decide) (by omega),
        length_padDigits (by decide) (by omega)]
      exact ⟨rfl, rfl⟩
    obtain ⟨h, hsecond⟩ := List.append_inj' h ((hlength t).2.trans (hlength s).2.symm)
    obtain ⟨hhour, hminute⟩ := List.append_inj' h ((hlength t).1.trans (hlength s).1.symm)
    have hhour := padDigits_injective 2 hhour
    have hminute := padDigits_injective 2 (List.cons.inj hminute).2
    exact ⟨by omega, padDigits_injective 2 (List.cons.inj hsecond).2⟩
  · rintro ⟨hminute, hsecond⟩
    have hhour : t.second / 3600 = s.second / 3600 := by omega
    rw [textChars, textChars, hhour, hminute, hsecond]

end TimeOfDay

namespace Timestamp

/-- Timestamps have the same text on the same day at times that are written alike. -/
theorem text_eq_iff {t s : Timestamp} :
    t.text = s.text ↔ t.date = s.date ∧ t.time.LooksLike s.time := by
  rw [text, text, String.ofList_inj, ← TimeOfDay.textChars_eq_iff]
  constructor
  · intro h
    obtain ⟨hdate, htime⟩ := List.append_inj' h (by
      rw [List.length_cons, List.length_cons, TimeOfDay.length_textChars,
        TimeOfDay.length_textChars])
    exact ⟨Date.textChars_injective hdate, (List.cons.inj htime).2⟩
  · rintro ⟨hdate, htime⟩
    rw [textChars, textChars, hdate, htime]

end Timestamp

/-! ## Values -/

namespace Value

/-- Whether a type stores two values in the same form though they differ: characters of the same
truth value as booleans, and timestamps that are written alike as texts. -/
inductive Blurs (target : ColumnType) : Value → Value → Prop
  | char {a b : Char} : target = .boolean → isAffirmative a = isAffirmative b →
    Blurs target (.char a) (.char b)
  | timestamp {t s : Timestamp} : isTextTarget target = true → t.date = s.date →
    t.time.LooksLike s.time → Blurs target (.timestamp t) (.timestamp s)

variable {target natural : ColumnType} {v w : Value}

/-- Types of numbers that are rounded. -/
def IsFloating (type : ColumnType) : Prop := type = .float ∨ type = .double

theorem kind_eq_of_holdingType? (hv : v.holdingType? = some natural)
    (hw : w.holdingType? = some natural) : v.kind = w.kind := by
  have hinj (k l : ValueKind) (hk : k.holdingType? = some natural)
      (hl : l.holdingType? = some natural) : k = l := by
    cases k <;> cases hk <;> cases l <;> first | rfl | cases hl
  exact hinj v.kind w.kind hv hw

/-- A value of a type that another one takes has a form there. -/
theorem exists_widened? (hn : natural ∈ target.widensFrom) (hv : v.holdingType? = some natural) :
    ∃ v', widened? target v = some v' ∧ coerce target v = .ok v' := by
  have hne : natural ≠ target := by
    rintro rfl
    cases natural <;> simp [ColumnType.widensFrom] at hn
  have htaken : isTaken target natural v = true := by
    have htakes : target.takes natural = true := by
      rw [ColumnType.takes, List.contains_iff_mem.2 hn, Bool.or_true]
    rw [isTaken, htakes, Bool.true_or]
  obtain ⟨v', hv'⟩ : ∃ v', widened? target v = some v' := by
    cases v <;> cases hv <;> cases target <;>
      first | exact ⟨_, rfl⟩ | simp [ColumnType.widensFrom] at hn
  refine ⟨v', hv', ?_⟩
  rw [coerce, hv]
  simp only [if_neg hne, htaken, hv']
  rfl

/-- The number that a whole number is. -/
def number? : Value → Option Int
  | .short n => some n.toInt
  | .int n => some n.toInt
  | .long n => some n.toInt
  | _ => none

/-- Whole numbers of a kind differ in their numbers. -/
theorem eq_of_number? {n : Int} (hkind : v.kind = w.kind) (hv : v.number? = some n)
    (hw : w.number? = some n) : v = w := by
  cases v <;> cases hv <;> cases w <;> cases hkind
  · rw [Int16.toInt_inj.1 (Option.some.inj hw)]
  · rw [Int32.toInt_inj.1 (Option.some.inj hw)]
  · rw [Int64.toInt_inj.1 (Option.some.inj hw)]

/-- More bits hold the same number. -/
theorem number?_of_widened? (ht : target = .integer ∨ target = .long)
    (hn : natural ∈ target.widensFrom) (hv : v.holdingType? = some natural) {v' : Value}
    (h : widened? target v = some v') : ∃ n, v.number? = some n ∧ v'.number? = some n := by
  rcases ht with rfl | rfl <;> cases v <;> cases hv <;> cases h
  · exact ⟨_, rfl, congrArg some (Int16.toInt_toInt32 _)⟩
  · exact ⟨_, rfl, congrArg some (Int16.toInt_toInt64 _)⟩
  · exact ⟨_, rfl, congrArg some (Int32.toInt_toInt64 _)⟩

/-- The text tells values of a kind apart, but for timestamps and what is rounded. -/
theorem eq_of_plain (hkind : v.kind = w.kind)
    (hexact : v.kind ∉ [.float, .double, .timestamp, .bytes]) (h : v.plain = w.plain) : v = w := by
  cases v <;> cases w <;> cases hkind
  case null.null => rfl
  case bool.bool a b =>
    revert h
    cases a <;> cases b <;> decide
  case char.char => exact congrArg char (List.cons.inj (String.ofList_inj.1 h)).1
  case short.short => exact congrArg short (Int16.toInt_inj.1 (Int.repr_inj.1 h))
  case int.int => exact congrArg int (Int32.toInt_inj.1 (Int.repr_inj.1 h))
  case long.long => exact congrArg long (Int64.toInt_inj.1 (Int.repr_inj.1 h))
  case decimal.decimal => exact congrArg decimal h
  case date.date => exact congrArg date (Date.text_injective h)
  case text.text => exact congrArg text h
  all_goals simp [kind] at hexact

/-- Which values have the same text. -/
theorem plain_eq_iff (hn : natural ∈ ColumnType.clob.widensFrom) (hfloat : ¬IsFloating natural)
    (hv : v.holdingType? = some natural) (hw : w.holdingType? = some natural) :
    v.plain = w.plain ↔ v = w ∨ Blurs .clob v w := by
  have hkind := kind_eq_of_holdingType? hv hw
  constructor
  · intro h
    by_cases htime : v.kind = .timestamp
    · cases v <;> cases htime
      cases w <;> cases hkind
      obtain ⟨hdate, htime⟩ := Timestamp.text_eq_iff.1 h
      exact .inr (.timestamp rfl hdate htime)
    · refine .inl (eq_of_plain hkind ?_ h)
      have hne : v.kind ≠ .float ∧ v.kind ≠ .double ∧ v.kind ≠ .bytes := by
        refine ⟨fun hk => ?_, fun hk => ?_, fun hk => ?_⟩ <;> rw [holdingType?, hk] at hv <;>
          cases hv
        · exact hfloat (.inl rfl)
        · exact hfloat (.inr rfl)
        · exact absurd hn (by decide)
      simp [hne, htime]
  · rintro (rfl | ⟨⟨⟩, -⟩ | ⟨-, hdate, htime⟩)
    · rfl
    · exact Timestamp.text_eq_iff.2 ⟨hdate, htime⟩

theorem blurs_iff_of_isTextTarget (h : isTextTarget target = true) :
    Blurs target v w ↔ Blurs .clob v w := by
  constructor
  · rintro (⟨rfl, -⟩ | ⟨-, hdate, htime⟩)
    · cases h
    · exact .timestamp rfl hdate htime
  · rintro (⟨⟨⟩, -⟩ | ⟨-, hdate, htime⟩)
    exact .timestamp h hdate htime

/-- Where values are stored as their texts, these tell which become one. -/
theorem widened?_eq_iff_of_plain {form : String → Value} (hform : Function.Injective form)
    (hn : natural ∈ ColumnType.clob.widensFrom) (hfloat : ¬IsFloating natural)
    (hv : v.holdingType? = some natural) (hw : w.holdingType? = some natural)
    (hblurs : Blurs target v w ↔ Blurs .clob v w)
    (hwidened : ∀ u, widened? target u = some (form u.plain)) :
    widened? target v = widened? target w ↔ v = w ∨ Blurs target v w := by
  rw [hwidened, hwidened, Option.some.injEq, hform.eq_iff, plain_eq_iff hn hfloat hv hw, hblurs]

theorem widened?_eq_iff_of_number (ht : target = .integer ∨ target = .long)
    (hn : natural ∈ target.widensFrom) (hv : v.holdingType? = some natural)
    (hw : w.holdingType? = some natural) :
    widened? target v = widened? target w ↔ v = w ∨ Blurs target v w := by
  constructor
  · intro h
    obtain ⟨v', hv', -⟩ := exists_widened? hn hv
    obtain ⟨n, hvn, hn'⟩ := number?_of_widened? ht hn hv hv'
    obtain ⟨m, hwm, hm'⟩ := number?_of_widened? ht hn hw (h.symm.trans hv')
    obtain rfl : n = m := Option.some.inj (hn'.symm.trans hm')
    exact .inl (eq_of_number? (kind_eq_of_holdingType? hv hw) hvn hwm)
  · rintro (rfl | ⟨rfl, -⟩ | ⟨htext, -⟩)
    · rfl
    · rcases ht with ht | ht <;> cases ht
    · rcases ht with rfl | rfl <;> cases htext

theorem widened?_eq_iff_of_temporal (ht : target = .timestamp ∨ target = .timestampUtc)
    (hn : natural ∈ target.widensFrom) (hv : v.holdingType? = some natural)
    (hw : w.holdingType? = some natural) :
    widened? target v = widened? target w ↔ v = w ∨ Blurs target v w := by
  have hkind := kind_eq_of_holdingType? hv hw
  constructor
  · intro h
    have hnatural : natural = .date ∨ natural = .timestamp ∧ target = .timestampUtc := by
      rcases ht with rfl | rfl
      · exact .inl (List.mem_singleton.1 hn)
      · exact (List.mem_pair.1 hn).symm.imp_right fun h => ⟨h, rfl⟩
    obtain rfl | ⟨rfl, rfl⟩ := hnatural
    · cases v <;> cases hv
      cases w <;> cases hkind
      rcases ht with rfl | rfl <;> cases h <;> exact .inl rfl
    · cases v <;> cases hv
      cases w <;> cases hkind
      cases h
      exact .inl rfl
  · rintro (rfl | ⟨rfl, -⟩ | ⟨htext, -⟩)
    · rfl
    · rcases ht with ht | ht <;> cases ht
    · rcases ht with rfl | rfl <;> cases htext

/-- Which values get the same form. -/
theorem widened?_eq_iff (hn : natural ∈ target.widensFrom) (htarget : ¬IsFloating target)
    (hfloat : ¬IsFloating natural) (hv : v.holdingType? = some natural)
    (hw : w.holdingType? = some natural) :
    widened? target v = widened? target w ↔ v = w ∨ Blurs target v w := by
  have hsubset : ∀ type ∈ [ColumnType.string, .clob, .enumConstant, .decimal],
      type.widensFrom ⊆ ColumnType.clob.widensFrom := by decide
  cases target with
  | string | clob | enumConstant =>
    have htext : Function.Injective text := fun _ _ => text.inj
    exact widened?_eq_iff_of_plain htext (hsubset _ (by decide) hn) hfloat hv hw
      (blurs_iff_of_isTextTarget rfl) fun _ => rfl
  | decimal =>
    have hdecimal : Function.Injective decimal := fun _ _ => decimal.inj
    refine widened?_eq_iff_of_plain hdecimal (hsubset _ (by decide) hn) hfloat hv hw ?_ fun _ => rfl
    constructor
    · rintro (⟨⟨⟩, -⟩ | ⟨⟨⟩, -⟩)
    · rintro (⟨⟨⟩, -⟩ | -)
      cases hv
      exact absurd hn (by decide)
  | integer => exact widened?_eq_iff_of_number (.inl rfl) hn hv hw
  | long => exact widened?_eq_iff_of_number (.inr rfl) hn hv hw
  | boolean =>
    obtain rfl := List.mem_singleton.1 hn
    cases v <;> cases hv
    cases w <;> cases hw
    constructor
    · intro h
      exact .inr (.char rfl (bool.inj (Option.some.inj h)))
    · rintro (h | ⟨-, htruth⟩)
      · cases h
        rfl
      · exact congrArg (fun truth => some (bool truth)) htruth
  | timestamp => exact widened?_eq_iff_of_temporal (.inl rfl) hn hv hw
  | timestampUtc => exact widened?_eq_iff_of_temporal (.inr rfl) hn hv hw
  | float => exact absurd (.inl rfl) htarget
  | double => exact absurd (.inr rfl) htarget
  | character | short | date | blob => cases hn

/-- A type takes every value of a type that it is wider than. Two values of a kind become one
exactly if they are one, or characters of the same truth value that become booleans, or timestamps
written alike that become texts. Floating point numbers are left aside, on both sides. -/
theorem coerce_eq_iff (hn : natural ∈ target.widensFrom) (htarget : ¬IsFloating target)
    (hfloat : ¬IsFloating natural) (hv : v.holdingType? = some natural)
    (hw : w.holdingType? = some natural) :
    ∃ v' w', coerce target v = .ok v' ∧ coerce target w = .ok w' ∧
      (v' = w' ↔ v = w ∨ Blurs target v w) := by
  obtain ⟨v', hv', hcoerce⟩ := exists_widened? hn hv
  obtain ⟨w', hw', hcoerce'⟩ := exists_widened? hn hw
  refine ⟨v', w', hcoerce, hcoerce', ?_⟩
  rw [← widened?_eq_iff hn htarget hfloat hv hw, hv', hw', Option.some.injEq]

/-! ### Half a second -/

/-- A quarter past ten on the last day of January, with some nanoseconds. -/
def quarterPastTen (nanos : Nat) (h : nanos < 2 * nanosPerSecond) : Timestamp :=
  ⟨⟨2020, 1, 31, by decide⟩, ⟨36900, nanos, by decide, h⟩⟩

/-- Two dates become different midnights. -/
theorem dates_kept_apart : ∃ v' w',
    coerce .timestampUtc (.date ⟨2020, 1, 31, by decide⟩) = .ok v' ∧
    coerce .timestampUtc (.date ⟨2020, 2, 1, by decide⟩) = .ok w' ∧ v' ≠ w' := by
  have hn : ColumnType.date ∈ ColumnType.timestampUtc.widensFrom := by decide
  have htarget : ¬IsFloating .timestampUtc := by rintro (⟨⟨⟩⟩ | ⟨⟨⟩⟩)
  have hfloat : ¬IsFloating .date := by rintro (⟨⟨⟩⟩ | ⟨⟨⟩⟩)
  obtain ⟨v', w', hv, hw, hiff⟩ := coerce_eq_iff (v := .date ⟨2020, 1, 31, by decide⟩)
    (w := .date ⟨2020, 2, 1, by decide⟩) hn htarget hfloat rfl rfl
  refine ⟨v', w', hv, hw, fun h => ?_⟩
  rcases hiff.1 h with h | h
  · revert h
    decide
  · cases h

/-- Of two timestamps half a second apart one text is stored, and of two letters one truth value. -/
theorem half_second_lost :
    ColumnType.timestamp ∈ ColumnType.string.widensFrom ∧
    quarterPastTen 0 (by decide) ≠ quarterPastTen 500000000 (by decide) ∧
    coerce .string (.timestamp (quarterPastTen 0 (by decide))) =
      .ok (.text "2020-01-31 10:15:00") ∧
    coerce .string (.timestamp (quarterPastTen 500000000 (by decide))) =
      .ok (.text "2020-01-31 10:15:00") ∧
    ColumnType.character ∈ ColumnType.boolean.widensFrom ∧
    coerce .boolean (.char 'Y') = .ok (.bool true) ∧
    coerce .boolean (.char 'y') = .ok (.bool true) :=
  ⟨by decide, by decide, rfl, rfl, by decide, rfl, rfl⟩

end Value

end SqlDialects
