import SqlDialects.Dialect.Builtin
import SqlDialects.Binding.Basic
import SqlDialects.Proofs.TimeShift

/-!
# Timestamps at the ends of the calendar

The calendar has a first and a last day. A timestamp on one of them may be less than an offset away
from where the calendar ends, and there is nothing to move it to. This module says which timestamps
these are, and that they are what keeps a timestamp from being stored in UTC or read in local time.

Results:
1. `Date.next?_eq_none_iff`, `Date.previous?_eq_none_iff`: one day alone has no next day, and one
   no previous one.
2. `Timestamp.shift?_eq_none_iff`: when a timestamp leaves the calendar.
3. `Dialect.timestampUtc_failed_iff`: when a timestamp cannot be stored or read;
   `last_evening_lost`: on the last evening, west of Greenwich, it cannot be stored.
-/

namespace SqlDialects

/-! ## The first and the last day -/

namespace Date

/-- The first day of the calendar. -/
def first : Date := ⟨Calendar.firstYear, 1, 1, by decide⟩

/-- The last day of the calendar. -/
def last : Date := ⟨Calendar.lastYear, 12, 31, by decide⟩

theorem isDay_iff {year : Int} {month day : Nat} : Calendar.isDay year month day = true ↔
    (Calendar.firstYear ≤ year ∧ year ≤ Calendar.lastYear) ∧ 1 ≤ day ∧
      day ≤ Calendar.daysIn year month := by
  simp only [Calendar.isDay, Bool.and_eq_true, decide_eq_true_eq, and_assoc]

theorem ofNumbers?_eq_none_iff {year : Int} {month day : Nat} :
    ofNumbers? year month day = none ↔ ¬Calendar.isDay year month day = true := by
  unfold ofNumbers?
  split <;> simp_all

theorem eq_iff {d e : Date} : d = e ↔ d.year = e.year ∧ d.month = e.month ∧ d.day = e.day := by
  cases d
  cases e
  simp

/-- The last day alone has no next one. -/
theorem next?_eq_none_iff {d : Date} : d.next? = none ↔ d = last := by
  obtain ⟨hlow, hhigh, hone, hle⟩ := d.bounds
  obtain ⟨⟨hfirst, hlast⟩, -⟩ := isDay_iff.1 d.exists_day
  have hdate : d = last ↔ d.year = Calendar.lastYear ∧ d.month = 12 ∧ d.day = 31 := eq_iff
  rw [hdate]
  unfold next?
  split
  · next hday =>
    -- The month goes on.
    have hsome : Calendar.isDay d.year d.month (d.day + 1) = true :=
      isDay_iff.2 ⟨⟨hfirst, hlast⟩, by omega, by omega⟩
    rw [ofNumbers?_eq_none_iff]
    refine iff_of_false (not_not.2 hsome) ?_
    rintro ⟨-, hmonth, hday'⟩
    rw [hmonth, hday'] at hday
    exact absurd hday (by decide : ¬31 < 31)
  · split
    · next hmonth =>
      -- The year goes on with the first day of a month.
      have hdays : 0 < Calendar.daysIn d.year (d.month + 1) :=
        Calendar.daysIn_pos_iff.2 (by omega)
      have hsome : Calendar.isDay d.year (d.month + 1) 1 = true :=
        isDay_iff.2 ⟨⟨hfirst, hlast⟩, le_rfl, hdays⟩
      rw [ofNumbers?_eq_none_iff]
      exact iff_of_false (not_not.2 hsome) (by omega)
    · have hmonth : d.month = 12 := by omega
      have hdays : Calendar.daysIn d.year d.month = 31 := by rw [hmonth]; rfl
      have hjanuary : Calendar.daysIn (d.year + 1) 1 = 31 := rfl
      rw [ofNumbers?_eq_none_iff, isDay_iff, hjanuary]
      omega

/-- The first day alone has no previous one. -/
theorem previous?_eq_none_iff {d : Date} : d.previous? = none ↔ d = first := by
  obtain ⟨hlow, hhigh, hone, hle⟩ := d.bounds
  obtain ⟨⟨hfirst, hlast⟩, -⟩ := isDay_iff.1 d.exists_day
  have hdate : d = first ↔ d.year = Calendar.firstYear ∧ d.month = 1 ∧ d.day = 1 := eq_iff
  rw [hdate]
  unfold previous?
  split
  · have hsome : Calendar.isDay d.year d.month (d.day - 1) = true :=
      isDay_iff.2 ⟨⟨hfirst, hlast⟩, by omega, by omega⟩
    rw [ofNumbers?_eq_none_iff]
    exact iff_of_false (not_not.2 hsome) (by omega)
  · split
    · -- The last day of the month before.
      have hdays : 0 < Calendar.daysIn d.year (d.month - 1) :=
        Calendar.daysIn_pos_iff.2 (by omega)
      have hsome : Calendar.isDay d.year (d.month - 1)
          (Calendar.daysIn d.year (d.month - 1)) = true :=
        isDay_iff.2 ⟨⟨hfirst, hlast⟩, hdays, le_rfl⟩
      rw [ofNumbers?_eq_none_iff]
      exact iff_of_false (not_not.2 hsome) (by omega)
    · have hdecember : Calendar.daysIn (d.year - 1) 12 = 31 := rfl
      rw [ofNumbers?_eq_none_iff, isDay_iff, hdecember]
      omega

end Date

/-! ## Timestamps that leave the calendar -/

namespace Timestamp

/-- Whether an offset moves a timestamp to before the first day or after the last one. -/
def Leaves (t : Timestamp) (offset : UtcOffset) : Prop :=
  let second := (leaveLeapSecond t.time offset.seconds).1 + offset.seconds
  second < 0 ∧ t.date = Date.first ∨ 86400 ≤ second ∧ t.date = Date.last

instance (t : Timestamp) (offset : UtcOffset) : Decidable (t.Leaves offset) :=
  inferInstanceAs (Decidable (_ ∧ _ ∨ _ ∧ _))

/-- A timestamp that leaves the calendar is not moved. -/
theorem shift?_eq_none_iff {t : Timestamp} {offset : UtcOffset} :
    t.shift? offset = none ↔ t.Leaves offset := by
  simp only [shift?, Leaves, Option.map_eq_none_iff]
  split
  · next hbefore =>
    have hafter : ¬86400 ≤ (leaveLeapSecond t.time offset.seconds).1 + offset.seconds := by omega
    simp only [Date.previous?_eq_none_iff, hbefore, hafter, true_and, false_and, or_false]
  · next hbefore =>
    split
    · next hinside =>
      have hafter : ¬86400 ≤ (leaveLeapSecond t.time offset.seconds).1 + offset.seconds := by omega
      simp only [hbefore, hafter, false_and, or_false, reduceCtorEq]
    · next hafter =>
      simp only [Date.next?_eq_none_iff, hbefore, Int.not_lt.1 hafter, true_and, false_and,
        false_or]

end Timestamp

/-! ## Timestamps in UTC -/

section Utc

variable {p : ColumnRule} {declaration : String} {literal : CalendarLiteral} {index : Nat}
  {zone : UtcOffset} {t : Timestamp}

/-- Whether a result is a failure that gets no report. -/
def Failed {α : Type} (result : Except Error α) : Prop :=
  ∃ fault, result = .error fault ∧ fault.isFatal = true

/-- What is made of a timestamp that is moved. -/
def Timestamp.movedResult {α : Type} (make : Timestamp → α) : Option Timestamp → Except Error α
  | some s => .ok (make s)
  | none => .error .timestampOverflow

/-- There is no result exactly if the timestamp leaves the calendar. -/
theorem Timestamp.failed_movedResult_iff {α : Type} {make : Timestamp → α} {offset : UtcOffset} :
    (Failed (movedResult make (t.shift? offset)) ↔ t.Leaves offset) ∧
      (¬t.Leaves offset →
        ∃ s, t.shift? offset = some s ∧ movedResult make (t.shift? offset) = .ok (make s)) := by
  rw [← shift?_eq_none_iff]
  cases t.shift? offset with
  | none => exact ⟨iff_of_true ⟨_, rfl, rfl⟩ rfl, fun h => absurd rfl h⟩
  | some s =>
    refine ⟨iff_of_false ?_ (Option.some_ne_none s), fun _ => ⟨s, rfl, rfl⟩⟩
    rintro ⟨fault, ⟨⟩, -⟩

theorem ColumnRule.bindCall_timestampUtc (hp : p = .timestamp .timestampUtc declaration literal) :
    p.bindCall index zone (.timestamp t) =
      Timestamp.movedResult (fun s => .value index (.timestamp s)) (t.toUtc? zone) := by
  subst hp
  have hcoerce : (Value.timestamp t).coerce .timestampUtc = .ok (.timestamp t) := rfl
  rw [bindCall, if_neg (by simp [Value.isNull]), ColumnRule.columnType, hcoerce]
  rfl

theorem ColumnRule.extract_timestampUtc (hp : p = .timestamp .timestampUtc declaration literal)
    {row : Row} {place : ResultPlace} (hrow : row.value place p.typeCode = .ok (.timestamp t)) :
    p.extract row place zone = Timestamp.movedResult .timestamp (t.ofUtc? zone) := by
  subst hp
  have hrequest : (timestamp .timestampUtc declaration literal).readRequest =
    .value (timestamp .timestampUtc declaration literal).typeCode := rfl
  rw [extract, hrequest]
  simp only [hrow]
  rfl

theorem Dialect.columnRuleFor_timestampUtc (db : Database) (length : Nat) :
    ∃ declaration literal, (builtin db).columnRuleFor .timestampUtc length =
      .timestamp .timestampUtc declaration literal := by
  cases db <;> exact ⟨_, _, rfl⟩

/-- A timestamp cannot be stored in UTC, and no report is given, exactly if the way to UTC leads out
of the calendar, and cannot be read exactly if the way back does. Otherwise what is stored, or read,
is the timestamp that is moved. -/
theorem Dialect.timestampUtc_failed_iff (db : Database) (length index : Nat) (zone : UtcOffset)
    (t : Timestamp) :
    let p := (builtin db).columnRuleFor .timestampUtc length
    (Failed (p.bindCall index zone (.timestamp t)) ↔ t.Leaves zone.neg) ∧
    (¬t.Leaves zone.neg → ∃ s, t.toUtc? zone = some s ∧
      p.bindCall index zone (.timestamp t) = .ok (.value index (.timestamp s))) ∧
    ∀ (row : Row) (place : ResultPlace), row.value place p.typeCode = .ok (.timestamp t) →
      (Failed (p.extract row place zone) ↔ t.Leaves zone) ∧
      (¬t.Leaves zone → ∃ s, t.ofUtc? zone = some s ∧
        p.extract row place zone = .ok (.timestamp s)) := by
  obtain ⟨declaration, literal, hp⟩ := columnRuleFor_timestampUtc db length
  intro p
  rw [ColumnRule.bindCall_timestampUtc (p := p) hp]
  obtain ⟨hfailed, hstored⟩ : (Failed _ ↔ t.Leaves zone.neg) ∧ _ :=
    Timestamp.failed_movedResult_iff
  refine ⟨hfailed, hstored, fun row place hrow => ?_⟩
  rw [ColumnRule.extract_timestampUtc hp hrow]
  exact Timestamp.failed_movedResult_iff

/-! ### The last evening -/

/-- Half past eleven on the last evening of the calendar. -/
def lastEvening : Timestamp :=
  ⟨Date.last, { TimeOfDay.midnight with second := 84600, second_lt := by decide }⟩

/-- A row that has a timestamp in every column. -/
def Row.ofTimestamp (t : Timestamp) : Row where
  value _ _ := .ok (.timestamp t)
  bytes _ := .ok none
  characters _ := .ok none

/-- An hour east of Greenwich the last evening can be stored, and not be read. -/
theorem last_evening_stored :
    (∃ s, lastEvening.toUtc? ⟨3600, by decide⟩ = some s ∧
      ((Dialect.builtin .hsqldb).columnRuleFor .timestampUtc 0).bindCall 1 ⟨3600, by decide⟩
        (.timestamp lastEvening) = .ok (.value 1 (.timestamp s))) ∧
    Failed (((Dialect.builtin .hsqldb).columnRuleFor .timestampUtc 0).extract
      (.ofTimestamp lastEvening) (.index 1) ⟨3600, by decide⟩) := by
  obtain ⟨-, hstored, hread⟩ :=
    Dialect.timestampUtc_failed_iff .hsqldb 0 1 ⟨3600, by decide⟩ lastEvening
  exact ⟨hstored (by decide), (hread (.ofTimestamp lastEvening) (.index 1) rfl).1.2 (by decide)⟩

/-- An hour west of Greenwich the last evening cannot be stored. -/
theorem last_evening_lost :
    ((Dialect.builtin .hsqldb).columnRuleFor .timestampUtc 0).bindCall 1 ⟨-3600, by decide⟩
        (.timestamp lastEvening) = .error .timestampOverflow ∧
      Error.timestampOverflow.isFatal = true := by
  exact ⟨rfl, rfl⟩

end Utc

end SqlDialects
