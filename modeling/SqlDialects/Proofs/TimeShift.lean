import Mathlib
import SqlDialects.Calendar.Timestamp

/-!
# Timestamps moved between local time and UTC

An offset is less than a day, so that it moves a timestamp to the next day or the day before at
most. This module shows that these two steps undo each other all over the calendar, across the ends
of months and years, and from them that a timestamp that is moved comes back where it was.

Results:
1. `Date.previous?_of_next?`, `Date.next?_of_previous?`.
2. `Timestamp.shift?_neg`, `Timestamp.ofUtc?_of_toUtc?`: outside a leap second the way there and
   back leads to the timestamp itself.
-/

namespace SqlDialects

/-! ## Days -/

namespace Calendar

theorem daysIn_pos_iff {year : Int} {month : Nat} :
    0 < daysIn year month ↔ 1 ≤ month ∧ month ≤ 12 := by
  unfold daysIn
  split <;> grind

end Calendar

namespace Date

theorem ofNumbers?_eq_some_iff {year : Int} {month day : Nat} {d : Date} :
    ofNumbers? year month day = some d ↔ d.year = year ∧ d.month = month ∧ d.day = day := by
  unfold ofNumbers?
  constructor
  · intro h
    split at h
    · cases h
      exact ⟨rfl, rfl, rfl⟩
    · cases h
  · rintro ⟨rfl, rfl, rfl⟩
    rw [dif_pos d.exists_day]

/-- What the days of the calendar have in common. -/
theorem bounds (d : Date) : 1 ≤ d.month ∧ d.month ≤ 12 ∧ 1 ≤ d.day ∧
    d.day ≤ Calendar.daysIn d.year d.month := by
  have hday := d.exists_day
  simp only [Calendar.isDay, Bool.and_eq_true, decide_eq_true_eq] at hday
  obtain ⟨⟨⟨_, _⟩, hone⟩, hle⟩ := hday
  obtain ⟨hlow, hhigh⟩ := Calendar.daysIn_pos_iff.1 (Nat.lt_of_lt_of_le hone hle)
  exact ⟨hlow, hhigh, hone, hle⟩

/-- The day before the next day. The cases are those of the step: within a month, at the end of a
month, at the end of a year. -/
theorem previous?_of_next? {d next : Date} (h : d.next? = some next) :
    next.previous? = some d := by
  obtain ⟨hlow, hhigh, hone, hle⟩ := d.bounds
  unfold next? at h
  split at h
  · obtain ⟨hy, hm, hd⟩ := ofNumbers?_eq_some_iff.1 h
    rw [previous?, if_pos (by omega), ofNumbers?_eq_some_iff]
    omega
  · split at h
    · obtain ⟨hy, hm, hd⟩ := ofNumbers?_eq_some_iff.1 h
      rw [previous?, if_neg (by omega), if_pos (by omega), ofNumbers?_eq_some_iff, hy, hm,
        Nat.add_sub_cancel]
      omega
    · obtain ⟨hy, hm, hd⟩ := ofNumbers?_eq_some_iff.1 h
      have hmonth : d.month = 12 := by omega
      have hlast : Calendar.daysIn d.year d.month = 31 := by rw [hmonth]; rfl
      rw [previous?, if_neg (by omega), if_neg (by omega), ofNumbers?_eq_some_iff]
      omega

theorem next?_of_previous? {d previous : Date} (h : d.previous? = some previous) :
    previous.next? = some d := by
  obtain ⟨hlow, hhigh, hone, hle⟩ := d.bounds
  unfold previous? at h
  split at h
  · obtain ⟨hy, hm, hd⟩ := ofNumbers?_eq_some_iff.1 h
    rw [next?, hy, hm, if_pos (by omega), ofNumbers?_eq_some_iff]
    omega
  · split at h
    · obtain ⟨hy, hm, hd⟩ := ofNumbers?_eq_some_iff.1 h
      rw [next?, hy, hm, if_neg (by omega), if_pos (by omega), ofNumbers?_eq_some_iff]
      omega
    · obtain ⟨hy, hm, hd⟩ := ofNumbers?_eq_some_iff.1 h
      have hlast : Calendar.daysIn previous.year previous.month = 31 := by rw [hm]; rfl
      rw [next?, if_neg (by omega), if_neg (by omega), ofNumbers?_eq_some_iff]
      omega

end Date

/-! ## Timestamps -/

/-- Whether the time is part of a leap second. -/
def TimeOfDay.IsLeapSecond (t : TimeOfDay) : Prop := nanosPerSecond ≤ t.nanos

instance (t : TimeOfDay) : Decidable t.IsLeapSecond :=
  inferInstanceAs (Decidable (nanosPerSecond ≤ t.nanos))

namespace Timestamp

/-- Outside a leap second only the seconds of the day move, and the day with them where they leave
it. -/
theorem shift?_eq_some_iff {t s : Timestamp} {offset : UtcOffset} (ht : ¬t.time.IsLeapSecond) :
    t.shift? offset = some s ↔
      (if (t.time.second : Int) + offset.seconds < 0 then t.date.previous?
        else if (t.time.second : Int) + offset.seconds < 86400 then some t.date
        else t.date.next?) = some s.date ∧
      (s.time.second : Int) = (t.time.second + offset.seconds) % 86400 ∧
      s.time.nanos = t.time.nanos := by
  have hstay : leaveLeapSecond t.time offset.seconds = ((t.time.second : Int), t.time.nanos) :=
    if_pos (Or.inl (Nat.lt_of_not_le ht))
  simp only [shift?, hstay, Option.map_eq_some_iff]
  have hmod := Int.emod_nonneg (t.time.second + offset.seconds) (by decide : (86400 : Int) ≠ 0)
  constructor
  · rintro ⟨day, hday, rfl⟩
    exact ⟨hday, Int.toNat_of_nonneg hmod, rfl⟩
  · rintro ⟨hday, hsecond, hnanos⟩
    refine ⟨s.date, hday, ?_⟩
    obtain ⟨date, second, nanos, _, _⟩ := s
    simp only at hsecond hnanos
    congr
    · omega
    · exact hnanos.symm

/-- What an offset has moved, the same distance the other way moves back. -/
theorem shift?_neg {t s : Timestamp} {offset : UtcOffset} (ht : ¬t.time.IsLeapSecond)
    (h : t.shift? offset = some s) : s.shift? offset.neg = some t := by
  obtain ⟨hday, hsecond, hnanos⟩ := (shift?_eq_some_iff ht).1 h
  have hs : ¬s.time.IsLeapSecond := by rwa [TimeOfDay.IsLeapSecond, hnanos]
  have hlt := t.time.second_lt
  have hneg : offset.neg.seconds = -offset.seconds := rfl
  have hinside := offset.inside
  rw [shift?_eq_some_iff hs, hneg]
  refine ⟨?_, by omega, hnanos.symm⟩
  split at hday
  · rw [if_neg (by omega), if_neg (by omega)]
    exact Date.next?_of_previous? hday
  · split at hday
    · rw [if_neg (by omega), if_pos (by omega)]
      exact hday.symm
    · rw [if_pos (by omega)]
      exact Date.previous?_of_next? hday

/-- Local time that is brought to UTC is read as the same local time. -/
theorem ofUtc?_of_toUtc? {t s : Timestamp} {zone : UtcOffset} (ht : ¬t.time.IsLeapSecond)
    (h : t.toUtc? zone = some s) : s.ofUtc? zone = some t := by
  have hback := shift?_neg ht h
  have hneg : zone.neg.neg = zone := by
    obtain ⟨seconds, _⟩ := zone
    simp only [UtcOffset.neg, neg_neg]
  rwa [hneg] at hback

end Timestamp

end SqlDialects
