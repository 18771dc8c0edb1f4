import Mathlib.Algebra.GroupWithZero.Nat
import Mathlib.Tactic.SplitIfs
import NoteSearch.Calendar.Date

/-!
# Days and dates

Every day has a date of the calendar, and counting the days up to that date gives the day back:
before 1970 as after it, and whatever the leap years in between.
-/

namespace NoteSearch
namespace CivilDate

/-- A year has as many days as its months have together. -/
theorem daysBeforeYear_succ (year : Int) :
    daysBeforeYear (year + 1) =
      daysBeforeYear year + ((monthLengths (isLeapYear year)).sum : Nat) := by
  cases hleap : isLeapYear year with
  | false =>
    have hsum : (monthLengths false).sum = 365 := by decide
    simp only [isLeapYear, Bool.and_eq_false_iff, Bool.or_eq_false_iff, beq_eq_false_iff_ne,
      bne_eq_false_iff_eq] at hleap
    rw [hsum]
    unfold daysBeforeYear
    omega
  | true =>
    have hsum : (monthLengths true).sum = 366 := by decide
    simp only [isLeapYear, Bool.and_eq_true, Bool.or_eq_true, beq_iff_eq, bne_iff_ne] at hleap
    rw [hsum]
    unfold daysBeforeYear
    omega

/-- The first guess misses the year by one at most, since no year strays from the mean length of a
year by more than two days. -/
theorem yearOf_spec (days : Int) :
    daysBeforeYear (yearOf days) ≤ days ∧ days < daysBeforeYear (yearOf days + 1) := by
  unfold yearOf
  dsimp only
  split_ifs with hbefore hafter
  · refine ⟨?_, by simpa using hbefore⟩
    unfold daysBeforeYear
    omega
  · refine ⟨hafter, ?_⟩
    unfold daysBeforeYear
    omega
  · exact ⟨Int.not_lt.mp hbefore, Int.not_le.mp hafter⟩

/-- The month is the last one that starts by the day. -/
theorem monthFrom_spec (lengths : List Nat) :
    ∀ month day, day < lengths.sum → ∃ i d, ∃ h : i < lengths.length,
      monthFrom month lengths day = (month + i, d + 1) ∧ (lengths.take i).sum + d = day ∧
        d < lengths[i] := by
  induction lengths with
  | nil => exact fun month day h => absurd h (Nat.not_lt_zero day)
  | cons length rest ih =>
    intro month day h
    rw [List.sum_cons] at h
    by_cases hday : day < length
    · refine ⟨0, day, Nat.zero_lt_succ _, ?_, by simp, hday⟩
      cases rest with
      | nil => rfl
      | cons _ _ => exact if_pos hday
    · obtain ⟨i, d, hi, hmonth, hsum, hd⟩ := ih (month + 1) (day - length) (by omega)
      refine ⟨i + 1, d, Nat.succ_lt_succ hi, ?_, ?_, hd⟩
      · obtain ⟨next, others, rfl⟩ := List.exists_cons_of_length_pos (Nat.zero_lt_of_lt hi)
        have hnext : monthFrom month (length :: next :: others) day =
            monthFrom (month + 1) (next :: others) (day - length) := if_neg hday
        rw [hnext, hmonth, Nat.add_assoc, Nat.add_comm 1 i]
      · rw [List.take_succ_cons, List.sum_cons]
        omega

theorem length_monthLengths (leap : Bool) : (monthLengths leap).length = 12 := rfl

theorem month_ofDays (days : Int) :
    ∃ i d, ∃ h : i < (monthLengths (isLeapYear (ofDays days).year)).length,
      (ofDays days).month = i + 1 ∧ (ofDays days).day = d + 1 ∧
        daysBeforeYear (ofDays days).year +
          (((monthLengths (isLeapYear (ofDays days).year)).take i).sum + d : Nat) = days + epoch ∧
          d < (monthLengths (isLeapYear (ofDays days).year))[i] := by
  have hyear := yearOf_spec (days + epoch)
  rw [daysBeforeYear_succ] at hyear
  obtain ⟨i, d, hi, hmonth, hsum, hd⟩ := monthFrom_spec
    (monthLengths (isLeapYear (yearOf (days + epoch)))) 1
    (days + epoch - daysBeforeYear (yearOf (days + epoch))).toNat (by omega)
  have hdate : ofDays days = ⟨yearOf (days + epoch), i + 1, d + 1⟩ := by
    simp only [ofDays, hmonth, Nat.add_comm 1 i]
  rw [hdate]
  refine ⟨i, d, hi, rfl, rfl, ?_, hd⟩
  dsimp only
  omega

theorem toDays_ofDays (days : Int) : (ofDays days).toDays = days := by
  obtain ⟨i, d, -, hmonth, hday, hsum, -⟩ := month_ofDays days
  rw [toDays, daysBeforeMonth, hmonth, hday, Nat.add_sub_cancel, ← List.sum_eq_foldl]
  omega

theorem isValid_ofDays (days : Int) : (ofDays days).isValid = true := by
  obtain ⟨i, d, hi, hmonth, hday, -, hd⟩ := month_ofDays days
  have hlength : daysInMonth (ofDays days).year (ofDays days).month =
      (monthLengths (isLeapYear (ofDays days).year))[i] := by
    rw [daysInMonth, hmonth, if_neg (Nat.succ_ne_zero i), Nat.add_sub_cancel,
      List.getD_eq_getElem?_getD, List.getElem?_eq_getElem hi, Option.getD_some]
  rw [length_monthLengths] at hi
  simp only [isValid, hlength, Bool.and_eq_true, decide_eq_true_eq]
  omega

theorem bounds_of_isValid {d : CivilDate} (h : d.isValid = true) :
    1 ≤ d.month ∧ d.month ≤ 12 ∧ 1 ≤ d.day ∧
      d.day ≤ (monthLengths (isLeapYear d.year)).getD (d.month - 1) 0 := by
  simp only [isValid, Bool.and_eq_true, decide_eq_true_eq] at h
  obtain ⟨⟨⟨hmonth, hmonth'⟩, hday⟩, hday'⟩ := h
  rw [daysInMonth, if_neg (by omega)] at hday'
  exact ⟨hmonth, hmonth', hday, hday'⟩

theorem le_of_isValid {d : CivilDate} (h : d.isValid = true) : d.month ≤ 12 ∧ d.day ≤ 31 := by
  obtain ⟨-, hmonth, -, hday⟩ := bounds_of_isValid h
  have hlengths : ∀ leap, ∀ i < 12, (monthLengths leap).getD i 0 ≤ 31 := by decide
  have hlength := hlengths (isLeapYear d.year) (d.month - 1) (by omega)
  omega

theorem daysBeforeYear_mono {a b : Int} (h : a ≤ b) : daysBeforeYear a ≤ daysBeforeYear b := by
  unfold daysBeforeYear
  omega

theorem daysBeforeMonth_add_le (leap : Bool) {month month' : Nat} (hpos : 1 ≤ month)
    (hlt : month < month') (hle : month' ≤ 12) :
    daysBeforeMonth leap month + (monthLengths leap).getD (month - 1) 0 ≤
      daysBeforeMonth leap month' := by
  have hmonths : ∀ leap, ∀ later ≤ 12, ∀ month < later, 1 ≤ month →
      daysBeforeMonth leap month + (monthLengths leap).getD (month - 1) 0 ≤
        daysBeforeMonth leap later := by decide
  exact hmonths leap month' hle month hlt hpos

theorem daysBeforeMonth_add_le_sum (leap : Bool) {month : Nat} (hpos : 1 ≤ month)
    (hle : month ≤ 12) :
    daysBeforeMonth leap month + (monthLengths leap).getD (month - 1) 0 ≤
      (monthLengths leap).sum := by
  have hmonths : ∀ leap, ∀ month ≤ 12, 1 ≤ month →
      daysBeforeMonth leap month + (monthLengths leap).getD (month - 1) 0 ≤
        (monthLengths leap).sum := by decide
  exact hmonths leap month hle hpos

/-- The days of valid dates are counted in the order of year, month and day. -/
theorem toDays_lt {a b : CivilDate} (ha : a.isValid = true) (hb : b.isValid = true)
    (h : a.year < b.year ∨
      a.year = b.year ∧ (a.month < b.month ∨ a.month = b.month ∧ a.day < b.day)) :
    a.toDays < b.toDays := by
  obtain ⟨hmonth, hmonth', hday, hday'⟩ := bounds_of_isValid ha
  obtain ⟨-, hmonthb, hdayb, -⟩ := bounds_of_isValid hb
  unfold toDays
  rcases h with hyear | ⟨hyear, hmonths | ⟨hmonths, hdays⟩⟩
  · have hsum := daysBeforeMonth_add_le_sum (isLeapYear a.year) hmonth hmonth'
    have hnext := daysBeforeYear_succ a.year
    have hmono := daysBeforeYear_mono (Int.add_one_le_of_lt hyear)
    omega
  · have hlater := daysBeforeMonth_add_le (isLeapYear a.year) hmonth hmonths hmonthb
    rw [← hyear]
    omega
  · rw [← hyear, ← hmonths]
    omega

end CivilDate
end NoteSearch
