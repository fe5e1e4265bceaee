import Mathlib.Algebra.Order.Ring.Int
import Mathlib.Logic.Function.Iterate

/-!
# The calendar

The dates of the Gregorian calendar, in all years. A date has a number, counted from the day before
the first of January of the year 1 (`Date.number`); the day before a date has the number before
(`Date.number_pred`), and dates are in the order of their numbers (`Date.number_lt_iff`).
-/

namespace Calendar

/-- A year with 29 days in February. -/
def leap (year : Int) : Bool := year % 4 = 0 && (year % 100 ≠ 0 || year % 400 = 0)

/-- The days of a month. -/
def monthDays (year : Int) (month : Nat) : Nat :=
  if month = 2 then if leap year then 29 else 28
  else if month = 4 ∨ month = 6 ∨ month = 9 ∨ month = 11 then 30
  else 31

/-- A date. -/
@[ext] structure Date where
  year : Int
  month : Nat
  day : Nat
  month_pos : 0 < month
  month_le : month ≤ 12
  day_pos : 0 < day
  day_le : day ≤ monthDays year month

/-- The days of a year before a month. -/
def daysBeforeMonth (year : Int) : (month : Nat) → Nat
  | 0 => 0
  | 1 => 0
  | month + 2 => daysBeforeMonth year (month + 1) + monthDays year (month + 1)

/-- The days before a year, from the year 1 on. -/
def daysBeforeYear (year : Int) : Int := 365 * (year - 1) + (year - 1) / 4 - (year - 1) / 100 + (year - 1) / 400

section
variable {year : Int} {month m : Nat}

/-! ## Months and years -/

theorem monthDays_pos (year : Int) (month : Nat) : 0 < monthDays year month := by
  unfold monthDays
  split
  · split <;> decide
  · split <;> decide

theorem daysBeforeMonth_add_le (year : Int) (hm : 0 < m) (h : m < month) :
    daysBeforeMonth year m + monthDays year m ≤ daysBeforeMonth year month := by
  induction month with
  | zero => omega
  | succ month ih =>
    obtain ⟨k, rfl⟩ : ∃ k, month = k + 1 := ⟨month - 1, by omega⟩
    have hlast : daysBeforeMonth year (k + 1 + 1) = daysBeforeMonth year (k + 1) + monthDays year (k + 1) := rfl
    rcases Nat.lt_or_ge m (k + 1) with hlt | hge
    · have := ih hlt
      omega
    · obtain rfl : m = k + 1 := by omega
      exact hlast.ge

theorem daysBeforeMonth_december (year : Int) :
    daysBeforeMonth year 12 + 31 = 365 + if leap year then 1 else 0 := by
  simp only [daysBeforeMonth, monthDays, Nat.reduceAdd, Nat.reduceEqDiff, if_true, if_false, or_false, or_true]
  split <;> rfl

theorem daysBeforeYear_succ (year : Int) :
    daysBeforeYear (year + 1) = daysBeforeYear year + 365 + if leap year then 1 else 0 := by
  unfold daysBeforeYear leap
  simp only [Bool.and_eq_true, Bool.or_eq_true, decide_eq_true_eq]
  split <;> omega

theorem daysBeforeYear_mono {year year' : Int} (h : year ≤ year') : daysBeforeYear year ≤ daysBeforeYear year' := by
  unfold daysBeforeYear
  omega

end

namespace Date

/-- The number of a date. -/
def number (d : Date) : Int := daysBeforeYear d.year + daysBeforeMonth d.year d.month + d.day

/-- A date is before another. -/
def Before (a b : Date) : Prop :=
  a.year < b.year ∨ a.year = b.year ∧ (a.month < b.month ∨ a.month = b.month ∧ a.day < b.day)

/-- The day before a date. -/
def pred (d : Date) : Date :=
  if hday : 1 < d.day then
    ⟨d.year, d.month, d.day - 1, d.month_pos, d.month_le, Nat.sub_pos_of_lt hday, (Nat.sub_le _ _).trans d.day_le⟩
  else if hmonth : 1 < d.month then
    ⟨d.year, d.month - 1, monthDays d.year (d.month - 1), Nat.sub_pos_of_lt hmonth,
      (Nat.sub_le _ _).trans d.month_le, monthDays_pos _ _, le_rfl⟩
  else ⟨d.year - 1, 12, 31, Nat.succ_pos _, le_rfl, Nat.succ_pos _, le_rfl⟩

variable {a b d : Date}

/-! ## The order -/

/-- The last day of a year is its three hundred and sixty-fifth, or the one after. -/
theorem number_le (d : Date) : d.number ≤ daysBeforeYear (d.year + 1) := by
  have hmonth : daysBeforeMonth d.year d.month + d.day ≤ daysBeforeMonth d.year 12 + 31 := by
    have hday := d.day_le
    rcases Nat.lt_or_ge d.month 12 with hlt | hge
    · have := daysBeforeMonth_add_le d.year d.month_pos hlt
      omega
    · have hdecember : d.month = 12 := le_antisymm d.month_le hge
      rw [hdecember] at hday ⊢
      exact Nat.add_le_add_left hday _
  rw [daysBeforeMonth_december] at hmonth
  unfold number
  rw [daysBeforeYear_succ]
  split at hmonth <;> split <;> omega

theorem lt_number (d : Date) : daysBeforeYear d.year < d.number := by
  have hday := d.day_pos
  unfold number
  omega

theorem Before.number_lt (h : a.Before b) : a.number < b.number := by
  rcases h with hyear | ⟨hyear, hmonth | ⟨hmonth, hday⟩⟩
  · calc a.number ≤ daysBeforeYear (a.year + 1) := a.number_le
      _ ≤ daysBeforeYear b.year := daysBeforeYear_mono hyear
      _ < b.number := b.lt_number
  · have hdays := daysBeforeMonth_add_le b.year a.month_pos hmonth
    have hle := a.day_le
    have hpos := b.day_pos
    unfold number
    rw [hyear] at hle ⊢
    omega
  · unfold number
    rw [hyear, hmonth]
    omega

/-- Dates are in the order of their numbers. -/
theorem number_lt_iff : a.number < b.number ↔ a.Before b := by
  refine ⟨fun h => ?_, Before.number_lt⟩
  by_contra hnot
  have hcases : b.Before a ∨ a.year = b.year ∧ a.month = b.month ∧ a.day = b.day := by
    unfold Before at hnot ⊢
    omega
  rcases hcases with hba | ⟨hyear, hmonth, hday⟩
  · exact absurd (h.trans hba.number_lt) (lt_irrefl _)
  · obtain rfl := Date.ext hyear hmonth hday
    exact lt_irrefl _ h

/-! ## Days before -/

theorem number_pred (d : Date) : d.pred.number = d.number - 1 := by
  unfold pred
  split
  · unfold number
    dsimp only
    omega
  · next hday =>
    have hfirst : d.day = 1 := by
      have := d.day_pos
      omega
    split
    · next hmonth =>
      obtain ⟨k, hk⟩ : ∃ k, d.month = k + 2 := ⟨d.month - 2, by omega⟩
      unfold number
      dsimp only
      rw [hfirst, hk]
      have hlast : daysBeforeMonth d.year (k + 2) = daysBeforeMonth d.year (k + 1) + monthDays d.year (k + 1) := rfl
      rw [hlast, Nat.add_sub_cancel (k + 1) 1]
      omega
    · next hmonth =>
      have hjanuary : d.month = 1 := by
        have := d.month_pos
        omega
      have hyear := daysBeforeYear_succ (d.year - 1)
      have hdecember := daysBeforeMonth_december (d.year - 1)
      rw [sub_add_cancel] at hyear
      unfold number
      dsimp only
      rw [hfirst, hjanuary]
      have hnone : daysBeforeMonth d.year 1 = 0 := rfl
      rw [hnone]
      cases hleap : leap (d.year - 1) with
      | true =>
        rw [hleap, if_pos rfl] at hyear hdecember
        omega
      | false =>
        rw [hleap, if_neg Bool.false_ne_true] at hyear hdecember
        omega

theorem number_pred_iterate (d : Date) (n : Nat) : (pred^[n] d).number = d.number - n := by
  induction n with
  | zero => exact (sub_zero _).symm
  | succ n ih =>
    rw [Function.iterate_succ_apply', number_pred, ih]
    omega

end Date

end Calendar
