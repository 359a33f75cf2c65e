import Mathlib.Order.Monotone.Basic
import Mathlib.Tactic.IntervalCases
import Mathlib.Algebra.Order.Group.Int
import Mathlib.Algebra.Order.Group.Abs
import Mathlib.Order.SuccPred.IntervalSucc
import Mathlib.Data.Int.LeastGreatest

/-! Days and months. A calendar cuts the days, numbered in both directions, into
months of at least two days each, numbered in both directions as well; the day of
the month and how far two days are apart by it follow. The Gregorian calendar is
one of them. A clock shows a day at every moment. Nothing in this file is about
one program. -/
namespace WorkerInformer.Calendar

/-- The months of a calendar by their first days. -/
structure Months where
  firstDay : ℤ → ℤ
  monthOf : ℤ → ℤ
  begun : ∀ day, firstDay (monthOf day) ≤ day
  notOver : ∀ day, day < firstDay (monthOf day + 1)
  long : ∀ month, firstDay month + 2 ≤ firstDay (month + 1)

namespace Months
variable (months : Months)

/-- The day of the month, from 1 on. -/
def dayOfMonth (day : ℤ) : ℤ := day - months.firstDay (months.monthOf day) + 1

def daysIn (month : ℤ) : ℤ := months.firstDay (month + 1) - months.firstDay month

/-- How far the days of the month are apart. -/
def apart (one other : ℤ) : ℤ := |months.dayOfMonth other - months.dayOfMonth one|

theorem firstDay_lt_iff {one other : ℤ} : months.firstDay one < months.firstDay other ↔ one < other := by
  apply StrictMono.lt_iff_lt
  apply strictMono_int_of_lt_succ
  intro month
  have long := months.long month
  omega

/-- A day between the first days of two months that follow each other. -/
theorem monthOf_eq {month day : ℤ} (begun : months.firstDay month ≤ day) (notOver : day < months.firstDay (month + 1)) :
    months.monthOf day = month := by
  have before := months.firstDay_lt_iff.mp (Int.lt_of_le_of_lt begun (months.notOver day))
  have behind := months.firstDay_lt_iff.mp (Int.lt_of_le_of_lt (months.begun day) notOver)
  omega

theorem two_le_daysIn (month : ℤ) : 2 ≤ months.daysIn month := by
  have long := months.long month
  rw [daysIn]
  omega

theorem dayOfMonth_pos (day : ℤ) : 1 ≤ months.dayOfMonth day := by
  have begun := months.begun day
  rw [dayOfMonth]
  omega

/-- Within a month the days are apart by their number. -/
theorem apart_within {one other : ℤ} (ordered : one ≤ other)
    (within : other < months.firstDay (months.monthOf one + 1)) : months.apart one other = other - one := by
  have same := months.monthOf_eq (Int.le_trans (months.begun one) ordered) within
  rw [apart, dayOfMonth, dayOfMonth, same, abs_of_nonneg (by omega)]
  omega

/-- The first two days of the next month. -/
theorem apart_next (one : ℤ) :
    months.apart one (months.firstDay (months.monthOf one + 1)) = months.dayOfMonth one - 1 ∧
      months.apart one (months.firstDay (months.monthOf one + 1) + 1) = |2 - months.dayOfMonth one| := by
  have long := months.long (months.monthOf one + 1)
  have positive := months.dayOfMonth_pos one
  have first := months.monthOf_eq (Int.le_refl (months.firstDay (months.monthOf one + 1))) (by omega)
  have second : months.monthOf (months.firstDay (months.monthOf one + 1) + 1) = months.monthOf one + 1 :=
    months.monthOf_eq (by omega) (by omega)
  constructor
  · rw [apart, dayOfMonth, first, Int.sub_self, abs_of_nonpos (by omega)]
    omega
  · rw [apart, dayOfMonth, second]
    congr 1
    omega

/-- **Days of the month only grow apart within a month**, or up to the first day
of the next one from a day behind the middle of the month. They are counted from a
day on, or from the next. -/
theorem apart_monotone_iff {one first : ℤ} (last : ℤ) (from_one : one ≤ first) (at_most : first ≤ one + 1) :
    (∀ earlier later, first ≤ earlier → earlier ≤ later → later ≤ last →
        months.apart one earlier ≤ months.apart one later) ↔
      last < months.firstDay (months.monthOf one + 1) ∨
        last = months.firstDay (months.monthOf one + 1) ∧
          months.daysIn (months.monthOf one) < 2 * months.dayOfMonth one := by
  obtain ⟨turned, second⟩ := months.apart_next one
  have not_over := months.notOver one
  have positive := months.dayOfMonth_pos one
  have two := months.two_le_daysIn (months.monthOf one)
  have to_end : months.firstDay (months.monthOf one + 1) - one =
      months.daysIn (months.monthOf one) - months.dayOfMonth one + 1 := by
    rw [daysIn, dayOfMonth]
    omega
  have within := fun {other : ℤ} => @apart_within months one other
  generalize months.firstDay (months.monthOf one + 1) = next at *
  constructor
  · intro grows
    rcases Int.lt_or_le last next with inside | reached
    · exact .inl inside
    right
    have behind_middle : months.daysIn (months.monthOf one) < 2 * months.dayOfMonth one := by
      rcases Int.lt_or_le (next - 1) first with starts_there | earlier_start
      · omega
      have turn := grows (next - 1) next earlier_start (by omega) reached
      rw [within (by omega) (by omega), turned] at turn
      omega
    refine ⟨?_, behind_middle⟩
    by_contra beyond
    have fall := grows next (next + 1) (by omega) (by omega) (by omega)
    rw [turned, second] at fall
    rw [abs_of_nonpos (by omega)] at fall
    omega
  · intro bound earlier later begins ordered ends
    rcases Int.lt_or_le later next with inside | reached
    · rw [within (by omega) (by omega), within (by omega) inside]
      omega
    · obtain rfl : later = next := by omega
      rcases Int.lt_or_eq_of_le ordered with before | rfl
      · rw [within (by omega) before, turned]
        omega
      · exact Int.le_refl _

end Months

/-! ## The Gregorian calendar

Days are counted from the first of January 1970. Years are taken from March on, so
that the leap day is the last day of a year, and months from March of the year 0. -/

namespace Gregorian

/-- The first of March of a year. -/
def firstOfMarch (year : ℤ) : ℤ := 365 * year + year / 4 - year / 100 + year / 400 - 719468

/-- 1 in a leap year and 0 in any other. -/
def leap (year : ℤ) : ℤ := if year % 4 = 0 ∧ (year % 100 ≠ 0 ∨ year % 400 = 0) then 1 else 0

/-- The year by the mean length of years, put right by one. -/
def yearOf (day : ℤ) : ℤ :=
  let year := (day + 719468) * 400 / 146097
  if day < firstOfMarch year then year - 1
  else if firstOfMarch (year + 1) ≤ day then year + 1
  else year

def firstDay (month : ℤ) : ℤ := firstOfMarch (month / 12) + (153 * (month % 12) + 2) / 5

def monthOf (day : ℤ) : ℤ := 12 * yearOf day + (5 * (day - firstOfMarch (yearOf day)) + 2) / 153

/-- The leap day belongs to the year that ends with it. -/
theorem firstOfMarch_succ (year : ℤ) : firstOfMarch (year + 1) = firstOfMarch year + 365 + leap (year + 1) := by
  simp only [firstOfMarch, leap]
  split <;> omega

theorem leap_cases (year : ℤ) : leap year = 0 ∨ leap year = 1 := by
  rw [leap]
  split <;> simp

/-- A day is in its year. -/
theorem yearOf_spec (day : ℤ) : firstOfMarch (yearOf day) ≤ day ∧ day < firstOfMarch (yearOf day + 1) := by
  obtain ⟨year, estimate⟩ : ∃ year, year = (day + 719468) * 400 / 146097 := ⟨_, rfl⟩
  have before : firstOfMarch (year - 1) ≤ day := by
    rw [firstOfMarch]
    omega
  have behind : day < firstOfMarch (year + 1 + 1) := by
    rw [firstOfMarch]
    omega
  simp only [yearOf, ← estimate]
  split
  · rw [Int.sub_add_cancel]
    exact ⟨before, by assumption⟩
  split
  · exact ⟨by assumption, behind⟩
  · omega

theorem firstDay_of_year {year month : ℤ} (begun : 0 ≤ month) (inYear : month ≤ 11) :
    firstDay (12 * year + month) = firstOfMarch year + (153 * month + 2) / 5 := by
  rw [firstDay, show (12 * year + month) / 12 = year by omega, show (12 * year + month) % 12 = month by omega]

/-- The month behind February is the first one of the next year. -/
theorem firstDay_succ {year month : ℤ} (begun : 0 ≤ month) (inYear : month ≤ 11) :
    firstDay (12 * year + month + 1) =
      if month = 11 then firstOfMarch (year + 1) else firstOfMarch year + (153 * (month + 1) + 2) / 5 := by
  split
  · subst month
    rw [firstDay, show (12 * year + 11 + 1) / 12 = year + 1 by omega, show (12 * year + 11 + 1) % 12 = 0 by omega]
    omega
  · rw [Int.add_assoc, firstDay_of_year (by omega) (by omega)]

theorem monthOf_spec (day : ℤ) : firstDay (monthOf day) ≤ day ∧ day < firstDay (monthOf day + 1) := by
  obtain ⟨begun, not_over⟩ := yearOf_spec day
  have length := firstOfMarch_succ (yearOf day)
  have leap_day := leap_cases (yearOf day + 1)
  rw [monthOf, firstDay_of_year (by omega) (by omega), firstDay_succ (by omega) (by omega)]
  split <;> omega

/-- **The months have their lengths**: from March on 31, 30, 31, 30, 31, 31, 30, 31,
30, 31, 31 days, and 28 or 29 in February. -/
theorem firstDay_add_one (month : ℤ) :
    firstDay (month + 1) = firstDay month +
      if month % 12 = 11 then 28 + leap (month / 12 + 1)
      else if month % 12 ∈ [1, 3, 6, 8] then 30 else 31 := by
  have parts : month = 12 * (month / 12) + month % 12 := by omega
  have next := @firstDay_succ (month / 12) (month % 12) (by omega) (by omega)
  rw [← parts] at next
  have begun : 0 ≤ month % 12 := by omega
  have inYear : month % 12 ≤ 11 := by omega
  rw [next, firstDay, firstOfMarch_succ]
  generalize month % 12 = inner at *
  interval_cases inner <;> simp <;> omega

theorem firstDay_long (month : ℤ) : firstDay month + 2 ≤ firstDay (month + 1) := by
  have leap_day := leap_cases (month / 12 + 1)
  rw [firstDay_add_one]
  split
  · omega
  split <;> omega

end Gregorian

/-- The Gregorian calendar. -/
def gregorian : Months where
  firstDay := Gregorian.firstDay
  monthOf := Gregorian.monthOf
  begun day := (Gregorian.monthOf_spec day).1
  notOver day := (Gregorian.monthOf_spec day).2
  long := Gregorian.firstDay_long

/-- The 29th of February 2000 and the day behind the 28th of February 2100. -/
example : gregorian.dayOfMonth 11016 = 29 ∧ gregorian.dayOfMonth 47541 = 1 := by decide

/-! ## Clocks -/

/-- The days that a clock shows at the moments of a count: they come one after
another and do not end. A clock that is put forward or back within a day is one. -/
structure Clock where
  day : ℤ → ℤ
  forward : ∀ moment, day moment ≤ day (moment + 1)
  oneByOne : ∀ moment, day (moment + 1) ≤ day moment + 1
  endless : ∀ bound, ∃ moment, bound ≤ day moment

namespace Clock
variable (clock : Clock)

theorem day_mono {earlier later : ℤ} (ordered : earlier ≤ later) : clock.day earlier ≤ clock.day later :=
  monotone_int_of_le_succ clock.forward ordered

/-- The first moment of a day, from another moment on. -/
theorem exists_first {first day : ℤ} (begun : clock.day first ≤ day) :
    ∃ moment, first ≤ moment ∧ clock.day moment = day ∧
      ∀ other, first ≤ other → day ≤ clock.day other → moment ≤ other := by
  obtain ⟨reached, there⟩ := clock.endless day
  have reaches : first ≤ max first reached ∧ day ≤ clock.day (max first reached) :=
    ⟨Int.le_max_left _ _, Int.le_trans there (clock.day_mono (Int.le_max_right _ _))⟩
  obtain ⟨moment, ⟨from_first, shows⟩, least⟩ :=
    @Int.exists_least_of_bdd (fun moment => first ≤ moment ∧ day ≤ clock.day moment)
      ⟨first, fun _ from_first => from_first.1⟩ ⟨_, reaches⟩
  refine ⟨moment, from_first, ?_, fun other behind there => least other ⟨behind, there⟩⟩
  rcases Int.lt_or_eq_of_le from_first with behind | rfl
  · have before : ¬ day ≤ clock.day (moment - 1) := by
      intro earlier
      have later := least (moment - 1) ⟨by omega, earlier⟩
      omega
    have next := clock.oneByOne (moment - 1)
    rw [Int.sub_add_cancel] at next
    omega
  · exact Int.le_antisymm begun shows

end Clock

end WorkerInformer.Calendar
