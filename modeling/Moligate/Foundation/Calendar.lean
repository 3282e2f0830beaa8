import Mathlib

namespace Moligate.Foundation.Calendar

/-- First day of a month of the proleptic Gregorian calendar, in days since 1970-01-01. Months
are numbered `12 * year + (month - 1)`; years are counted from March, so that a leap day is the
last day of its year. -/
def monthStart (m : ℤ) : ℤ :=
  let y := (m - 2) / 12
  let p := (m - 2) % 12
  365 * y + y / 4 - y / 100 + y / 400 + (153 * p + 2) / 5 - 719468

example : monthStart (12 * 1970) = 0 := by decide
example : monthStart (12 * 2024 + 2) - monthStart (12 * 2024 + 1) = 29 := by decide

/-- The month that contains a day: an estimate from the mean month length, corrected by one. -/
def monthOfDay (d : ℤ) : ℤ :=
  let m := 4800 * (d + 719468) / 146097 + 2
  if d < monthStart m then m - 1 else if monthStart (m + 1) ≤ d then m + 1 else m

theorem monthStart_succ_within (m : ℤ) :
    monthStart m + 28 ≤ monthStart (m + 1) ∧ monthStart (m + 1) ≤ monthStart m + 31 := by
  obtain ⟨y, p, hp, rfl⟩ : ∃ y p : ℤ, (0 ≤ p ∧ p < 12) ∧ m = 12 * y + p + 2 :=
    ⟨(m - 2) / 12, (m - 2) % 12, by omega, by omega⟩
  have hy : (12 * y + p + 2 - 2) / 12 = y := by omega
  have hr : (12 * y + p + 2 - 2) % 12 = p := by omega
  rcases lt_or_ge p 11 with h | h
  · have hy' : (12 * y + p + 2 + 1 - 2) / 12 = y := by omega
    have hr' : (12 * y + p + 2 + 1 - 2) % 12 = p + 1 := by omega
    simp only [monthStart, hy, hr, hy', hr']
    omega
  · obtain rfl : p = 11 := by omega
    have hy' : (12 * y + 11 + 2 + 1 - 2) / 12 = y + 1 := by omega
    have hr' : (12 * y + 11 + 2 + 1 - 2) % 12 = 0 := by omega
    simp only [monthStart, hy, hr, hy', hr']
    omega

/-- The first day of a month lies within three days of its place among months of mean length. -/
theorem monthStart_near_mean (m : ℤ) :
    146097 * (m - 2) - 4 * 4800 ≤ 4800 * (monthStart m + 719468) ∧
      4800 * (monthStart m + 719468) ≤ 146097 * (m - 2) + 4 * 4800 := by
  simp only [monthStart]
  omega

theorem monthOfDay_spec (d : ℤ) :
    monthStart (monthOfDay d) ≤ d ∧ d < monthStart (monthOfDay d + 1) := by
  set m := 4800 * (d + 719468) / 146097 + 2 with hm
  have below := (monthStart_near_mean (m - 1)).2
  have above := (monthStart_near_mean (m + 1 + 1)).1
  have hlow : monthStart (m - 1) ≤ d := by omega
  have hhigh : d < monthStart (m + 1 + 1) := by omega
  rw [monthOfDay]
  split
  next h => exact ⟨hlow, by simpa using h⟩
  · split
    next h => exact ⟨h, hhigh⟩
    next h₁ h₂ => exact ⟨not_lt.1 h₁, not_le.1 h₂⟩

def monthLength (m : ℤ) : ℤ := monthStart (m + 1) - monthStart m

theorem monthLength_pos (m : ℤ) : 28 ≤ monthLength m := by
  have := (monthStart_succ_within m).1
  rw [monthLength]
  omega

theorem monthStart_strictMono : StrictMono monthStart :=
  strictMono_int_of_lt_succ fun m ↦ by
    have := monthLength_pos m
    rw [monthLength] at this
    omega

theorem monthOfDay_eq {d m : ℤ} (h : monthStart m ≤ d) (h' : d < monthStart (m + 1)) :
    monthOfDay d = m := by
  obtain ⟨hlow, hhigh⟩ := monthOfDay_spec d
  have h₁ : m < monthOfDay d + 1 := monthStart_strictMono.lt_iff_lt.1 (lt_of_le_of_lt h hhigh)
  have h₂ : monthOfDay d < m + 1 := monthStart_strictMono.lt_iff_lt.1 (lt_of_le_of_lt hlow h')
  omega

def clampedDay (m day : ℤ) : ℤ := monthStart m + min day (monthLength m) - 1

theorem clampedDay_mem {m day : ℤ} (h : 1 ≤ day) :
    monthStart m ≤ clampedDay m day ∧ clampedDay m day < monthStart (m + 1) := by
  have := monthLength_pos m
  rw [clampedDay]
  rw [monthLength] at *
  omega

theorem clampedDay_strictMono {day : ℤ} (h : 1 ≤ day) : StrictMono (clampedDay · day) :=
  strictMono_int_of_lt_succ fun _ ↦ (clampedDay_mem h).2.trans_le (clampedDay_mem h).1

end Moligate.Foundation.Calendar
