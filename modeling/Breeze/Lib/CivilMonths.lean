import Mathlib.Tactic

/-! Months of the proleptic Gregorian calendar as an increasing sequence of days; day 0 is 1970-01-01. -/

namespace Breeze.Lib.CivilMonths

def yearStart (y : ℤ) : ℤ := 365 * y + (y + 1) / 4 - (y + 69) / 100 + (y + 369) / 400

def leapDays (y : ℤ) : ℤ := yearStart (y + 1) - yearStart y - 365

def daysBefore (leap : ℤ) : ℕ → ℤ
  | 0 => 0
  | 1 => 31
  | 2 => 59 + leap
  | 3 => 90 + leap
  | 4 => 120 + leap
  | 5 => 151 + leap
  | 6 => 181 + leap
  | 7 => 212 + leap
  | 8 => 243 + leap
  | 9 => 273 + leap
  | 10 => 304 + leap
  | _ => 334 + leap

def monthStart (m : ℤ) : ℤ := yearStart (m / 12) + daysBefore (leapDays (m / 12)) (m % 12).toNat

def monthOf (day : ℤ) : ℤ :=
  let m := day * 4800 / 146097
  if monthStart (m + 1) ≤ day then m + 1 else if day < monthStart m then m - 1 else m

lemma leapDays_bounds (y : ℤ) : 0 ≤ leapDays y ∧ leapDays y ≤ 1 := by
  simp only [leapDays, yearStart]
  omega

lemma yearStart_succ (y : ℤ) : yearStart (y + 1) = yearStart y + 365 + leapDays y := by
  simp only [leapDays]
  omega

lemma monthStart_year (y : ℤ) {k : ℕ} (hk : k < 12) : monthStart (12 * y + k) = yearStart y + daysBefore (leapDays y) k := by
  have hdiv : (12 * y + k) / 12 = y := by omega
  have hmod : ((12 * y + k) % 12).toNat = k := by omega
  rw [monthStart, hdiv, hmod]

lemma exists_month (m : ℤ) : ∃ (y : ℤ) (k : ℕ), k < 12 ∧ m = 12 * y + k :=
  ⟨m / 12, (m % 12).toNat, by omega, by omega⟩

lemma monthStart_step (m : ℤ) : monthStart m + 28 ≤ monthStart (m + 1) := by
  obtain ⟨y, k, hk, rfl⟩ := exists_month m
  have hleap := leapDays_bounds y
  rw [monthStart_year y hk]
  by_cases hlast : k = 11
  · have hnext : 12 * y + (k : ℤ) + 1 = 12 * (y + 1) + (0 : ℕ) := by omega
    rw [hnext, monthStart_year _ (by omega), yearStart_succ, hlast]
    simp only [daysBefore]
    omega
  · have hnext : 12 * y + (k : ℤ) + 1 = 12 * y + (k + 1 : ℕ) := by omega
    rw [hnext, monthStart_year _ (by omega)]
    interval_cases k <;> simp only [daysBefore] <;> omega

lemma monthStart_strictMono : StrictMono monthStart :=
  strictMono_int_of_lt_succ fun m => by
    have := monthStart_step m
    omega

lemma monthStart_near (m : ℤ) : 146097 * m - 19200 ≤ 4800 * monthStart m ∧ 4800 * monthStart m ≤ 146097 * m + 19200 := by
  obtain ⟨y, k, hk, rfl⟩ := exists_month m
  have hleap := leapDays_bounds y
  have hyear : 146097 * y - 800 ≤ 400 * yearStart y ∧ 400 * yearStart y ≤ 146097 * y + 800 := by
    simp only [yearStart]
    omega
  rw [monthStart_year y hk]
  interval_cases k <;> simp only [daysBefore] <;> omega

lemma monthOf_spec (day : ℤ) : monthStart (monthOf day) ≤ day ∧ day < monthStart (monthOf day + 1) := by
  have hbefore := monthStart_near (day * 4800 / 146097 - 1)
  have hafter := monthStart_near (day * 4800 / 146097 + 2)
  simp only [monthOf]
  split_ifs with hnext hprev
  · refine ⟨hnext, ?_⟩
    rw [add_assoc, one_add_one_eq_two]
    omega
  · refine ⟨?_, by simpa using hprev⟩
    omega
  · exact ⟨by omega, by omega⟩

lemma monthOf_eq {m day : ℤ} (hstart : monthStart m ≤ day) (hend : day < monthStart (m + 1)) : monthOf day = m := by
  obtain ⟨hle, hlt⟩ := monthOf_spec day
  have hbefore := monthStart_strictMono.lt_iff_lt.mp (hle.trans_lt hend)
  have hafter := monthStart_strictMono.lt_iff_lt.mp (hstart.trans_lt hlt)
  omega

end Breeze.Lib.CivilMonths
