import Breeze.Contracts.PeriodGrid

/-! The period that the renewal pass takes to be due, against the period of the billing grid. -/

namespace Breeze.Contracts.DuePeriod

open ContractMath CalendarDay PeriodGrid

def startMonthDays (s : Day) (n k : ℕ) : ℕ :=
  daysInMonth (monthNumber s (n * k) / 12 : ℕ) (monthNumber s (n * k) % 12 + 1)

lemma periodStart_eq (s : Day) (n k : ℕ) :
    (computePeriod s.iso n k).periodStart = monthText s.d (monthNumber s (n * k)) := by
  rw [computePeriod, ← addMonthsClamped_iso]
  push_cast
  rfl

lemma arrears_eq (s : Day) (n k : ℕ) :
    duePeriodStartFor .arrears (nextBillingDate s.iso n .arrears k) n =
      monthText (min s.d (startMonthDays s n (k + 1))) (monthNumber s (n * k)) := by
  have hend : nextBillingDate s.iso n .arrears k = monthText s.d (monthNumber s (n * (k + 1))) :=
    periodStart_eq s n (k + 1)
  have hstep : monthNumber s (n * (k + 1)) = monthNumber s (n * k) + n := by
    rw [Nat.mul_succ n k]
    exact (Nat.add_assoc _ _ _).symm
  rw [duePeriodStartFor, hend, addMonthsClamped_sub s (by omega), hstep, Nat.add_sub_cancel, ← hstep]
  rfl

theorem due_period_start (s : Day) (n k : ℕ) (timing : BillingTiming) :
    duePeriodStartFor timing (nextBillingDate s.iso n timing k) n = (computePeriod s.iso n k).periodStart ↔
      timing = .advance ∨ min s.d (startMonthDays s n k) ≤ startMonthDays s n (k + 1) := by
  cases timing with
  | advance => exact ⟨fun _ => Or.inl rfl, fun _ => rfl⟩
  | arrears =>
    have hd := s.d_le_31
    rw [arrears_eq, periodStart_eq, monthText_inj (by omega) hd, and_iff_right rfl]
    change min (min s.d (startMonthDays s n (k + 1))) (startMonthDays s n k) = min s.d (startMonthDays s n k) ↔ _
    constructor
    · intro h
      right
      omega
    · rintro (h | h)
      · cases h
      · omega

/-- A monthly contract from 31 January bills its first period on 28 February; a month back from
there is 28 January. -/
theorem due_period_start_lost :
    duePeriodStartFor .arrears (nextBillingDate "2026-01-31".toList 1 .arrears 0) 1 = "2026-01-28".toList ∧
      (computePeriod "2026-01-31".toList 1 0).periodStart = "2026-01-31".toList := by
  decide +kernel

end Breeze.Contracts.DuePeriod
