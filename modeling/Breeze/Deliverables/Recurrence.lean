import Breeze.Contracts.DayNumber

/-! The due dates of a deliverable and the periods they cover. Due dates step from the anchor; a
period steps back from its due date alone and takes a due date at a month's end for an anchor at
the month's end. -/

namespace Breeze.Deliverables.Recurrence

open Breeze.Lib.Decimal Contracts.ContractMath Contracts.CalendarDay Contracts.PeriodGrid Contracts.DayNumber

inductive Cadence where
  | monthly
  | quarterly
  | semiannual
  | annual
  | oneTime
  deriving DecidableEq

def cadenceMonths : Cadence → Option ℕ
  | .monthly => some 1
  | .quarterly => some 3
  | .semiannual => some 6
  | .annual => some 12
  | .oneTime => none

def nthDueDate (anchorDueDate : Text) (cadence : Cadence) (n : ℕ) : Option Text :=
  match cadenceMonths cadence with
  | none => if n = 0 then some anchorDueDate else none
  | some months => some (addMonthsClamped anchorDueDate (months * n))

def isLastDayOfMonth (iso : Text) : Bool := (addDaysISO iso 1).take 7 != iso.take 7

def endOfMonth (iso : Text) : Text :=
  addDaysISO (addMonthsClamped (iso.take 7 ++ "-01".toList) 1) (-1)

def coveredPeriod (dueAt : Text) (cadence : Cadence) : Period :=
  match cadenceMonths cadence with
  | none => ⟨dueAt, dueAt⟩
  | some months =>
    let stepped := addMonthsClamped dueAt (-months)
    let previousDue := if isLastDayOfMonth dueAt then endOfMonth stepped else stepped
    ⟨addDaysISO previousDue 1, dueAt⟩

lemma cadenceMonths_pos {cadence : Cadence} {months : ℕ} (h : cadenceMonths cadence = some months) : 0 < months := by
  cases cadence <;> simp only [cadenceMonths, Option.some.injEq, reduceCtorEq] at h <;> omega

def monthDays (M : ℕ) : ℕ := daysInMonth (M / 12 : ℕ) (M % 12 + 1)

variable {cadence : Cadence} {months : ℕ}

lemma nthDueDate_eq (anchor : StartDay) (h : cadenceMonths cadence = some months) (n : ℕ) :
    nthDueDate anchor.iso cadence n = some (monthText anchor.d (monthNumber anchor.toDay (months * n))) := by
  rw [nthDueDate, h, ← addMonthsClamped_iso]
  push_cast
  rfl

lemma take_isoText (y m d : ℕ) : (isoText y m d).take 7 = padded 4 y ++ '-' :: padded 2 m := by
  have hlen : (padded 4 y ++ '-' :: padded 2 m).length = 7 := by simp
  rw [isoText, ← hlen, show padded 4 y ++ '-' :: (padded 2 m ++ '-' :: padded 2 d) =
    (padded 4 y ++ '-' :: padded 2 m) ++ '-' :: padded 2 d by simp, List.take_left]

lemma take_isoText_ne {y m d y' m' d' : ℕ} (hy : y < 10000) (hy' : y' < 10000) (hm : m < 100) (hm' : m' < 100)
    (h : y ≠ y' ∨ m ≠ m') : (isoText y m d).take 7 ≠ (isoText y' m' d').take 7 := by
  rw [take_isoText, take_isoText]
  intro heq
  obtain ⟨hyear, hmonth⟩ := List.append_inj heq (by simp)
  have := padded_injective hy hy' hyear
  have := padded_injective (w := 2) hm hm' (List.cons.inj hmonth).2
  tauto

lemma isLastDayOfMonth_iff (t : StartDay) : isLastDayOfMonth t.iso = true ↔ t.d = daysInMonth t.y t.m := by
  have hl := t.y_ge
  have hu := t.y_lt
  have hm := t.m_le
  have hd := t.d_le_31
  have hle := t.d_le
  have hdays := daysInMonth_eq hl t.m
  rw [isLastDayOfMonth, bne_iff_ne, addDaysISO_one]
  simp only [nextDay, ← hdays]
  split_ifs with hday hmonth <;> dsimp only
  · rw [fmt_eq_isoText hl hu (by omega) (by omega), Day.iso, take_isoText, take_isoText]
    simp only [ne_eq, not_true_eq_false, false_iff]
    omega
  · rw [fmt_eq_isoText hl hu (by omega) (by omega)]
    exact iff_of_true (take_isoText_ne hu hu (by omega) (by omega) (Or.inr (by omega))) (by omega)
  · refine iff_of_true ?_ (by omega)
    rw [← Nat.cast_add_one]
    by_cases hlast : t.y = 9999
    · rw [Day.iso, take_isoText, hlast]
      intro heq
      have hleft : ((fmt ((9999 + 1 : ℕ) : ℤ) 1 1).take 7).head? = some '1' := by decide
      have hright : (padded 4 9999 ++ '-' :: padded 2 t.m).head? = some '9' := rfl
      rw [heq, hright] at hleft
      exact absurd hleft (by decide)
    · rw [fmt_eq_isoText (by omega) (by omega) (by omega) (by omega)]
      exact take_isoText_ne (by omega) hu (by omega) (by omega) (Or.inl (by omega))

def monthEnd {M : ℕ} (hl : 12000 ≤ M) (hu : M < 120000) : StartDay :=
  dayOfMonth (d := monthDays M) hl hu (one_le_monthLength _ _) le_rfl

def monthFirst {M : ℕ} (hl : 12000 ≤ M) (hu : M < 120000) : StartDay :=
  dayOfMonth (d := 1) hl hu le_rfl (one_le_monthLength _ _)

lemma monthEnd_number {M : ℕ} (hl : 12000 ≤ M) (hu : M + 1 < 120000) :
    number (monthEnd hl (by omega)) = number (monthFirst (M := M + 1) (by omega) hu) - 1 := by
  have hlength : monthDays M = monthLength (isLeap (M / 12 : ℕ)) (M % 12 + 1) := daysInMonth_eq (by omega) _
  have hsucc := monthStart_succ (M / 12 : ℕ) (m := M % 12 + 1) (by omega) (by omega)
  have hnext : 12 * (((M + 1) / 12 : ℕ) - 1970 : ℤ) + ((M + 1) % 12 + 1 : ℕ) - 1 =
      12 * ((M / 12 : ℕ) - 1970 : ℤ) + (M % 12 + 1 : ℕ) := by
    omega
  simp only [number, dayNumber, monthEnd, monthFirst, dayOfMonth]
  rw [hnext, hsucc, hlength]
  ring

lemma addMonthsClamped_monthFirst {M : ℕ} (hl : 12000 ≤ M) (hu : M + 1 < 120000) :
    addMonthsClamped (monthFirst hl (by omega)).iso 1 = (monthFirst (M := M + 1) (by omega) hu).iso := by
  have hmonth : monthNumber (monthFirst hl (by omega)).toDay 1 = M + 1 := by
    simp only [monthNumber, monthFirst, dayOfMonth]
    omega
  have hone : clampedDay 1 ((M + 1) / 12) ((M + 1) % 12 + 1) = 1 := min_eq_left (one_le_monthLength _ _)
  have hstep := addMonthsClamped_iso (monthFirst hl (by omega)).toDay 1
  rw [hmonth, monthText_eq_isoText _ (by omega) hu] at hstep
  refine hstep.trans ?_
  simp only [monthFirst, dayOfMonth, hone, Day.iso]

lemma endOfMonth_eq (t : Day) {M : ℕ} (hl : 12000 ≤ M) (hu : M + 1 < 120000) :
    endOfMonth (monthText t.d M) = (monthEnd hl (by omega)).iso := by
  have hfirst : (monthText t.d M).take 7 ++ "-01".toList = (monthFirst hl (by omega)).iso := by
    rw [monthText_eq_isoText t hl (by omega), take_isoText]
    simp [Day.iso, monthFirst, dayOfMonth, isoText]
    decide
  rw [endOfMonth, hfirst, addMonthsClamped_monthFirst hl hu]
  apply addDaysISO_eq
  rw [monthEnd_number hl hu]
  rfl

lemma coveredPeriod_start (anchor : StartDay) (h : cadenceMonths cadence = some months) {M : ℕ} (hl : 12000 ≤ M)
    (hu : M + months < 120000) :
    (coveredPeriod (monthText anchor.d (M + months)) cadence).periodStart =
      addDaysISO (if monthDays (M + months) ≤ anchor.d then monthEnd hl (by omega)
        else inMonth anchor.toDay hl (by omega)).iso 1 := by
  have hpos := cadenceMonths_pos h
  have hlast := isLastDayOfMonth_iff (inMonth anchor.toDay (M := M + months) (by omega) hu)
  rw [inMonth_iso] at hlast
  have hend := hlast.trans (min_eq_right_iff : _ ↔ monthDays (M + months) ≤ anchor.d)
  have hstep := addMonthsClamped_sub anchor.toDay (M := M + months) (j := months) (by omega)
  rw [Nat.add_sub_cancel] at hstep
  simp only [coveredPeriod, h, hstep]
  rcases lt_or_ge anchor.d (monthDays (M + months)) with hlt | hle
  · have hclamp : clampedDay anchor.d ((M + months) / 12) ((M + months) % 12 + 1) = anchor.d := min_eq_left hlt.le
    rw [if_neg (not_le.mpr hlt), if_neg (by rw [hend]; omega), inMonth_iso, hclamp]
  · rw [if_pos hle, if_pos (hend.mpr hle)]
    exact congrArg (addDaysISO · 1)
      (endOfMonth_eq (inMonth anchor.toDay (M := M + months) (by omega) hu).toDay hl (by omega))

lemma addDaysISO_one_inj {s t : StartDay} (hs : s.y * 12 + s.m < 120000) (ht : t.y * 12 + t.m < 120000) :
    addDaysISO s.iso 1 = addDaysISO t.iso 1 ↔ s = t := by
  have hnext : ∀ s : StartDay, s.y * 12 + s.m < 120000 → ∃ u : StartDay, number u = number s + 1 := by
    intro s hs
    have hl := s.y_ge
    have hu := s.y_lt
    obtain ⟨hvalid, hn⟩ := nextDay_number (valid s)
    have hy : 1000 ≤ (nextDay (s.y, s.m, s.d)).1 ∧ (nextDay (s.y, s.m, s.d)).1 < 10000 := by
      simp only [nextDay]
      split_ifs <;> simp only <;> omega
    obtain ⟨u, heq⟩ := hvalid.exists_startDay hy.1 hy.2
    exact ⟨u, (congrArg dayNumber heq).trans hn⟩
  obtain ⟨u, hu⟩ := hnext s hs
  obtain ⟨v, hv⟩ := hnext t ht
  rw [addDaysISO_eq s u hu, addDaysISO_eq t v hv]
  constructor
  · intro h
    rw [iso_injective h, hv] at hu
    exact number_injective (by omega)
  · rintro rfl
    rw [number_injective (hu.trans hv.symm)]

theorem coveredPeriod_follows_iff (anchor : StartDay) (hmonths : cadenceMonths cadence = some months) (n : ℕ)
    (hyear : monthNumber anchor.toDay (months * (n + 1)) < 120000) :
    (∃ due next, nthDueDate anchor.iso cadence n = some due ∧ nthDueDate anchor.iso cadence (n + 1) = some next ∧
      (coveredPeriod next cadence).periodStart = addDaysISO due 1) ↔
    (anchor.d < monthDays (monthNumber anchor.toDay (months * (n + 1))) ∨
      monthDays (monthNumber anchor.toDay (months * n)) ≤ anchor.d) := by
  have hpos := cadenceMonths_pos hmonths
  have hge := anchor.y_ge
  have hl : 12000 ≤ monthNumber anchor.toDay (months * n) := by
    simp only [monthNumber]
    omega
  have hsucc : monthNumber anchor.toDay (months * (n + 1)) = monthNumber anchor.toDay (months * n) + months := by
    simp only [monthNumber, Nat.mul_succ]
    omega
  rw [nthDueDate_eq anchor hmonths, nthDueDate_eq anchor hmonths, hsucc]
  rw [hsucc] at hyear
  generalize monthNumber anchor.toDay (months * n) = M at *
  have hstart := coveredPeriod_start anchor hmonths hl hyear
  simp only [Option.some.injEq, exists_eq_left', exists_and_left, hstart]
  rw [← inMonth_iso anchor.toDay hl (by omega), addDaysISO_one_inj ?_ ?_]
  · split_ifs with hle
    · have hday : (monthEnd hl (by omega)).d = (inMonth anchor.toDay hl (by omega)).d ↔ monthDays M ≤ anchor.d :=
        eq_comm.trans min_eq_right_iff
      constructor
      · intro h
        exact Or.inr (hday.mp (congrArg (·.d) h))
      · intro h
        have := hday.mpr (h.resolve_left (by omega))
        simp only [monthEnd, inMonth, dayOfMonth] at this ⊢
        simp only [this]
    · exact iff_of_true rfl (Or.inl (by omega))
  · split_ifs <;> simp only [monthEnd, inMonth, dayOfMonth] <;> omega
  · simp only [inMonth, dayOfMonth]
    omega

def startDay (y m d : ℕ) (h : (1000 ≤ y ∧ y < 10000) ∧ (1 ≤ m ∧ m ≤ 12) ∧ 1 ≤ d ∧ d ≤ daysInMonth y m) : StartDay where
  y := y
  m := m
  d := d
  y_lt := h.1.2
  y_ge := h.1.1
  m_pos := h.2.1.1
  m_le := h.2.1.2
  d_pos := h.2.2.1
  d_le := h.2.2.2

def januaryThirtyFirst : StartDay := startDay 2026 1 31 (by decide)

theorem february_follows_january : ∃ due next,
    nthDueDate januaryThirtyFirst.iso .monthly 0 = some due ∧ nthDueDate januaryThirtyFirst.iso .monthly 1 = some next ∧
      (coveredPeriod next .monthly).periodStart = addDaysISO due 1 :=
  (coveredPeriod_follows_iff januaryThirtyFirst rfl 0 (by decide)).mpr (Or.inr (by decide))

/-- The period due on 28 February leaves out the last day of January. -/
theorem february_leaves_out_january_31 :
    nthDueDate "2026-01-30".toList .monthly 0 = some "2026-01-30".toList ∧
    nthDueDate "2026-01-30".toList .monthly 1 = some "2026-02-28".toList ∧
    addDaysISO "2026-01-30".toList 1 = "2026-01-31".toList ∧
    (coveredPeriod "2026-02-28".toList .monthly).periodStart = "2026-02-01".toList ∧
    (coveredPeriod "2026-02-28".toList .monthly).periodStart ≠ addDaysISO "2026-01-30".toList 1 := by
  decide +kernel

end Breeze.Deliverables.Recurrence
