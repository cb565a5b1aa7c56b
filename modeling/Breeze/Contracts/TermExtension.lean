import Breeze.Contracts.DayNumber
import Breeze.Contracts.Renewal

/-! The end dates that the renewal pass rolls a term through. Each step clamps the date the step
before it wrote, so a short month on the way shortens every later end date. -/

namespace Breeze.Contracts.TermExtension

open Breeze.Lib.Decimal ContractMath CalendarDay PeriodGrid DayNumber

def rolled (endDate : Text) (termMonths : ℕ) : ℕ → Text
  | 0 => endDate
  | steps + 1 => addMonthsClamped (rolled endDate termMonths steps) termMonths

lemma rolled_add (endDate : Text) (termMonths i n : ℕ) :
    rolled (rolled endDate termMonths i) termMonths n = rolled endDate termMonths (i + n) := by
  induction n with
  | zero => rfl
  | succ n ih => rw [rolled, ih, ← Nat.add_assoc, rolled]

section Loop

variable {duePeriodStart endDate : Text} {termMonths : ℕ}

lemma extendTermLoop_eq (duePeriodStart endDate : Text) (termMonths fuel : ℕ) (renewed : Bool) :
    ∃ n ≤ fuel, extendTermLoop duePeriodStart termMonths fuel endDate renewed =
        (rolled endDate termMonths n, renewed || decide (0 < n)) ∧
      (∀ i < n, rolled endDate termMonths i ≤ duePeriodStart) ∧
      (n < fuel → duePeriodStart < rolled endDate termMonths n) := by
  induction fuel generalizing endDate renewed with
  | zero => exact ⟨0, le_rfl, by simp [extendTermLoop, rolled], by simp, by simp⟩
  | succ fuel ih =>
    rw [extendTermLoop]
    by_cases hle : endDate ≤ duePeriodStart
    · obtain ⟨n, hn, heq, hbefore, hafter⟩ := ih (addMonthsClamped endDate termMonths) true
      have hshift : ∀ i, rolled (addMonthsClamped endDate termMonths) termMonths i = rolled endDate termMonths (i + 1) := by
        intro i
        rw [Nat.add_comm, ← rolled_add]
        rfl
      rw [if_pos (by simpa [isExpired] using hle), heq]
      refine ⟨n + 1, by omega, by simp [hshift], ?_, ?_⟩
      · intro i hi
        cases i with
        | zero => exact hle
        | succ i => exact hshift i ▸ hbefore i (by omega)
      · intro hlt
        exact hshift n ▸ hafter (by omega)
    · rw [if_neg (by simpa [isExpired] using hle)]
      exact ⟨0, Nat.zero_le _, by simp [rolled], by simp, fun _ => not_le.mp hle⟩

variable {n : ℕ} (hguard : n ≤ runawayGuard + 1) (hbefore : ∀ i < n, rolled endDate termMonths i ≤ duePeriodStart)
  (hafter : duePeriodStart < rolled endDate termMonths n)

include hguard hbefore hafter

lemma extendTermPastDue_eq :
    extendTermPastDue endDate duePeriodStart termMonths = (rolled endDate termMonths n, decide (0 < n)) := by
  obtain ⟨m, hm, heq, hb, ha⟩ := extendTermLoop_eq duePeriodStart endDate termMonths
    (runawayGuard + 1) false
  have hmn : m = n := by
    rcases lt_trichotomy m n with h | h | h
    · exact absurd (hbefore m h) (not_le.mpr (ha (by omega)))
    · exact h
    · exact absurd (hb n h) (not_le.mpr hafter)
  rw [extendTermPastDue, heq, hmn, Bool.false_or]

lemma extendTermPastDue_twice {earlier : Text} (hle : earlier ≤ duePeriodStart) :
    (extendTermPastDue (extendTermPastDue endDate earlier termMonths).1 duePeriodStart termMonths).1 =
      (extendTermPastDue endDate duePeriodStart termMonths).1 := by
  classical
  have hex : ∃ i, earlier < rolled endDate termMonths i := ⟨n, hle.trans_lt hafter⟩
  have hi : Nat.find hex ≤ n := Nat.find_min' hex (hle.trans_lt hafter)
  have hfirst := extendTermPastDue_eq (hi.trans hguard) (fun i hi => not_lt.mp (Nat.find_min hex hi))
    (Nat.find_spec hex)
  have hsecond : extendTermPastDue (rolled endDate termMonths (Nat.find hex)) duePeriodStart termMonths =
      (rolled (rolled endDate termMonths (Nat.find hex)) termMonths (n - Nat.find hex),
        decide (0 < n - Nat.find hex)) := by
    apply extendTermPastDue_eq (by omega)
    · intro i hlt
      rw [rolled_add]
      exact hbefore _ (by omega)
    · rwa [rolled_add, Nat.add_sub_cancel' hi]
  rw [hfirst, hsecond, extendTermPastDue_eq hguard hbefore hafter, rolled_add, Nat.add_sub_cancel' hi]

end Loop

variable (e : StartDay) (termMonths : ℕ)

def termMonth (i : ℕ) : ℕ := monthNumber e.toDay (termMonths * i)

def termMonthDays (i : ℕ) : ℕ := daysInMonth (termMonth e termMonths i / 12 : ℕ) (termMonth e termMonths i % 12 + 1)

def keptDay : ℕ → ℕ
  | 0 => e.d
  | i + 1 => min (keptDay i) (termMonthDays e termMonths i)

def termEndNumber (i : ℕ) : ℤ :=
  dayNumber ((termMonth e termMonths i / 12 : ℕ), termMonth e termMonths i % 12 + 1,
    min e.d (termMonthDays e termMonths i))

lemma le_keptDay_iff {x i : ℕ} :
    x ≤ keptDay e termMonths i ↔ x ≤ e.d ∧ ∀ t < i, x ≤ termMonthDays e termMonths t := by
  induction i with
  | zero => simp [keptDay]
  | succ i ih =>
    rw [keptDay, le_min_iff, ih, and_assoc]
    apply and_congr_right
    intro _
    constructor
    · rintro ⟨hbefore, hlast⟩ t ht
      rcases Nat.lt_succ_iff_lt_or_eq.mp ht with h | rfl
      · exact hbefore t h
      · exact hlast
    · intro h
      exact ⟨fun t ht => h t (by omega), h i (by omega)⟩

lemma keptDay_le (i : ℕ) : keptDay e termMonths i ≤ e.d := ((le_keptDay_iff e termMonths).mp le_rfl).1

lemma termMonth_succ (i : ℕ) : termMonth e termMonths (i + 1) = termMonth e termMonths i + termMonths := by
  rw [termMonth, Nat.mul_succ termMonths i]
  exact (Nat.add_assoc _ _ _).symm

lemma termMonth_ge (i : ℕ) : 12000 ≤ termMonth e termMonths i := by
  have := e.y_ge
  unfold termMonth monthNumber
  omega

lemma le_termMonthDays_zero : e.d ≤ termMonthDays e termMonths 0 := by
  have hm := e.m_pos
  have hm' := e.m_le
  have hy : termMonth e termMonths 0 / 12 = e.y := by
    unfold termMonth monthNumber
    omega
  have hmonth : termMonth e termMonths 0 % 12 + 1 = e.m := by
    unfold termMonth monthNumber
    omega
  rw [termMonthDays, hy, hmonth]
  exact e.d_le

lemma rolled_eq (i : ℕ) :
    rolled e.iso termMonths i = monthText (keptDay e termMonths i) (termMonth e termMonths i) := by
  induction i with
  | zero => exact (startOf_zero e termMonths).symm.trans (startOf_eq e termMonths 0)
  | succ i ih =>
    have hd := (keptDay_le e termMonths i).trans e.d_le_31
    rw [rolled, ih]
    exact addMonthsClamped_monthText hd (by rw [termMonth_succ]; push_cast; rfl)

lemma termEnd_eq (i : ℕ) : addMonthsClamped e.iso (termMonths * i : ℕ) = monthText e.d (termMonth e termMonths i) :=
  addMonthsClamped_iso e.toDay _

lemma rolled_eq_termEnd_iff (i n : ℕ) (hterm : 1 ≤ termMonths) :
    rolled e.iso termMonths i = addMonthsClamped e.iso (termMonths * n : ℕ) ↔
      i = n ∧ ∀ t < n, 0 < t → min e.d (termMonthDays e termMonths n) ≤ termMonthDays e termMonths t := by
  have hmonth : termMonth e termMonths i = termMonth e termMonths n ↔ i = n := by
    unfold termMonth monthNumber
    rw [Nat.add_left_cancel_iff]
    exact Nat.mul_right_inj (by omega)
  rw [rolled_eq, termEnd_eq, monthText_inj ((keptDay_le e termMonths i).trans e.d_le_31) e.d_le_31, hmonth]
  apply and_congr_right
  rintro rfl
  change keptDay e termMonths (i + 1) = min e.d (termMonthDays e termMonths i) ↔ _
  have hle : keptDay e termMonths (i + 1) ≤ min e.d (termMonthDays e termMonths i) :=
    min_le_min (keptDay_le e termMonths i) le_rfl
  constructor
  · intro heq t ht _
    exact ((le_keptDay_iff e termMonths).mp heq.ge).2 t (by omega)
  · intro hlong
    apply le_antisymm hle
    rw [le_keptDay_iff]
    refine ⟨min_le_left _ _, fun t ht => ?_⟩
    rcases Nat.eq_zero_or_pos t with rfl | hpos
    · exact (min_le_left _ _).trans (le_termMonthDays_zero e termMonths)
    · rcases Nat.lt_succ_iff_lt_or_eq.mp ht with h | rfl
      · exact hlong t h hpos
      · exact min_le_right _ _

lemma valid_inTermMonth {c i : ℕ} (hc : 1 ≤ c) (hle : c ≤ termMonthDays e termMonths i) :
    Valid (((termMonth e termMonths i / 12 : ℕ) : ℤ), termMonth e termMonths i % 12 + 1, c) where
  m_pos := by simp only; omega
  m_le := by simp only; omega
  d_pos := hc
  d_le := by
    have hy := termMonth_ge e termMonths i
    exact daysInMonth_eq (show 1000 ≤ termMonth e termMonths i / 12 by omega) _ ▸ hle

lemma rolled_le {due : StartDay} {i : ℕ} (h : termEndNumber e termMonths i ≤ number due) :
    rolled e.iso termMonths i ≤ due.iso := by
  have hge := termMonth_ge e termMonths i
  have hpos : 1 ≤ keptDay e termMonths (i + 1) :=
    (le_keptDay_iff e termMonths).mpr ⟨e.d_pos, fun t _ => le_trans (by decide) (monthLength_ge _ _)⟩
  have hv := valid_inTermMonth e termMonths hpos (min_le_right _ _)
  have hnumber : dayNumber (((termMonth e termMonths i / 12 : ℕ) : ℤ), termMonth e termMonths i % 12 + 1,
      keptDay e termMonths (i + 1)) ≤ number due := by
    refine le_trans ?_ h
    have hkept : keptDay e termMonths (i + 1) ≤ min e.d (termMonthDays e termMonths i) :=
      min_le_min (keptDay_le e termMonths i) le_rfl
    simp only [dayNumber, termEndNumber]
    omega
  have hyear : ((termMonth e termMonths i / 12 : ℕ) : ℤ) < 10000 := by
    by_contra hlarge
    have hdue := due.y_lt
    exact absurd (dayNumber_lt (valid due) hv (Or.inl (by simp only; omega))) (not_lt.mpr hnumber)
  obtain ⟨u, hu⟩ := hv.exists_startDay (by simp only; omega) hyear
  have htext : rolled e.iso termMonths i = u.iso := by
    rw [rolled_eq, ← fmt_iso u]
    simp only [Prod.mk.injEq] at hu
    rw [hu.1, hu.2.1, hu.2.2]
    rfl
  rw [htext, iso_le_iff]
  exact (congrArg dayNumber hu).trans_le hnumber

theorem term_extension (e due earlier : StartDay) (termMonths j : ℕ) (hterm : 1 ≤ termMonths)
    (hearlier : number earlier ≤ number due)
    (hleast : IsLeast {i | number due < termEndNumber e termMonths i} j) (hguard : j ≤ runawayGuard) :
    (extendTermPastDue e.iso due.iso termMonths = (addMonthsClamped e.iso (termMonths * j : ℕ), decide (0 < j)) ∧
      (extendTermPastDue (extendTermPastDue e.iso earlier.iso termMonths).1 due.iso termMonths).1 =
        (extendTermPastDue e.iso due.iso termMonths).1) ↔
      (∀ i < j, 0 < i → min e.d (termMonthDays e termMonths j) ≤ termMonthDays e termMonths i) ∧
        isExpired (some (addMonthsClamped e.iso (termMonths * j : ℕ))) due.iso = false := by
  have hexpired : isExpired (some (addMonthsClamped e.iso (termMonths * j : ℕ))) due.iso = false ↔
      due.iso < addMonthsClamped e.iso (termMonths * j : ℕ) := by
    simp [isExpired]
  rw [hexpired]
  constructor
  · rintro ⟨hend, -⟩
    obtain ⟨n, hn, heq, -, hafter⟩ := extendTermLoop_eq due.iso e.iso termMonths (runawayGuard + 1) false
    rw [extendTermPastDue, heq, Prod.mk.injEq] at hend
    obtain ⟨rfl, hlong⟩ := (rolled_eq_termEnd_iff e termMonths n j hterm).mp hend.1
    exact ⟨hlong, hend.1 ▸ hafter (by omega)⟩
  · rintro ⟨hlong, hlt⟩
    have hrolled := (rolled_eq_termEnd_iff e termMonths j j hterm).mpr ⟨rfl, hlong⟩
    have hbefore : ∀ i < j, rolled e.iso termMonths i ≤ due.iso := by
      intro i hi
      apply rolled_le
      by_contra hlt
      exact absurd (hleast.2 (not_le.mp hlt)) (by omega)
    rw [← hrolled] at hlt ⊢
    exact ⟨extendTermPastDue_eq (by omega) hbefore hlt,
      extendTermPastDue_twice (by omega) hbefore hlt ((iso_le_iff _ _).mpr hearlier)⟩

def midJanuary : StartDay := .of 2026 1 15 (by decide)

def februaryFirst : StartDay := .of 2026 2 1 (by decide)

def marchFirst : StartDay := .of 2026 3 1 (by decide)

theorem term_extension_midJanuary :
    extendTermPastDue midJanuary.iso marchFirst.iso 1 = (addMonthsClamped midJanuary.iso (1 * 2 : ℕ), decide (0 < 2)) ∧
      (extendTermPastDue (extendTermPastDue midJanuary.iso februaryFirst.iso 1).1 marchFirst.iso 1).1 =
        (extendTermPastDue midJanuary.iso marchFirst.iso 1).1 := by
  refine (term_extension midJanuary marchFirst februaryFirst 1 2 (by decide) (by decide) ?_ (by decide)).mpr
    (by decide +kernel)
  refine ⟨by decide, fun i hi => ?_⟩
  by_contra hlt
  have hearly : ∀ i < 2, ¬ number marchFirst < termEndNumber midJanuary 1 i := by decide
  exact hearly i (by omega) hi

/-- From 31 January the loop passes 28 February and stays on the 28th. -/
theorem term_extension_drifts :
    extendTermPastDue "2026-01-31".toList "2026-03-01".toList 1 = ("2026-03-28".toList, true) ∧
      addMonthsClamped "2026-01-31".toList 2 = "2026-03-31".toList := by
  decide +kernel

end Breeze.Contracts.TermExtension
