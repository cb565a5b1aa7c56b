import Breeze.Lib.CivilMonths
import Breeze.Contracts.PeriodGrid

/-! The days of the calendar as numbers. `addDaysISO` adds numbers, and the texts of days with a
year of four digits are ordered as their numbers. -/

namespace Breeze.Contracts.DayNumber

open Breeze.Lib.Decimal Breeze.Lib.CivilMonths ContractMath CalendarDay PeriodGrid

def dayNumber : ℤ × ℕ × ℕ → ℤ
  | (y, m, d) => monthStart (12 * (y - 1970) + m - 1) + d - 1

structure Valid (t : ℤ × ℕ × ℕ) : Prop where
  m_pos : 1 ≤ t.2.1
  m_le : t.2.1 ≤ 12
  d_pos : 1 ≤ t.2.2
  d_le : t.2.2 ≤ monthLength (isLeap t.1) t.2.1

lemma leapDays_eq (y : ℤ) : leapDays (y - 1970) = if isLeap y then 1 else 0 := by
  simp only [leapDays, yearStart, isLeap, Bool.and_eq_true, Bool.or_eq_true, bne_iff_ne, beq_iff_eq]
  split <;> omega

lemma monthStart_succ (y : ℤ) {m : ℕ} (hm : 1 ≤ m) (hm' : m ≤ 12) :
    monthStart (12 * (y - 1970) + m) = monthStart (12 * (y - 1970) + m - 1) + monthLength (isLeap y) m := by
  have hprev : 12 * (y - 1970) + (m : ℤ) - 1 = 12 * (y - 1970) + (m - 1 : ℕ) := by omega
  have hleap := leapDays_eq y
  rw [hprev, monthStart_year (k := m - 1) _ (by omega)]
  by_cases hlast : m = 12
  · have hnext : 12 * (y - 1970) + (m : ℤ) = 12 * (y - 1970 + 1) + (0 : ℕ) := by omega
    rw [hnext, monthStart_year _ (by omega), yearStart_succ, hlast]
    simp [daysBefore, monthLength]
    omega
  · rw [monthStart_year _ (by omega)]
    interval_cases m <;> simp [daysBefore, monthLength] <;> split_ifs at hleap ⊢ <;> omega

lemma one_le_monthLength (leap : Bool) (m : ℕ) : 1 ≤ monthLength leap m :=
  le_trans (by decide) (monthLength_ge leap m)

lemma nextDay_number {t : ℤ × ℕ × ℕ} (h : Valid t) :
    Valid (nextDay t) ∧ dayNumber (nextDay t) = dayNumber t + 1 := by
  obtain ⟨y, m, d⟩ := t
  obtain ⟨hm, hm', hd, hd'⟩ := h
  simp only at hm hm' hd hd'
  have hsucc := monthStart_succ y hm hm'
  simp only [nextDay]
  split_ifs with hday hmonth
  · refine ⟨⟨hm, hm', Nat.le_add_left 1 d, hday⟩, ?_⟩
    simp only [dayNumber]
    push_cast
    ring
  · have hlast : d = monthLength (isLeap y) m := le_antisymm hd' (not_lt.mp hday)
    refine ⟨⟨Nat.le_add_left 1 m, hmonth, le_rfl, ?_⟩, ?_⟩
    · exact one_le_monthLength _ _
    · have hnext : 12 * (y - 1970) + ((m + 1 : ℕ) : ℤ) - 1 = 12 * (y - 1970) + m := by omega
      simp only [dayNumber]
      rw [hnext, hsucc, hlast]
      push_cast
      ring
  · obtain rfl : m = 12 := by omega
    have hlast : d = monthLength (isLeap y) 12 := le_antisymm hd' (not_lt.mp hday)
    have hyear : 12 * (y + 1 - 1970) + ((1 : ℕ) : ℤ) - 1 = 12 * (y - 1970) + (12 : ℕ) := by omega
    refine ⟨⟨le_rfl, Nat.le_add_left 1 11, le_rfl, one_le_monthLength _ _⟩, ?_⟩
    simp only [dayNumber]
    rw [hyear, hsucc, hlast]
    ring

lemma prevDay_number {t : ℤ × ℕ × ℕ} (h : Valid t) :
    Valid (prevDay t) ∧ dayNumber (prevDay t) = dayNumber t - 1 := by
  obtain ⟨y, m, d⟩ := t
  obtain ⟨hm, hm', hd, hd'⟩ := h
  simp only at hm hm' hd hd'
  simp only [prevDay]
  split_ifs with hday hmonth
  · refine ⟨⟨hm, hm', by simp only; omega, by simp only; omega⟩, ?_⟩
    simp only [dayNumber]
    omega
  · obtain rfl : d = 1 := by omega
    have hsucc := monthStart_succ y (m := m - 1) (by omega) (by omega)
    refine ⟨⟨by simp only; omega, by simp only; omega, ?_, le_rfl⟩, ?_⟩
    · exact one_le_monthLength _ _
    · have hprev : 12 * (y - 1970) + ((m - 1 : ℕ) : ℤ) = 12 * (y - 1970) + m - 1 := by omega
      simp only [dayNumber]
      rw [hprev] at hsucc ⊢
      rw [hsucc]
      ring
  · obtain rfl : d = 1 := by omega
    obtain rfl : m = 1 := by omega
    have hsucc := monthStart_succ (y - 1) (m := 12) (by omega) (by omega)
    have hyear : 12 * (y - 1 - 1970) + ((12 : ℕ) : ℤ) = 12 * (y - 1970) + (1 : ℕ) - 1 := by omega
    refine ⟨⟨Nat.le_add_left 1 11, le_rfl, Nat.le_add_left 1 30, le_rfl⟩, ?_⟩
    simp only [dayNumber]
    rw [hyear] at hsucc ⊢
    rw [hsucc]
    simp only [monthLength]
    ring

lemma nextDay_iterate_number {t : ℤ × ℕ × ℕ} (h : Valid t) (n : ℕ) :
    Valid (nextDay^[n] t) ∧ dayNumber (nextDay^[n] t) = dayNumber t + n := by
  induction n with
  | zero => exact ⟨h, (add_zero _).symm⟩
  | succ n ih =>
    obtain ⟨hv, hn⟩ := nextDay_number ih.1
    rw [Function.iterate_succ_apply']
    refine ⟨hv, ?_⟩
    rw [hn, ih.2]
    push_cast
    ring

lemma prevDay_iterate_number {t : ℤ × ℕ × ℕ} (h : Valid t) (n : ℕ) :
    Valid (prevDay^[n] t) ∧ dayNumber (prevDay^[n] t) = dayNumber t - n := by
  induction n with
  | zero => exact ⟨h, (sub_zero _).symm⟩
  | succ n ih =>
    obtain ⟨hv, hn⟩ := prevDay_number ih.1
    rw [Function.iterate_succ_apply']
    refine ⟨hv, ?_⟩
    rw [hn, ih.2]
    push_cast
    ring

lemma makeDay_number (y : ℤ) {m : ℕ} (hm : 1 ≤ m) (hm' : m ≤ 12) (day : ℤ) :
    Valid (makeDay y m day) ∧ dayNumber (makeDay y m day) = dayNumber (y, m, 1) + day - 1 := by
  have hfirst : (y + ((m : ℤ) - 1) / 12, (((m : ℤ) - 1) % 12).toNat + 1, 1) = (y, m, 1) := by
    have h₁ : ((m : ℤ) - 1) / 12 = 0 := by omega
    have h₂ : (((m : ℤ) - 1) % 12).toNat + 1 = m := by omega
    rw [h₁, h₂, add_zero]
  have hv : Valid (y, m, 1) := ⟨hm, hm', le_rfl, one_le_monthLength _ _⟩
  simp only [makeDay, hfirst]
  split
  case _ n hday =>
    obtain ⟨h, hn⟩ := nextDay_iterate_number hv n
    refine ⟨h, ?_⟩
    rw [hn, add_sub_assoc, hday]
    rfl
  case _ n hday =>
    obtain ⟨h, hn⟩ := prevDay_iterate_number hv (n + 1)
    refine ⟨h, ?_⟩
    rw [hn, add_sub_assoc, hday, Int.negSucc_eq]
    push_cast
    ring

lemma dayNumber_lt {t u : ℤ × ℕ × ℕ} (ht : Valid t) (hu : Valid u)
    (h : t.1 < u.1 ∨ t.1 = u.1 ∧ (t.2.1 < u.2.1 ∨ t.2.1 = u.2.1 ∧ t.2.2 < u.2.2)) :
    dayNumber t < dayNumber u := by
  obtain ⟨y, m, d⟩ := t
  obtain ⟨y', m', d'⟩ := u
  obtain ⟨hm, hm', hd, hd'⟩ := ht
  obtain ⟨hum, hum', hud, hud'⟩ := hu
  simp only at *
  by_cases heq : y = y' ∧ m = m'
  · obtain ⟨rfl, rfl⟩ := heq
    simp only [dayNumber]
    omega
  · have hmonth : 12 * (y - 1970) + (m : ℤ) ≤ 12 * (y' - 1970) + m' - 1 := by omega
    have hle := monthStart_strictMono.monotone hmonth
    rw [monthStart_succ y hm hm'] at hle
    simp only [dayNumber]
    omega

lemma dayNumber_injective {t u : ℤ × ℕ × ℕ} (ht : Valid t) (hu : Valid u)
    (h : dayNumber t = dayNumber u) : t = u := by
  obtain ⟨y, m, d⟩ := t
  obtain ⟨y', m', d'⟩ := u
  have hlt := mt (dayNumber_lt ht hu) h.not_lt
  have hgt := mt (dayNumber_lt hu ht) h.not_gt
  simp only at hlt hgt
  obtain rfl : y = y' := by omega
  obtain rfl : m = m' := by omega
  obtain rfl : d = d' := by omega
  rfl

def number (t : StartDay) : ℤ := dayNumber ((t.y : ℤ), t.m, t.d)

lemma daysInMonth_eq {y : ℕ} (hy : 1000 ≤ y) (m : ℕ) : daysInMonth y m = monthLength (isLeap y) m := by
  rw [daysInMonth, utcYear, if_neg (by omega)]

lemma valid (t : StartDay) : Valid ((t.y : ℤ), t.m, t.d) where
  m_pos := t.m_pos
  m_le := t.m_le
  d_pos := t.d_pos
  d_le := daysInMonth_eq t.y_ge t.m ▸ t.d_le

lemma Valid.exists_startDay {t : ℤ × ℕ × ℕ} (h : Valid t) (hl : 1000 ≤ t.1) (hu : t.1 < 10000) :
    ∃ u : StartDay, ((u.y : ℤ), u.m, u.d) = t := by
  obtain ⟨y, m, d⟩ := t
  lift y to ℕ using by omega
  dsimp only at hl hu
  have hge : 1000 ≤ y := by exact_mod_cast hl
  have hdays : d ≤ daysInMonth y m := daysInMonth_eq hge m ▸ h.d_le
  exact ⟨⟨⟨y, m, d, by exact_mod_cast hu, h.m_pos, h.m_le, h.d_pos, hdays⟩, hge⟩, rfl⟩

lemma iso_lt_iff (s t : StartDay) : s.iso < t.iso ↔ number s < number t := by
  have hs := s.d_le_31
  have ht := t.d_le_31
  have hsm := s.m_le
  have htm := t.m_le
  rw [Day.iso, Day.iso, isoText_lt_iff s.y_lt t.y_lt (by omega) (by omega) (by omega) (by omega)]
  constructor
  · intro h
    exact dayNumber_lt (valid s) (valid t) (by simp only; omega)
  · intro h
    by_contra hn
    rcases eq_or_ne ((s.y : ℤ), s.m, s.d) ((t.y : ℤ), t.m, t.d) with heq | hne
    · exact absurd (congrArg dayNumber heq) h.ne
    · refine absurd (dayNumber_lt (valid t) (valid s) ?_) h.asymm
      simp only [ne_eq, Prod.mk.injEq] at hne ⊢
      omega

lemma iso_le_iff (s t : StartDay) : s.iso ≤ t.iso ↔ number s ≤ number t := by
  rw [← not_lt, iso_lt_iff, not_lt]

lemma number_injective {s t : StartDay} (h : number s = number t) : s = t := by
  have heq := dayNumber_injective (valid s) (valid t) h
  obtain ⟨⟨y, m, d, _, _, _, _, _⟩, _⟩ := s
  obtain ⟨⟨y', m', d', _, _, _, _, _⟩, _⟩ := t
  simp only [Prod.mk.injEq, Nat.cast_inj] at heq
  obtain ⟨rfl, rfl, rfl⟩ := heq
  rfl

lemma addDaysISO_iso (s : StartDay) (days : ℤ) :
    ∃ t, Valid t ∧ dayNumber t = number s + days ∧ addDaysISO s.iso days = fmt t.1 t.2.1 t.2.2 := by
  have hyear : utcYear s.y = s.y := by
    have := s.y_ge
    rw [utcYear, if_neg (by omega)]
  obtain ⟨hv, hn⟩ := makeDay_number s.y s.m_pos s.m_le (s.d + days)
  refine ⟨makeDay s.y s.m (s.d + days), hv, ?_, ?_⟩
  · rw [hn, number]
    simp only [dayNumber]
    push_cast
    ring
  · simp only [addDaysISO, Day.parts_iso, hyear]

lemma fmt_iso (t : StartDay) : fmt t.y t.m t.d = t.iso := by
  have := t.d_le_31
  have := t.m_le
  exact fmt_eq_isoText t.y_ge t.y_lt (by omega) (by omega)

lemma addDaysISO_eq (s t : StartDay) {days : ℤ} (h : number t = number s + days) :
    addDaysISO s.iso days = t.iso := by
  obtain ⟨u, hv, hn, htext⟩ := addDaysISO_iso s days
  rw [htext, dayNumber_injective hv (valid t) (hn.trans h.symm), fmt_iso]

lemma addDaysISO_one (s : StartDay) :
    addDaysISO s.iso 1 = fmt (nextDay (s.y, s.m, s.d)).1 (nextDay (s.y, s.m, s.d)).2.1 (nextDay (s.y, s.m, s.d)).2.2 := by
  obtain ⟨u, hv, hn, htext⟩ := addDaysISO_iso s 1
  obtain ⟨hv', hn'⟩ := nextDay_number (valid s)
  rw [htext, dayNumber_injective hv hv' (hn.trans hn'.symm)]

lemma Valid.exists_between {t : ℤ × ℕ × ℕ} (h : Valid t) (a b : StartDay) (ha : number a ≤ dayNumber t)
    (hb : dayNumber t ≤ number b) : ∃ u : StartDay, ((u.y : ℤ), u.m, u.d) = t := by
  have hal := a.y_ge
  have hbu := b.y_lt
  apply h.exists_startDay
  · by_contra hlt
    exact absurd (dayNumber_lt h (valid a) (Or.inl (by simp only; omega))) (not_lt.mpr ha)
  · by_contra hge
    exact absurd (dayNumber_lt (valid b) h (Or.inl (by simp only; omega))) (not_lt.mpr hb)

lemma iso_injective {s t : StartDay} (h : s.iso = t.iso) : s = t := by
  apply number_injective
  apply le_antisymm
  · exact (iso_le_iff s t).mp h.le
  · exact (iso_le_iff t s).mp h.ge

def dayOfMonth {M d : ℕ} (hl : 12000 ≤ M) (hu : M < 120000) (hd : 1 ≤ d)
    (hd' : d ≤ daysInMonth (M / 12 : ℕ) (M % 12 + 1 : ℕ)) : StartDay where
  y := M / 12
  m := M % 12 + 1
  d := d
  y_lt := by omega
  y_ge := by omega
  m_pos := by omega
  m_le := by omega
  d_pos := hd
  d_le := hd'

def inMonth (t : Day) {M : ℕ} (hl : 12000 ≤ M) (hu : M < 120000) : StartDay :=
  dayOfMonth (d := clampedDay t.d (M / 12) (M % 12 + 1)) hl hu (le_min t.d_pos (one_le_monthLength _ _)) (min_le_right _ _)

lemma inMonth_iso (t : Day) {M : ℕ} (hl : 12000 ≤ M) (hu : M < 120000) :
    (inMonth t hl hu).iso = monthText t.d M :=
  (monthText_eq_isoText t hl hu).symm

end Breeze.Contracts.DayNumber
