import Breeze.Contracts.CalendarDay

/-! The grid of period starts of one contract. As long as the years have four digits and the
runaway guard is not reached, the index search inverts the grid. -/

namespace Breeze.Contracts.PeriodGrid

open Breeze.Lib.Decimal ContractMath CalendarDay

def monthNumber (s : Day) (n : ℕ) : ℕ := s.y * 12 + (s.m - 1) + n

def clampedDay (d y m : ℕ) : ℕ := min d (daysInMonth y m)

def monthText (d M : ℕ) : Text := fmt (M / 12 : ℕ) (M % 12 + 1) (clampedDay d (M / 12) (M % 12 + 1))

lemma tmod_twelve (z : ℤ) : (z.tmod 12 + 12).tmod 12 = z % 12 := by
  have hnn : 0 ≤ z.tmod 12 + 12 := by
    have := Int.lt_tmod_of_pos z (b := 12) (by decide)
    omega
  rw [Int.tmod_eq_emod_of_nonneg hnn, Int.tmod_eq_emod]
  split <;> omega

lemma addMonthsClamped_iso (s : Day) (n : ℕ) :
    addMonthsClamped s.iso n = monthText s.d (monthNumber s n) := by
  have hm := s.m_pos
  have hy : (s.y : ℤ) + ((s.m : ℤ) - 1 + (n : ℤ)) / 12 = ((monthNumber s n / 12 : ℕ) : ℤ) := by
    unfold monthNumber
    omega
  have hr : ((((s.m : ℤ) - 1 + (n : ℤ)).tmod 12 + 12).tmod 12 + 1).toNat = monthNumber s n % 12 + 1 := by
    rw [tmod_twelve]
    unfold monthNumber
    omega
  simp only [addMonthsClamped, Day.parts_iso, hy, hr, monthText, clampedDay]

lemma clampedDay_le (t : Day) (y m : ℕ) : clampedDay t.d y m ≤ 31 :=
  (min_le_left _ _).trans t.d_le_31

variable {M M' d N i : ℕ} {asOf : Text}

lemma monthText_eq_isoText (t : Day) (hl : 12000 ≤ M) (hu : M < 120000) :
    monthText t.d M = isoText (M / 12) (M % 12 + 1) (clampedDay t.d (M / 12) (M % 12 + 1)) := by
  have := clampedDay_le t (M / 12) (M % 12 + 1)
  exact fmt_eq_isoText (by omega) (by omega) (by omega) (by omega)

lemma monthText_lt_iff (t : Day) (hl : 12000 ≤ M) (hu : M < 120000) (hl' : 12000 ≤ M')
    (hu' : M' < 120000) : monthText t.d M < monthText t.d M' ↔ M < M' := by
  have hd := clampedDay_le t (M / 12) (M % 12 + 1)
  have hd' := clampedDay_le t (M' / 12) (M' % 12 + 1)
  rw [monthText_eq_isoText t hl hu, monthText_eq_isoText t hl' hu',
    isoText_lt_iff (by omega) (by omega) (by omega) (by omega) (by omega) (by omega)]
  constructor
  · rintro (h | ⟨hy, h | ⟨hm, hlt⟩⟩)
    · omega
    · omega
    · have he : M = M' := by omega
      rw [he] at hlt
      omega
  · intro h
    omega

variable (s : StartDay) (n : ℕ)

def startOf (k : ℕ) : Text := (computePeriod s.iso n k).periodStart

lemma startOf_eq (k : ℕ) : startOf s n k = monthText s.d (monthNumber s.toDay (n * k)) := by
  rw [startOf, computePeriod, ← addMonthsClamped_iso]
  push_cast
  rfl

lemma startOf_zero : startOf s n 0 = s.iso := by
  have hl := s.y_ge
  have hu := s.y_lt
  have hm := s.m_pos
  have hm' := s.m_le
  have hy : monthNumber s.toDay 0 / 12 = s.y := by unfold monthNumber; omega
  have hmon : monthNumber s.toDay 0 % 12 + 1 = s.m := by unfold monthNumber; omega
  rw [startOf_eq, Nat.mul_zero, monthText_eq_isoText s.toDay (by unfold monthNumber; omega)
    (by unfold monthNumber; omega), hy, hmon, clampedDay, min_eq_left s.d_le]
  rfl

lemma periodEnd_eq (k : ℕ) : (computePeriod s.iso n k).periodEnd = startOf s n (k + 1) := by
  simp only [computePeriod, startOf]
  push_cast
  rfl

lemma parts_monthText (hd : d ≤ 31) (M : ℕ) :
    parts (monthText d M) = (M / 12, M % 12 + 1, clampedDay d (M / 12) (M % 12 + 1)) := by
  have hc : clampedDay d (M / 12) (M % 12 + 1) ≤ d := min_le_left _ _
  exact parts_fmt _ (by omega) (by omega)

lemma monthText_inj {d' : ℕ} (hd : d ≤ 31) (hd' : d' ≤ 31) : monthText d M = monthText d' M' ↔
      M = M' ∧ clampedDay d (M / 12) (M % 12 + 1) = clampedDay d' (M' / 12) (M' % 12 + 1) := by
  constructor
  · intro h
    have hparts := congrArg parts h
    simp only [parts_monthText hd, parts_monthText hd', Prod.mk.injEq] at hparts
    exact ⟨by omega, hparts.2.2⟩
  · rintro ⟨rfl, h⟩
    rw [monthText, monthText, h]

lemma addMonthsClamped_monthText {z : ℤ} (hd : d ≤ 31) (hz : (M : ℤ) + z = M') :
    addMonthsClamped (monthText d M) z = monthText (clampedDay d (M / 12) (M % 12 + 1)) M' := by
  have hy : ((M / 12 : ℕ) : ℤ) + (((M % 12 + 1 : ℕ) : ℤ) - 1 + z) / 12 = ((M' / 12 : ℕ) : ℤ) := by
    omega
  have hm : ((((((M % 12 + 1 : ℕ) : ℤ) - 1 + z).tmod 12 + 12).tmod 12) + 1).toNat = M' % 12 + 1 := by
    rw [tmod_twelve]
    omega
  rw [addMonthsClamped, parts_monthText hd]
  dsimp only
  rw [hy, hm]
  rfl

variable {j : ℕ}

lemma addMonthsClamped_sub (t : Day) (hj : j ≤ M) :
    addMonthsClamped (monthText t.d M) (-(j : ℤ)) = monthText (clampedDay t.d (M / 12) (M % 12 + 1)) (M - j) :=
  addMonthsClamped_monthText t.d_le_31 (by omega)

lemma addMonthsClamped_sub_le (t : Day) (hl : 12000 + j ≤ M) (hu : M < 120000) :
    addMonthsClamped (monthText t.d M) (-(j : ℤ)) ≤ monthText t.d (M - j) := by
  rw [addMonthsClamped_sub t (by omega), monthText_eq_isoText t (by omega) (by omega), monthText]
  have hc : clampedDay (clampedDay t.d (M / 12) (M % 12 + 1)) ((M - j) / 12) ((M - j) % 12 + 1) ≤
      clampedDay t.d ((M - j) / 12) ((M - j) % 12 + 1) :=
    min_le_min (min_le_left _ _) le_rfl
  have hc' := clampedDay_le t ((M - j) / 12) ((M - j) % 12 + 1)
  rw [fmt_eq_isoText (by omega) (by omega) (by omega) (by omega), ← not_lt,
    isoText_lt_iff (by omega) (by omega) (by omega) (by omega) (by omega) (by omega)]
  omega

/-- Every period start up to the index `N` has a year of four digits and is within the guard. -/
structure Horizon (N : ℕ) : Prop where
  interval_pos : 0 < n
  guard : N ≤ runawayGuard + 2
  year : monthNumber s.toDay (n * N) < 120000

variable {s n}

lemma Horizon.mono {k : ℕ} (h : Horizon s n N) (hk : k ≤ N) : Horizon s n k where
  interval_pos := h.interval_pos
  guard := hk.trans h.guard
  year := by
    have := Nat.mul_le_mul_left n hk
    have := h.year
    unfold monthNumber at *
    omega

section

variable (h : Horizon s n N) (hi : i ≤ N) (hj : j ≤ N)

include h hi hj

lemma Horizon.startOf_lt_iff : startOf s n i < startOf s n j ↔ i < j := by
  have hs := s.y_ge
  have hyi := (h.mono hi).year
  have hyj := (h.mono hj).year
  have hlow : ∀ k, 12000 ≤ monthNumber s.toDay (n * k) := by
    intro k
    unfold monthNumber
    omega
  rw [startOf_eq, startOf_eq, monthText_lt_iff s.toDay (hlow i) hyi (hlow j) hyj]
  have hmul : n * i < n * j ↔ i < j := Nat.mul_lt_mul_left h.interval_pos
  unfold monthNumber
  omega

lemma Horizon.startOf_le_iff : startOf s n i ≤ startOf s n j ↔ i ≤ j := by
  rw [← not_lt, h.startOf_lt_iff hj hi, not_lt]

lemma Horizon.startOf_injective
    (he : startOf s n i = startOf s n j) : i = j := by
  apply le_antisymm
  · exact (h.startOf_le_iff hi hj).mp he.le
  · exact (h.startOf_le_iff hj hi).mp he.ge

end

lemma loop_eq {fuel idx : ℕ} (hi : idx ≤ i) (hfuel : i ≤ idx + fuel) (hle : ∀ j, idx < j → j ≤ i → startOf s n j ≤ asOf)
    (hstop : ¬ startOf s n (i + 1) ≤ asOf ∨ i = idx + fuel) : periodIndexLoop s.iso n asOf fuel idx = i := by
  induction fuel generalizing idx with
  | zero => simp only [periodIndexLoop]; omega
  | succ fuel ih =>
    rw [periodIndexLoop]
    change (if startOf s n (idx + 1) ≤ asOf then _ else _) = i
    rcases Nat.eq_or_lt_of_le hi with he | hlt
    · subst he
      rw [if_neg (hstop.resolve_right (by omega))]
    · rw [if_pos (hle (idx + 1) (by omega) (by omega))]
      apply ih (by omega) (by omega)
      · exact fun j hj hji => hle j (by omega) hji
      · exact hstop.imp_right (by omega)

lemma periodIndexFor_eq (hg : i ≤ runawayGuard + 1) (hle : ∀ j, 0 < j → j ≤ i → startOf s n j ≤ asOf)
    (hstop : ¬ startOf s n (i + 1) ≤ asOf ∨ i = runawayGuard + 1) : periodIndexFor s.iso n asOf = i :=
  loop_eq (Nat.zero_le _) (by omega) hle (hstop.imp_right (by omega))

lemma Horizon.index_spec (h : Horizon s n N) (ha : asOf < startOf s n N) (hN : 0 < N) :
    periodIndexFor s.iso n asOf < N ∧ asOf < startOf s n (periodIndexFor s.iso n asOf + 1) ∧
      (0 < periodIndexFor s.iso n asOf → startOf s n (periodIndexFor s.iso n asOf) ≤ asOf) := by
  classical
  have hex : ∃ i, asOf < startOf s n (i + 1) := ⟨N - 1, by rwa [Nat.sub_add_cancel hN]⟩
  have hlast : Nat.find hex ≤ N - 1 := Nat.find_min' hex (by rwa [Nat.sub_add_cancel hN])
  have hle : ∀ j, 0 < j → j ≤ Nat.find hex → startOf s n j ≤ asOf := by
    intro j hj hji
    have hm := Nat.find_min hex (m := j - 1) (by omega)
    rw [Nat.sub_add_cancel hj] at hm
    exact not_lt.mp hm
  have hg := h.guard
  have he := periodIndexFor_eq (s := s) (n := n) (by omega) hle (Or.inl (not_le.mpr (Nat.find_spec hex)))
  rw [he]
  exact ⟨by omega, Nat.find_spec hex, fun hp => hle _ hp le_rfl⟩

lemma Horizon.index_ge (h : Horizon s n N) (ha : asOf < startOf s n N)
    (hj : startOf s n j ≤ asOf) (hjN : j ≤ N) : j ≤ periodIndexFor s.iso n asOf := by
  have hN : 0 < N := by
    rcases Nat.eq_zero_or_pos N with rfl | hp
    · obtain rfl : j = 0 := by omega
      exact absurd ha (not_lt.mpr hj)
    · exact hp
  obtain ⟨hi, hlt, _⟩ := h.index_spec ha hN
  have hij := (h.startOf_lt_iff hjN (by omega)).mp (hj.trans_lt hlt)
  omega

lemma Horizon.index_start (h : Horizon s n N) (hj : j < N) : periodIndexFor s.iso n (startOf s n j) = j := by
  have hg := h.guard
  apply periodIndexFor_eq (by omega)
  · exact fun i _ hi => (h.startOf_le_iff (by omega) (by omega)).mpr hi
  · exact Or.inl (not_le.mpr ((h.startOf_lt_iff (by omega) (by omega)).mpr (by omega)))

end Breeze.Contracts.PeriodGrid
