import Breeze.Contracts.ContractMath

/-! Calendar days with a year of four digits, and the order of their texts. -/

namespace Breeze.Contracts.CalendarDay

open Breeze.Lib.Decimal ContractMath

def isoText (y m d : ℕ) : Text := padded 4 y ++ '-' :: (padded 2 m ++ '-' :: padded 2 d)

structure Day where
  y : ℕ
  m : ℕ
  d : ℕ
  y_lt : y < 10000
  m_pos : 1 ≤ m
  m_le : m ≤ 12
  d_pos : 1 ≤ d
  d_le : d ≤ daysInMonth y m

structure StartDay extends Day where
  y_ge : 1000 ≤ y

def StartDay.of (y m d : ℕ) (h : (y < 10000 ∧ 1 ≤ m ∧ m ≤ 12 ∧ 1 ≤ d ∧ d ≤ daysInMonth y m) ∧ 1000 ≤ y) : StartDay :=
  ⟨⟨y, m, d, h.1.1, h.1.2.1, h.1.2.2.1, h.1.2.2.2.1, h.1.2.2.2.2⟩, h.2⟩

def Day.iso (t : Day) : Text := isoText t.y t.m t.d

lemma monthLength_le (leap : Bool) (m : ℕ) : monthLength leap m ≤ 31 := by
  unfold monthLength
  split <;> (try split) <;> omega

lemma monthLength_ge (leap : Bool) (m : ℕ) : 28 ≤ monthLength leap m := by
  unfold monthLength
  split <;> (try split) <;> omega

lemma Day.d_le_31 (t : Day) : t.d ≤ 31 := t.d_le.trans (monthLength_le _ _)

variable {y m d : ℕ}

lemma fmt_eq_isoText (hl : 1000 ≤ y) (hu : y < 10000) (hm : m < 100) (hd : d < 100) : fmt y m d = isoText y m d := by
  have hy : intText (y : ℤ) = padded 4 y := toDigits_eq_padded (w := 3) (by omega) (by omega)
  rw [fmt, isoText, hy, padStart_toDigits (by omega) (by omega), padStart_toDigits (by omega) (by omega)]

lemma hyphen_not_mem_padded (w n : ℕ) : ∀ c ∈ padded w n, (c == '-') = false := by
  intro c hc
  have hd := isDigit_of_mem_padded hc
  rw [beq_eq_false_iff_ne]
  rintro rfl
  exact absurd hd (by decide)

lemma splitOn_isoText (y m d : ℕ) :
    (isoText y m d).splitOn '-' = [padded 4 y, padded 2 m, padded 2 d] := by
  rw [isoText, List.splitOn, List.splitOnP_append_cons_of_forall_mem (hyphen_not_mem_padded 4 y) _ (by rfl),
    List.splitOnP_append_cons_of_forall_mem (hyphen_not_mem_padded 2 m) _ (by rfl),
    List.splitOnP_eq_singleton (hyphen_not_mem_padded 2 d)]

lemma parts_isoText (hy : y < 10000) (hm : m < 100) (hd : d < 100) : parts (isoText y m d) = (y, m, d) := by
  rw [parts, splitOn_isoText]
  simp only [List.getD_cons_zero, List.getD_cons_succ]
  rw [ofDigitChars_padded (by omega), ofDigitChars_padded (by omega), ofDigitChars_padded (by omega)]

lemma hyphen_not_mem_toDigits (n : ℕ) : ∀ c ∈ Nat.toDigits 10 n, (c == '-') = false := by
  intro c hc
  have hd := Nat.isDigit_of_mem_toDigits (by decide) (by decide) hc
  rw [beq_eq_false_iff_ne]
  rintro rfl
  exact absurd hd (by decide)

lemma parts_fmt (y : ℕ) (hm : m < 100) (hd : d < 100) : parts (fmt y m d) = (y, m, d) := by
  have hsplit : (fmt y m d).splitOn '-' = [Nat.toDigits 10 y, padded 2 m, padded 2 d] := by
    rw [fmt, padStart_toDigits (by omega) (by omega), padStart_toDigits (by omega) (by omega), List.splitOn]
    change List.splitOnP _ (Nat.toDigits 10 y ++ _) = _
    rw [List.splitOnP_append_cons_of_forall_mem (hyphen_not_mem_toDigits y) _ (by rfl),
      List.splitOnP_append_cons_of_forall_mem (hyphen_not_mem_padded 2 m) _ (by rfl),
      List.splitOnP_eq_singleton (hyphen_not_mem_padded 2 d)]
  rw [parts, hsplit]
  simp only [List.getD_cons_zero, List.getD_cons_succ]
  rw [Nat.ofDigitChars_toDigits (by decide) (by decide), ofDigitChars_padded (by omega), ofDigitChars_padded (by omega)]

@[simp] lemma Day.parts_iso (t : Day) : parts t.iso = (t.y, t.m, t.d) := by
  have := t.m_le
  have := t.d_le_31
  exact parts_isoText t.y_lt (by omega) (by omega)

lemma isoText_lt_iff {y' m' d' : ℕ} (hy : y < 10000) (hy' : y' < 10000) (hm : m < 100)
    (hm' : m' < 100) (hd : d < 100) (hd' : d' < 100) :
    isoText y m d < isoText y' m' d' ↔ y < y' ∨ y = y' ∧ (m < m' ∨ m = m' ∧ d < d') := by
  have hey : padded 4 y = padded 4 y' ↔ y = y' :=
    ⟨padded_injective (by omega) (by omega), fun h => by rw [h]⟩
  have hem : padded 2 m = padded 2 m' ↔ m = m' :=
    ⟨padded_injective (by omega) (by omega), fun h => by rw [h]⟩
  rw [isoText, isoText, append_lt_append_iff (by simp), List.cons_lt_cons_self,
    append_lt_append_iff (by simp), List.cons_lt_cons_self, padded_lt_iff (by omega) (by omega),
    padded_lt_iff (by omega) (by omega), padded_lt_iff (by omega) (by omega), hey, hem]

end Breeze.Contracts.CalendarDay
