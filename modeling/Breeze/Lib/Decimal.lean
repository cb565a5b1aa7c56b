import Mathlib.Data.Char
import Mathlib.Tactic

/-! Decimal numerals as texts. Numerals of one width are ordered as the numbers they denote. -/

namespace Breeze.Lib.Decimal

abbrev Text := List Char

instance : LawfulBEq Text := inferInstance

def padded : ℕ → ℕ → Text
  | 0, _ => []
  | w + 1, n => padded w (n / 10) ++ [(n % 10).digitChar]

def padStart (w : ℕ) (s : Text) : Text := List.replicate (w - s.length) '0' ++ s

@[simp] lemma padded_length (w n : ℕ) : (padded w n).length = w := by
  induction w generalizing n with
  | zero => rfl
  | succ w ih => simp [padded, ih]

lemma append_lt_append_iff {a b : Text} (h : a.length = b.length) (x y : Text) :
    a ++ x < b ++ y ↔ a < b ∨ a = b ∧ x < y := by
  induction a generalizing b with
  | nil =>
    obtain rfl : b = [] := List.length_eq_zero_iff.mp h.symm
    simp
  | cons c a ih =>
    cases b with
    | nil => simp at h
    | cons e b =>
      have hl : a.length = b.length := by simpa using h
      simp only [List.cons_append, List.cons_lt_cons_iff, ih hl, List.cons.injEq]
      tauto

variable {a b w n : ℕ}

lemma digitChar_lt_iff (ha : a < 10) (hb : b < 10) : a.digitChar < b.digitChar ↔ a < b := by
  have hall : ∀ a < 10, ∀ b < 10, (a.digitChar < b.digitChar ↔ a < b) := by decide
  exact hall a ha b hb

lemma padded_injective (ha : a < 10 ^ w) (hb : b < 10 ^ w) (h : padded w a = padded w b) : a = b := by
  induction w generalizing a b with
  | zero => simp at ha hb; omega
  | succ w ih =>
    obtain ⟨hq, hr⟩ := List.append_inj h (by simp)
    have hq' := ih (by rw [pow_succ] at ha; omega) (by rw [pow_succ] at hb; omega) hq
    have hd : (a % 10).digitChar = (b % 10).digitChar := by simpa using hr
    have hlt := digitChar_lt_iff (Nat.mod_lt a (by omega : 0 < 10)) (Nat.mod_lt b (by omega : 0 < 10))
    have hgt := digitChar_lt_iff (Nat.mod_lt b (by omega : 0 < 10)) (Nat.mod_lt a (by omega : 0 < 10))
    rw [hd] at hlt hgt
    simp only [lt_self_iff_false, false_iff, not_lt] at hlt hgt
    omega

lemma padded_lt_iff (ha : a < 10 ^ w) (hb : b < 10 ^ w) : padded w a < padded w b ↔ a < b := by
  induction w generalizing a b with
  | zero => simp at ha hb; simp [padded, ha, hb]
  | succ w ih =>
    have hqa : a / 10 < 10 ^ w := by rw [pow_succ] at ha; omega
    have hqb : b / 10 < 10 ^ w := by rw [pow_succ] at hb; omega
    have hd := digitChar_lt_iff (Nat.mod_lt a (by omega : 0 < 10)) (Nat.mod_lt b (by omega : 0 < 10))
    rw [padded, padded, append_lt_append_iff (by simp), ih hqa hqb]
    simp only [List.cons_lt_cons_iff, lt_self_iff_false, and_false, or_false, hd]
    constructor
    · rintro (h | ⟨h, h'⟩)
      · omega
      · have := padded_injective hqa hqb h
        omega
    · intro h
      by_cases hq : a / 10 < b / 10
      · exact Or.inl hq
      · have he : a / 10 = b / 10 := by omega
        exact Or.inr ⟨by rw [he], by omega⟩

lemma padded_zero (w : ℕ) : padded w 0 = List.replicate w '0' := by
  induction w with
  | zero => rfl
  | succ w ih => simp [padded, ih, List.replicate_succ', Nat.digitChar]

lemma padStart_toDigits (hw : 0 < w) (hn : n < 10 ^ w) : padStart w (Nat.toDigits 10 n) = padded w n := by
  induction w generalizing n with
  | zero => omega
  | succ w ih =>
    by_cases h : n < 10
    · rw [Nat.toDigits_of_lt_base h]
      simp [padStart, padded, Nat.div_eq_of_lt h, Nat.mod_eq_of_lt h, padded_zero]
    · have hq : n / 10 < 10 ^ w := by rw [pow_succ] at hn; omega
      have hw' : 0 < w := by
        by_contra hc
        obtain rfl : w = 0 := by omega
        simp at hq
        omega
      rw [Nat.toDigits_of_base_le (by omega) (by omega), padded, ← ih hw' hq]
      simp [padStart, List.append_assoc]

lemma toDigits_eq_padded (hl : 10 ^ w ≤ n) (hu : n < 10 ^ (w + 1)) : Nat.toDigits 10 n = padded (w + 1) n := by
  have hlen : w < (Nat.toDigits 10 n).length := by
    by_contra hc
    rcases Nat.eq_zero_or_pos w with rfl | hw
    · have := Nat.length_toDigits_pos (b := 10) (n := n)
      omega
    · have := (Nat.length_toDigits_le_iff (b := 10) (n := n) (by omega) hw).mp (by omega)
      omega
  have h := padStart_toDigits (Nat.succ_pos w) hu
  rwa [padStart, Nat.sub_eq_zero_of_le hlen, List.replicate_zero, List.nil_append] at h

lemma digit_bounds {c : Char} (h : c.isDigit = true) : 48 ≤ c.toNat ∧ c.toNat ≤ 57 := by
  simpa [Char.isDigit, UInt32.le_iff_toNat_le] using h

lemma isDigit_of_mem_padded {c : Char} (h : c ∈ padded w n) : c.isDigit = true := by
  induction w generalizing n with
  | zero => simp [padded] at h
  | succ w ih =>
    rw [padded, List.mem_append] at h
    rcases h with h | h
    · exact ih h
    · rw [List.mem_singleton.mp h, Nat.isDigit_digitChar]
      exact decide_eq_true (Nat.mod_lt _ (by omega))

lemma ofDigitChars_padded (h : n < 10 ^ w) : Nat.ofDigitChars 10 (padded w n) 0 = n := by
  induction w generalizing n with
  | zero => simp at h; simp [padded, h]
  | succ w ih =>
    have hq : n / 10 < 10 ^ w := by rw [pow_succ] at h; omega
    rw [padded, Nat.ofDigitChars_append, ih hq,
      Nat.ofDigitChars_cons_digitChar_of_lt_ten (Nat.mod_lt _ (by omega)), Nat.ofDigitChars_nil]
    omega

lemma head_toDigits_ne_zero (h : 0 < n) : (Nat.toDigits 10 n).head? ≠ some '0' := by
  induction n using Nat.strong_induction_on with
  | _ n ih =>
    by_cases hn : n < 10
    · have hall : ∀ k < 10, 0 < k → k.digitChar ≠ '0' := by decide
      simpa [Nat.toDigits_of_lt_base hn] using hall n hn h
    · obtain ⟨c, t, hct⟩ := List.exists_cons_of_ne_nil (Nat.toDigits_ne_nil (n := n / 10) (b := 10))
      have hq := ih (n / 10) (by omega) (by omega)
      rw [Nat.toDigits_of_base_le (by decide) (by omega), hct]
      simpa [hct] using hq

end Breeze.Lib.Decimal
