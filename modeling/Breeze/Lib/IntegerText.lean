import Breeze.Lib.NumberText
import Mathlib.Data.Nat.Size

/-! Integers as JavaScript holds and writes them: the nearest double, and the shortest decimal that reads back as it. -/

namespace Breeze.Lib.IntegerText

open Decimal NumberText

def nearest (n : ℕ) : ℕ :=
  let u := 2 ^ (n.size - 53)
  let q := n / u
  let r := n % u
  if 2 * r < u ∨ 2 * r = u ∧ q % 2 = 0 then q * u else (q + 1) * u

-- the multiples of 10 ^ j next to m, the closer one first
def neighbours (m j : ℕ) : List ℕ :=
  let q := m / 10 ^ j
  let below := m % 10 ^ j
  let above := 10 ^ j - below
  if below < above ∨ below = above ∧ q % 2 = 0 then [q * 10 ^ j, (q + 1) * 10 ^ j]
  else [(q + 1) * 10 ^ j, q * 10 ^ j]

def shortened (m : ℕ) : ℕ → ℕ
  | 0 => m
  | j + 1 => ((neighbours m (j + 1)).find? fun c => nearest c == m).getD (shortened m j)

def written (n : ℕ) : ℕ := shortened (nearest n) (Nat.toDigits 10 (nearest n)).length

def decimal (neg : Bool) (c : ℕ) : JsNumber :=
  if h : c = 0 then .zero
  else .finite ⟨neg, c.divMaxPow 10, (Nat.toDigits 10 (c.divMaxPow 10)).length + padicValNat 10 c,
    fun hs => Nat.not_dvd_divMaxPow (by decide) h (Nat.dvd_of_mod_eq_zero hs)⟩

def isInfinite (n : ℤ) : Bool := decide (1024 < (nearest n.natAbs).size)

def ofInt (n : ℤ) : JsNumber := decimal (decide (n < 0)) (written n.natAbs)

def intText (n : ℤ) : Text := (if n < 0 then ['-'] else []) ++ Nat.toDigits 10 n.natAbs

def isKept (n : ℤ) : Bool := decide (written n.natAbs = n.natAbs ∧ n.natAbs < 10 ^ 21)

lemma toDigits_mul_pow {s : ℕ} (hs : 0 < s) (z : ℕ) : Nat.toDigits 10 (10 ^ z * s) = Nat.toDigits 10 s ++ List.replicate z '0' := by
  induction z with
  | zero => simp
  | succ z ih =>
    have hstep := Nat.toDigits_append_toDigits (b := 10) (n := 10 ^ z * s) (d := 0) (by decide) (by positivity) (by decide)
    rw [pow_succ', mul_assoc, List.replicate_succ', ← List.append_assoc, ← ih]
    simpa using hstep.symm

variable {c : ℕ} {neg : Bool}

lemma digits_decimal (hc : c ≠ 0) :
    Nat.toDigits 10 c = Nat.toDigits 10 (c.divMaxPow 10) ++ List.replicate (padicValNat 10 c) '0' := by
  have hpos : 0 < c.divMaxPow 10 := by
    refine Nat.pos_of_ne_zero fun h => Nat.not_dvd_divMaxPow (p := 10) (by decide) hc ?_
    rw [h]
    exact dvd_zero 10
  rw [← toDigits_mul_pow hpos, Nat.pow_padicValNat_mul_divMaxPow]

lemma length_toDigits_le : (Nat.toDigits 10 c).length ≤ 21 ↔ c < 10 ^ 21 :=
  Nat.length_toDigits_le_iff (by decide) (by decide)

lemma magnitude_decimal (hc : c ≠ 0) (h : c < 10 ^ 21) :
    magnitudeText (c.divMaxPow 10) ((Nat.toDigits 10 (c.divMaxPow 10)).length + padicValNat 10 c) = Nat.toDigits 10 c := by
  have hlen := length_toDigits_le.mpr h
  rw [digits_decimal hc, List.length_append, List.length_replicate] at hlen
  rw [magnitudeText, if_pos (by omega), digits_decimal hc, layout]
  simp [exponentText]

lemma mem_magnitude_large (hc : c ≠ 0) (h : ¬ c < 10 ^ 21) :
    'e' ∈ magnitudeText (c.divMaxPow 10) ((Nat.toDigits 10 (c.divMaxPow 10)).length + padicValNat 10 c) := by
  have hlen := length_toDigits_le.not.mpr h
  rw [digits_decimal hc, List.length_append, List.length_replicate] at hlen
  rw [magnitudeText, if_neg (by omega), if_neg (by omega), if_neg (by omega), layout]
  simp [exponentText]

lemma toText_decimal (h : c < 10 ^ 21) :
    toText (decimal neg c) = (if neg = true ∧ c ≠ 0 then ['-'] else []) ++ Nat.toDigits 10 c := by
  rw [decimal]
  split_ifs with hc hneg hneg
  · exact absurd hc hneg.2
  · subst hc
    rfl
  · rw [toText, if_pos hneg.1, magnitude_decimal hc h]
  · rw [toText, if_neg (fun hn => hneg ⟨hn, hc⟩), magnitude_decimal hc h]

lemma mem_toText_large (h : ¬ c < 10 ^ 21) : 'e' ∈ toText (decimal neg c) := by
  have hc : c ≠ 0 := by
    rintro rfl
    exact h (by decide)
  rw [decimal, dif_neg hc, toText]
  exact List.mem_append_right _ (mem_magnitude_large hc h)

lemma not_mem_intText (n : ℤ) : 'e' ∉ intText n := by
  intro h
  rcases List.mem_append.mp h with h | h
  · split at h <;> simp at h
  · exact absurd (toDigits_digits _ _ h) (by decide)

lemma toDigits_ne_neg (c : ℕ) (t : Text) : Nat.toDigits 10 c ≠ '-' :: t := by
  intro h
  exact absurd (toDigits_digits c '-' (by simp [h])) (by decide)

lemma toDigits_injective {a b : ℕ} (h : Nat.toDigits 10 a = Nat.toDigits 10 b) : a = b := by
  have hv := congrArg (fun t => Nat.ofDigitChars 10 t 0) h
  simpa only [Nat.ofDigitChars_ten_toDigits] using hv

theorem toText_ofInt_iff (n : ℤ) : toText (ofInt n) = intText n ↔ isKept n = true := by
  rw [isKept, decide_eq_true_eq]
  constructor
  · intro h
    by_cases hlarge : written n.natAbs < 10 ^ 21
    · rw [ofInt, toText_decimal hlarge, intText] at h
      have hdigits : Nat.toDigits 10 (written n.natAbs) = Nat.toDigits 10 n.natAbs := by
        split_ifs at h
        · simpa using h
        · exact absurd h.symm (toDigits_ne_neg _ _)
        · exact absurd h (toDigits_ne_neg _ _)
        · simpa using h
      have heq := toDigits_injective hdigits
      exact ⟨heq, heq ▸ hlarge⟩
    · exact absurd (h ▸ mem_toText_large hlarge) (not_mem_intText n)
  · rintro ⟨heq, hlt⟩
    have hsign : (decide (n < 0) = true ∧ n.natAbs ≠ 0) ↔ n < 0 := by
      simp only [decide_eq_true_eq]
      omega
    rw [ofInt, heq, toText_decimal hlt, intText, if_congr hsign rfl rfl]

section Safe

lemma nearest_of_lt {n : ℕ} (h : n < 2 ^ 53) : nearest n = n := by
  have hsize : n.size - 53 = 0 := Nat.sub_eq_zero_of_le (Nat.size_le.mpr h)
  simp [nearest, hsize, Nat.mod_one]

lemma le_nearest {n : ℕ} (h : 2 ^ 53 ≤ n) : 2 ^ 53 ≤ nearest n := by
  have hsize : 53 < n.size := Nat.lt_size.mpr h
  obtain ⟨e, he⟩ : ∃ e, n.size = 53 + (e + 1) := ⟨n.size - 54, by omega⟩
  have hpow : 2 ^ (53 + e) ≤ n := Nat.lt_size.mp (by omega)
  have hq : 2 ^ 52 ≤ n / 2 ^ (e + 1) := by
    rw [Nat.le_div_iff_mul_le (by positivity), ← pow_add]
    exact le_trans (by rw [show 52 + (e + 1) = 53 + e by omega]) hpow
  have hu : 2 ≤ 2 ^ (e + 1) := by
    rw [pow_succ]
    have := Nat.one_le_two_pow (n := e)
    omega
  have hmul : 2 ^ 52 * 2 ≤ n / 2 ^ (e + 1) * 2 ^ (e + 1) := Nat.mul_le_mul hq hu
  have hsub : n.size - 53 = e + 1 := by omega
  rw [nearest, hsub]
  split_ifs
  · omega
  · rw [add_mul]
    omega

lemma shortened_of_lt {m : ℕ} (h : m < 2 ^ 53) (j : ℕ) : shortened m j = m := by
  induction j with
  | zero => rfl
  | succ j ih =>
    rw [shortened, ih]
    cases hf : (neighbours m (j + 1)).find? fun c => nearest c == m with
    | none => rfl
    | some c =>
      have hc : nearest c = m := by simpa using List.find?_some hf
      have hlt : c < 2 ^ 53 := by
        by_contra hge
        have := le_nearest (not_lt.mp hge)
        omega
      rw [Option.getD_some, ← hc, nearest_of_lt hlt]

theorem isKept_of_safe {n : ℤ} (h : n.natAbs < 2 ^ 53) : isKept n = true := by
  rw [isKept, decide_eq_true_eq, written, nearest_of_lt h]
  exact ⟨shortened_of_lt h _, h.trans (by decide)⟩

end Safe

lemma nearest_le (n : ℕ) : nearest n ≤ 2 * n := by
  rcases Nat.eq_zero_or_pos n with rfl | hpos
  · decide
  have hsize : 0 < n.size := Nat.size_pos.mpr hpos
  have hu : 2 ^ (n.size - 53) ≤ n := by
    refine (Nat.pow_le_pow_right (by decide) (by omega : n.size - 53 ≤ n.size - 1)).trans (Nat.lt_size.mp ?_)
    omega
  have hq := Nat.div_mul_le_self n (2 ^ (n.size - 53))
  rw [nearest]
  split_ifs
  · omega
  · rw [add_mul]
    omega

lemma not_infinite_of_kept {n : ℤ} (h : isKept n = true) : isInfinite n = false := by
  rw [isKept, decide_eq_true_eq] at h
  have hlt : nearest n.natAbs < 2 ^ 71 := (nearest_le n.natAbs).trans_lt (by omega)
  have hsize := Nat.size_le.mpr hlt
  exact decide_eq_false (by omega)

end Breeze.Lib.IntegerText
