import Breeze.Lib.Utf8

/-! Numbers written with a fixed number of digits: little-endian bytes and hexadecimal texts. -/

namespace Breeze.Lib.FixedWidth

open Decimal
open Utf8 (Bytes)

section LittleEndian

def le : ℕ → ℕ → Bytes
  | 0, _ => []
  | w + 1, n => UInt8.ofNat (n % 256) :: le w (n / 256)

def readLe : Bytes → ℕ
  | [] => 0
  | b :: bs => b.toNat + 256 * readLe bs

@[simp] lemma le_length (w n : ℕ) : (le w n).length = w := by
  induction w generalizing n with
  | zero => rfl
  | succ w ih => simp [le, ih]

lemma readLe_le {w n : ℕ} (h : n < 256 ^ w) : readLe (le w n) = n := by
  induction w generalizing n with
  | zero =>
    rw [pow_zero] at h
    simp [le, readLe]
    omega
  | succ w ih =>
    have hdiv : n / 256 < 256 ^ w := by
      rw [pow_succ] at h
      exact Nat.div_lt_of_lt_mul (by omega)
    rw [le, readLe, ih hdiv, UInt8.toNat_ofNat']
    omega

lemma le_readLe (bs : Bytes) : le bs.length (readLe bs) = bs := by
  induction bs with
  | nil => rfl
  | cons b bs ih =>
    have hb := b.toNat_lt
    have hmod : (b.toNat + 256 * readLe bs) % 256 = b.toNat := by omega
    have hdiv : (b.toNat + 256 * readLe bs) / 256 = readLe bs := by omega
    rw [List.length_cons, le, readLe, hmod, hdiv, ih, UInt8.ofNat_toNat]

lemma readLe_lt (bs : Bytes) : readLe bs < 256 ^ bs.length := by
  induction bs with
  | nil => exact Nat.one_pos
  | cons b bs ih =>
    have hb := b.toNat_lt
    rw [readLe, List.length_cons, pow_succ]
    omega

end LittleEndian

section Hexadecimal

def hex : ℕ → ℕ → Text
  | 0, _ => []
  | w + 1, n => hex w (n / 16) ++ [(n % 16).digitChar]

def hexDigit (c : Char) : Option ℕ :=
  if c.isDigit then some (c.toNat - 48)
  else if 97 ≤ c.toNat ∧ c.toNat ≤ 102 then some (c.toNat - 87)
  else if 65 ≤ c.toNat ∧ c.toNat ≤ 70 then some (c.toNat - 55)
  else none

def hexValue (s : Text) : Option ℕ := s.foldlM (fun n c => (hexDigit c).map (16 * n + ·)) 0

@[simp] lemma hex_length (w n : ℕ) : (hex w n).length = w := by
  induction w generalizing n with
  | zero => rfl
  | succ w ih => simp [hex, ih]

lemma hexValue_append (s : Text) (c : Char) :
    hexValue (s ++ [c]) = (hexValue s).bind fun n => (hexDigit c).map (16 * n + ·) := by
  simp only [hexValue, List.foldlM_append, List.foldlM_cons, List.foldlM_nil, bind_pure]
  rfl

variable {d n : ℕ} {s : Text}

lemma hexDigit_digitChar (h : d < 16) : hexDigit d.digitChar = some d := by
  have hall : ∀ d < 16, hexDigit (Nat.digitChar d) = some d := by decide
  exact hall d h

lemma hexValue_hex {w : ℕ} (h : n < 16 ^ w) : hexValue (hex w n) = some n := by
  induction w generalizing n with
  | zero =>
    rw [pow_zero] at h
    obtain rfl : n = 0 := by omega
    rfl
  | succ w ih =>
    have hdiv : n / 16 < 16 ^ w := by
      rw [pow_succ] at h
      exact Nat.div_lt_of_lt_mul (by omega)
    rw [hex, hexValue_append, ih hdiv, Option.bind_some, hexDigit_digitChar (Nat.mod_lt n (by decide)), Option.map_some,
      Nat.div_add_mod]

lemma hexDigit_lt {c : Char} (h : hexDigit c = some d) : c.toNat < 103 ∧ d < 16 := by
  simp only [hexDigit] at h
  split_ifs at h with h₁ h₂ h₃
  · have hc := digit_bounds h₁
    cases h
    omega
  · cases h
    omega
  · cases h
    omega

lemma digitChar_of_hexDigit {c : Char} (h : hexDigit c = some d) (hlower : c.toLower = c) : d.digitChar = c := by
  have hall : ∀ n < 103, ∀ d < 16, hexDigit (Char.ofNat n) = some d → (Char.ofNat n).toLower = Char.ofNat n →
      Nat.digitChar d = Char.ofNat n := by decide +kernel
  obtain ⟨hc, hd⟩ := hexDigit_lt h
  have := hall c.toNat hc d hd
  rw [Char.ofNat_toNat] at this
  exact this h hlower

lemma hex_of_hexValue (h : hexValue s = some n) (hlower : ∀ c ∈ s, c.toLower = c) : hex s.length n = s := by
  induction s using List.reverseRecOn generalizing n with
  | nil => rfl
  | append_singleton s c ih =>
    rw [hexValue_append] at h
    obtain ⟨m, hm, hd⟩ := Option.bind_eq_some_iff.mp h
    obtain ⟨d, hdigit, rfl⟩ := Option.map_eq_some_iff.mp hd
    have hlt := (hexDigit_lt hdigit).2
    have hdiv : (16 * m + d) / 16 = m := by omega
    have hmod : (16 * m + d) % 16 = d := by omega
    rw [List.length_append, List.length_singleton, hex, hdiv, hmod, ih hm fun c hc => hlower c (List.mem_append_left _ hc),
      digitChar_of_hexDigit hdigit (hlower c (by simp))]

end Hexadecimal

end Breeze.Lib.FixedWidth
