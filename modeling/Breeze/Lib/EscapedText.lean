import Breeze.Lib.GoValue

/-! JavaScript strings that Go reads back: those in which no surrogate stands alone. -/

namespace Breeze.Lib.EscapedText

open Utf8 QuotedText
open Quoted (JsString codePoints)
open GoJson (isSurrogate)

def isWellFormed (s : JsString) : Bool := (codePoints s).all fun c => !isSurrogate c

lemma toNat_scalar {c : ℕ} (hc : c < 0x110000) (h : ¬ (0xD800 ≤ c ∧ c ≤ 0xDFFF)) : (scalar c).toNat = c := by
  rw [scalar_of_not_surrogate h]
  refine toNat_ofNat_of_valid ?_
  simp only [Nat.isValidChar]
  omega

theorem utf16_decoded_iff (s : JsString) : utf16 (decoded s) = s ↔ isWellFormed s = true := by
  simp only [isWellFormed, isSurrogate, List.all_eq_true, Bool.not_eq_true', decide_eq_false_iff_not]
  constructor
  · intro h c hc
    rw [← h, codePoints_utf16] at hc
    obtain ⟨d, -, rfl⟩ := List.mem_map.mp hc
    have hvalid : d.toNat < 0xD800 ∨ (0xDFFF < d.toNat ∧ d.toNat < 0x110000) := toNat_valid d
    omega
  · intro h
    have hpoint : ∀ c ∈ codePoints s, Quoted.units (scalar c).toNat = Quoted.units c := fun c hc => by
      rw [toNat_scalar (Quoted.codePoints_lt s c hc) (h c hc)]
    rw [utf16, decoded, List.flatMap_map, List.flatMap_congr hpoint, Quoted.codePoints_units]

lemma scalar_ascii {c : ℕ} (hc : c < 0x110000) {d : Char} (hd : d.toNat < 0x80) (h : scalar c = d) : c = d.toNat := by
  by_cases hs : 0xD800 ≤ c ∧ c ≤ 0xDFFF
  · rw [scalar, GoJson.single, if_pos (by simp [isSurrogate, hs])] at h
    rw [← h] at hd
    exact absurd hd (by decide)
  · rw [← h, toNat_scalar hc hs]

end Breeze.Lib.EscapedText
