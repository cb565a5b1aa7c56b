import Breeze.Lib.Utf8

/-! Sums of a hash with 32 bytes, and their hexadecimal text. -/

namespace Breeze.Lib.Checksum

open Decimal
open Utf8 (Bytes)

structure Sum where
  bytes : Bytes
  length : bytes.length = 32

def hexText (b : Bytes) : Text := b.flatMap fun x => [(x.toNat / 16).digitChar, (x.toNat % 16).digitChar]

lemma hexText_injective {a b : Bytes} (h : hexText a = hexText b) : a = b := by
  have hdigit : ∀ m < 16, ∀ n < 16, Nat.digitChar m = Nat.digitChar n → m = n := by decide
  induction a generalizing b with
  | nil =>
    cases b with
    | nil => rfl
    | cons y b => simp [hexText] at h
  | cons x a ih =>
    cases b with
    | nil => simp [hexText] at h
    | cons y b =>
      simp only [hexText, List.flatMap_cons, List.cons_append, List.nil_append, List.cons.injEq] at h
      have hx := x.toNat_lt
      have hy := y.toNat_lt
      have hhi := hdigit _ (by omega) _ (by omega) h.1
      have hlo := hdigit _ (by omega) _ (by omega) h.2.1
      rw [ih h.2.2, UInt8.toNat_inj.mp (by omega : x.toNat = y.toNat)]

lemma hexText_length (b : Bytes) : (hexText b).length = 2 * b.length := by
  induction b with
  | nil => rfl
  | cons x b ih =>
    simp only [hexText, List.flatMap_cons, List.length_append, List.length_cons, List.length_nil] at ih ⊢
    omega

def lengthSum (b : Bytes) : Sum := ⟨List.replicate 32 (UInt8.ofNat b.length), by simp⟩

end Breeze.Lib.Checksum
