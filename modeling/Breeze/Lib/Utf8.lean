import Breeze.Lib.Decimal

/-! UTF-8 over lists of bytes, read the way Go ranges over a string: a byte that starts no character is
taken by itself. -/

namespace Breeze.Lib.Utf8

open Decimal

abbrev Bytes := List UInt8

def encodeRune (c : Char) : Bytes :=
  let n := c.toNat
  if n < 0x80 then [UInt8.ofNat n]
  else if n < 0x800 then [UInt8.ofNat (0xC0 + n / 64), UInt8.ofNat (0x80 + n % 64)]
  else if n < 0x10000 then
    [UInt8.ofNat (0xE0 + n / 4096), UInt8.ofNat (0x80 + n / 64 % 64), UInt8.ofNat (0x80 + n % 64)]
  else [UInt8.ofNat (0xF0 + n / 262144), UInt8.ofNat (0x80 + n / 4096 % 64), UInt8.ofNat (0x80 + n / 64 % 64),
    UInt8.ofNat (0x80 + n % 64)]

def isTail (b : UInt8) : Bool := decide (0x80 ≤ b.toNat ∧ b.toNat < 0xC0)

def accept (lo n : ℕ) (rest : Bytes) : Option (Char × Bytes) :=
  if lo ≤ n ∧ n.isValidChar then some (Char.ofNat n, rest) else none

def decodeRune : Bytes → Option (Char × Bytes)
  | [] => none
  | a :: t =>
    if a.toNat < 0x80 then some (Char.ofNat a.toNat, t)
    else if 0xC0 ≤ a.toNat ∧ a.toNat < 0xE0 then
      match t with
      | b :: t => if isTail b then accept 0x80 ((a.toNat - 0xC0) * 64 + (b.toNat - 0x80)) t else none
      | _ => none
    else if 0xE0 ≤ a.toNat ∧ a.toNat < 0xF0 then
      match t with
      | b :: c :: t =>
        if isTail b && isTail c then
          accept 0x800 ((a.toNat - 0xE0) * 4096 + (b.toNat - 0x80) * 64 + (c.toNat - 0x80)) t
        else none
      | _ => none
    else if 0xF0 ≤ a.toNat ∧ a.toNat < 0xF8 then
      match t with
      | b :: c :: d :: t =>
        if isTail b && isTail c && isTail d then
          accept 0x10000 ((a.toNat - 0xF0) * 262144 + (b.toNat - 0x80) * 4096 + (c.toNat - 0x80) * 64 +
            (d.toNat - 0x80)) t
        else none
      | _ => none
    else none

def encode (t : Text) : Bytes := t.flatMap encodeRune

inductive Rune where
  | ok (c : Char)
  | bad (b : UInt8)
  deriving DecidableEq

def runesFuel : ℕ → Bytes → List Rune
  | 0, _ => []
  | _ + 1, [] => []
  | fuel + 1, b :: s =>
    match decodeRune (b :: s) with
    | some (c, rest) => .ok c :: runesFuel fuel rest
    | none => .bad b :: runesFuel fuel s

def runes (s : Bytes) : List Rune := runesFuel s.length s

def replacement : Char := Char.ofNat 0xFFFD

def toText (s : Bytes) : Text := (runes s).map (fun
  | .ok c => c
  | .bad _ => replacement)

lemma toNat_valid (c : Char) : c.toNat.isValidChar := c.valid

lemma toNat_lt (c : Char) : c.toNat < 0x110000 := by
  have h := toNat_valid c
  simp only [Nat.isValidChar] at h
  omega

lemma accept_char {c : Char} {lo n : ℕ} (rest : Bytes) (hn : n = c.toNat) (hlo : lo ≤ n) :
    accept lo n rest = some (c, rest) := by
  subst hn
  rw [accept, if_pos ⟨hlo, toNat_valid c⟩, Char.ofNat_toNat]

lemma toNat_ofNat_byte {n : ℕ} (h : n < 256) : (UInt8.ofNat n).toNat = n := by
  rw [UInt8.toNat_ofNat', Nat.mod_eq_of_lt h]

lemma isTail_ofNat {n : ℕ} (h : n < 64) : isTail (UInt8.ofNat (0x80 + n)) = true := by
  rw [isTail, toNat_ofNat_byte (by omega)]
  exact decide_eq_true (by omega)

theorem decodeRune_encodeRune (c : Char) (rest : Bytes) : decodeRune (encodeRune c ++ rest) = some (c, rest) := by
  have hlt := toNat_lt c
  rw [encodeRune]
  split_ifs with h₁ h₂ h₃
  · simp only [List.singleton_append, decodeRune, toNat_ofNat_byte (show c.toNat < 256 by omega)]
    rw [if_pos h₁, Char.ofNat_toNat]
  · simp only [List.cons_append, List.nil_append, decodeRune, toNat_ofNat_byte (show 0xC0 + c.toNat / 64 < 256 by omega),
      isTail_ofNat (show c.toNat % 64 < 64 by omega), toNat_ofNat_byte (show 0x80 + c.toNat % 64 < 256 by omega)]
    rw [if_neg (by omega), if_pos (by omega), if_pos trivial]
    exact accept_char rest (by omega) (by omega)
  · simp only [List.cons_append, List.nil_append, decodeRune, toNat_ofNat_byte (show 0xE0 + c.toNat / 4096 < 256 by omega),
      isTail_ofNat (show c.toNat % 64 < 64 by omega), isTail_ofNat (show c.toNat / 64 % 64 < 64 by omega),
      toNat_ofNat_byte (show 0x80 + c.toNat % 64 < 256 by omega),
      toNat_ofNat_byte (show 0x80 + c.toNat / 64 % 64 < 256 by omega), Bool.and_self]
    rw [if_neg (by omega), if_neg (by omega), if_pos (by omega), if_pos trivial]
    exact accept_char rest (by omega) (by omega)
  · simp only [List.cons_append, List.nil_append, decodeRune, toNat_ofNat_byte (show 0xF0 + c.toNat / 262144 < 256 by omega),
      isTail_ofNat (show c.toNat % 64 < 64 by omega), isTail_ofNat (show c.toNat / 64 % 64 < 64 by omega),
      isTail_ofNat (show c.toNat / 4096 % 64 < 64 by omega), toNat_ofNat_byte (show 0x80 + c.toNat % 64 < 256 by omega),
      toNat_ofNat_byte (show 0x80 + c.toNat / 64 % 64 < 256 by omega),
      toNat_ofNat_byte (show 0x80 + c.toNat / 4096 % 64 < 256 by omega), Bool.and_self]
    rw [if_neg (by omega), if_neg (by omega), if_neg (by omega), if_pos (by omega), if_pos trivial]
    exact accept_char rest (by omega) (by omega)

lemma encodeRune_ne_nil (c : Char) : encodeRune c ≠ [] := by
  rw [encodeRune]
  split_ifs <;> simp

lemma runesFuel_encode (t : Text) {fuel : ℕ} (h : (encode t).length ≤ fuel) :
    runesFuel fuel (encode t) = t.map .ok := by
  induction t generalizing fuel with
  | nil => cases fuel <;> rfl
  | cons c t ih =>
    have hd := decodeRune_encodeRune c (encode t)
    have hlen : (encode (c :: t)).length = (encodeRune c).length + (encode t).length := by simp [encode]
    have hpos := List.length_pos_iff.mpr (encodeRune_ne_nil c)
    obtain ⟨b, s, hs⟩ := List.exists_cons_of_ne_nil (encodeRune_ne_nil c)
    cases fuel with
    | zero => omega
    | succ fuel =>
      have he : encode (c :: t) = b :: (s ++ encode t) := by simp [encode, hs]
      rw [hs, List.cons_append] at hd
      rw [he, runesFuel, hd, List.map_cons]
      dsimp only
      rw [ih (by omega)]

@[simp] theorem runes_encode (t : Text) : runes (encode t) = t.map .ok := runesFuel_encode t le_rfl

@[simp] theorem toText_encode (t : Text) : toText (encode t) = t := by
  simp [toText, Function.comp_def]

theorem encode_injective {t u : Text} (h : encode t = encode u) : t = u := by
  rw [← toText_encode t, h, toText_encode]

lemma encode_append (t u : Text) : encode (t ++ u) = encode t ++ encode u := by
  simp [encode]

end Breeze.Lib.Utf8
