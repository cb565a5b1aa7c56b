import Breeze.Lib.Decimal

/-! Strings of UTF-16 code units and their quoted form in JSON text. -/

namespace Breeze.Lib.Quoted

open Decimal List

abbrev JsString := List UInt16

def isHigh (u : UInt16) : Bool := decide (0xD800 ≤ u.toNat ∧ u.toNat ≤ 0xDBFF)

def isLow (u : UInt16) : Bool := decide (0xDC00 ≤ u.toNat ∧ u.toNat ≤ 0xDFFF)

def codePoints : JsString → List ℕ
  | [] => []
  | [u] => [u.toNat]
  | u :: v :: s =>
    if isHigh u && isLow v then
      (0x10000 + (u.toNat - 0xD800) * 0x400 + (v.toNat - 0xDC00)) :: codePoints s
    else u.toNat :: codePoints (v :: s)

def units (c : ℕ) : JsString :=
  if c < 0x10000 then [UInt16.ofNat c]
  else [UInt16.ofNat (0xD800 + (c - 0x10000) / 0x400), UInt16.ofNat (0xDC00 + (c - 0x10000) % 0x400)]

lemma units_toNat (u : UInt16) : units u.toNat = [u] := by
  have h := u.toNat_lt
  rw [units, if_pos (by omega), UInt16.ofNat_toNat]

lemma codePoints_units (s : JsString) : (codePoints s).flatMap units = s := by
  fun_induction codePoints s with
  | case1 => rfl
  | case2 u => simp [units_toNat]
  | case3 u v s h ih =>
    simp only [isHigh, isLow, Bool.and_eq_true, decide_eq_true_eq] at h
    obtain ⟨⟨hu, hu'⟩, hv, hv'⟩ := h
    have hq : 0xD800 + (0x10000 + (u.toNat - 0xD800) * 0x400 + (v.toNat - 0xDC00) - 0x10000) / 0x400 = u.toNat := by
      omega
    have hr : 0xDC00 + (0x10000 + (u.toNat - 0xD800) * 0x400 + (v.toNat - 0xDC00) - 0x10000) % 0x400 = v.toNat := by
      omega
    rw [flatMap_cons, ih, units, if_neg (by omega), hq, hr, UInt16.ofNat_toNat, UInt16.ofNat_toNat]
    rfl
  | case4 u v s h ih => rw [flatMap_cons, ih, units_toNat, singleton_append]

variable {s : JsString} {a b : ℕ} {x r : Text}

lemma codePoints_lt (s : JsString) : ∀ c ∈ codePoints s, c < 0x110000 := by
  fun_induction codePoints s with
  | case1 => simp
  | case2 u =>
    have h := u.toNat_lt
    simp only [mem_singleton, forall_eq]
    omega
  | case3 u v s h ih =>
    simp only [isHigh, isLow, Bool.and_eq_true, decide_eq_true_eq] at h
    refine List.forall_mem_cons.mpr ⟨?_, ih⟩
    omega
  | case4 u v s h ih =>
    have h := u.toNat_lt
    exact List.forall_mem_cons.mpr ⟨by omega, ih⟩

def escapeLetter : ℕ → Option Char
  | 0x08 => some 'b'
  | 0x09 => some 't'
  | 0x0A => some 'n'
  | 0x0C => some 'f'
  | 0x0D => some 'r'
  | 0x22 => some '"'
  | 0x5C => some '\\'
  | _ => none

def hex4 (c : ℕ) : Text :=
  [(c / 4096 % 16).digitChar, (c / 256 % 16).digitChar, (c / 16 % 16).digitChar, (c % 16).digitChar]

def quotePoint (c : ℕ) : Text :=
  match escapeLetter c with
  | some l => ['\\', l]
  | none => if c < 0x20 ∨ 0xD800 ≤ c ∧ c ≤ 0xDFFF then '\\' :: 'u' :: hex4 c else [Char.ofNat c]

def quote (s : JsString) : Text := '"' :: ((codePoints s).flatMap quotePoint ++ ['"'])

lemma escapeLetter_injective {l : Char} (ha : escapeLetter a = some l) (hb : escapeLetter b = some l) : a = b := by
  unfold escapeLetter at ha hb
  split at ha <;> cases ha <;> split at hb <;> simp_all

lemma escapeLetter_ne_u (a : ℕ) : escapeLetter a ≠ some 'u' := by
  unfold escapeLetter
  split <;> simp

lemma digitChar_injective (ha : a < 16) (hb : b < 16) (h : a.digitChar = b.digitChar) : a = b := by
  have hall : ∀ a < 16, ∀ b < 16, a.digitChar = b.digitChar → a = b := by decide
  exact hall a ha b hb h

lemma hex4_injective (ha : a < 65536) (hb : b < 65536) (h : hex4 a = hex4 b) : a = b := by
  simp only [hex4, List.cons.injEq, and_true] at h
  obtain ⟨h₁, h₂, h₃, h₄⟩ := h
  have e₁ := digitChar_injective (by omega) (by omega) h₁
  have e₂ := digitChar_injective (by omega) (by omega) h₂
  have e₃ := digitChar_injective (by omega) (by omega) h₃
  have e₄ := digitChar_injective (by omega) (by omega) h₄
  omega

lemma ofNat_injective (ha : a.isValidChar) (hb : b.isValidChar) (h : Char.ofNat a = Char.ofNat b) : a = b := by
  rw [Char.ofNat, Char.ofNat, dif_pos ha, dif_pos hb] at h
  exact congrArg (fun c => c.val.toNat) h

inductive Form (c : ℕ) : Text → Prop where
  | short (l : Char) (h : escapeLetter c = some l) : Form c ['\\', l]
  | long (h : c < 65536) : Form c ('\\' :: 'u' :: hex4 c)
  | plain (h : c.isValidChar) (hb : c ≠ 0x5C) (hq : c ≠ 0x22) : Form c [Char.ofNat c]

lemma quotePoint_form {c : ℕ} (h : c < 0x110000) : Form c (quotePoint c) := by
  unfold quotePoint
  split
  · exact .short _ (by assumption)
  · rename_i hn
    split
    · exact .long (by omega)
    · refine .plain ?_ ?_ ?_
      · simp only [Nat.isValidChar]
        omega
      · rintro rfl
        simp [escapeLetter] at hn
      · rintro rfl
        simp [escapeLetter] at hn

lemma ofNat_ne {c d : ℕ} (h : c.isValidChar) (hd : d.isValidChar) (hne : c ≠ d) : Char.ofNat c ≠ Char.ofNat d :=
  fun he => hne (ofNat_injective h hd he)

lemma form_unique {y s : Text} (ha : Form a x) (hb : Form b y) (h : x ++ r = y ++ s) : a = b ∧ r = s := by
  have hbs : ∀ {c : ℕ}, c.isValidChar → c ≠ 0x5C → Char.ofNat c ≠ '\\' :=
    fun hv hne => ofNat_ne hv (d := 0x5C) (by decide) hne
  cases ha with
  | short l hl =>
    cases hb with
    | short l' hl' =>
      simp only [cons_append, nil_append, List.cons.injEq, true_and] at h
      exact ⟨escapeLetter_injective hl (h.1 ▸ hl'), h.2⟩
    | long hlt =>
      simp only [cons_append, nil_append, List.cons.injEq, true_and] at h
      exact absurd (h.1 ▸ hl) (escapeLetter_ne_u a)
    | plain hv hne _ =>
      simp only [cons_append, nil_append, List.cons.injEq] at h
      exact absurd h.1.symm (hbs hv hne)
  | long hlt =>
    cases hb with
    | short l' hl' =>
      simp only [cons_append, nil_append, List.cons.injEq, true_and] at h
      exact absurd (h.1 ▸ hl') (escapeLetter_ne_u b)
    | long hlt' =>
      simp only [cons_append, List.cons.injEq, true_and] at h
      obtain ⟨hh, hrs⟩ := append_inj h (by simp [hex4])
      exact ⟨hex4_injective hlt hlt' hh, hrs⟩
    | plain hv hne _ =>
      simp only [cons_append, List.cons.injEq] at h
      exact absurd h.1.symm (hbs hv hne)
  | plain hv hne _ =>
    cases hb with
    | short l' hl' | long hlt' =>
      simp only [cons_append, List.cons.injEq] at h
      exact absurd h.1 (hbs hv hne)
    | plain hv' _ _ =>
      simp only [cons_append, nil_append, List.cons.injEq] at h
      exact ⟨ofNat_injective hv hv' h.1, h.2⟩

lemma form_head {c : ℕ} (h : Form c x) : ∃ e t, x = e :: t ∧ e ≠ '"' := by
  cases h with
  | short l hl | long hlt => exact ⟨_, _, rfl, by decide⟩
  | plain hv _ hq => exact ⟨_, _, rfl, ofNat_ne hv (d := 0x22) (by decide) hq⟩

lemma points_unique {cs ds : List ℕ} (hc : ∀ c ∈ cs, c < 0x110000) (hd : ∀ d ∈ ds, d < 0x110000) {s : Text}
    (h : cs.flatMap quotePoint ++ '"' :: r = ds.flatMap quotePoint ++ '"' :: s) : cs = ds ∧ r = s := by
  induction cs generalizing ds with
  | nil =>
    cases ds with
    | nil => simpa using h
    | cons d ds =>
      obtain ⟨e, t, he, hne⟩ := form_head (quotePoint_form (hd d (by simp)))
      simp [he, hne.symm] at h
  | cons c cs ih =>
    cases ds with
    | nil =>
      obtain ⟨e, t, he, hne⟩ := form_head (quotePoint_form (hc c (by simp)))
      simp [he, hne] at h
    | cons d ds =>
      simp only [flatMap_cons, append_assoc] at h
      obtain ⟨rfl, hh⟩ := form_unique (quotePoint_form (hc c (by simp))) (quotePoint_form (hd d (by simp))) h
      obtain ⟨rfl, hrs⟩ := ih (fun x hx => hc x (by simp [hx])) (fun x hx => hd x (by simp [hx])) hh
      exact ⟨rfl, hrs⟩

theorem quote_unique {t : JsString} {r' : Text} (h : quote s ++ r = quote t ++ r') : s = t ∧ r = r' := by
  simp only [quote, cons_append, append_assoc, nil_append, List.cons.injEq, true_and] at h
  obtain ⟨hp, hr⟩ := points_unique (codePoints_lt s) (codePoints_lt t) h
  exact ⟨by rw [← codePoints_units s, hp, codePoints_units], hr⟩

end Breeze.Lib.Quoted
