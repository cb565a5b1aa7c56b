import Breeze.Lib.Decimal

/-! Finite numbers and the text that JavaScript writes for them. A number other than zero is given by
the digits and the exponent of its shortest decimal form. -/

namespace Breeze.Lib.NumberText

open Decimal

structure Shortest where
  neg : Bool
  s : ℕ
  n : ℤ
  last : s % 10 ≠ 0

inductive JsNumber where
  | zero
  | finite (x : Shortest)

def exponentText : Option ℤ → Text
  | none => []
  | some e => 'e' :: (if e < 0 then '-' else '+') :: Nat.toDigits 10 e.natAbs

def layout (whole frac : Text) (e : Option ℤ) : Text :=
  whole ++ (if frac = [] then [] else '.' :: frac) ++ exponentText e

def magnitudeText (s : ℕ) (n : ℤ) : Text :=
  let digits := Nat.toDigits 10 s
  if digits.length ≤ n ∧ n ≤ 21 then
    layout (digits ++ List.replicate (n - digits.length).toNat '0') [] none
  else if 0 < n ∧ n ≤ 21 then layout (digits.take n.toNat) (digits.drop n.toNat) none
  else if -6 < n ∧ n ≤ 0 then layout ['0'] (List.replicate (-n).toNat '0' ++ digits) none
  else layout (digits.take 1) (digits.drop 1) (some (n - 1))

def toText : JsNumber → Text
  | .zero => ['0']
  | .finite x => (if x.neg then ['-'] else []) ++ magnitudeText x.s x.n

def readExponent : Text → ℤ
  | 'e' :: '-' :: ds => -(Nat.ofDigitChars 10 ds 0 : ℤ)
  | 'e' :: '+' :: ds => Nat.ofDigitChars 10 ds 0
  | _ => 0

def read (t : Text) : ℚ :=
  let mantissa := t.takeWhile (· ≠ 'e')
  let whole := mantissa.takeWhile (· ≠ '.')
  let frac := (mantissa.dropWhile (· ≠ '.')).drop 1
  Nat.ofDigitChars 10 (whole ++ frac) 0 * (10 : ℚ) ^ (readExponent (t.dropWhile (· ≠ 'e')) - frac.length)

def Digits (t : Text) : Prop := ∀ c ∈ t, c.isDigit = true

lemma toDigits_digits (s : ℕ) : Digits (Nat.toDigits 10 s) :=
  fun _ hc => Nat.isDigit_of_mem_toDigits (by decide) (by decide) hc

lemma Digits.append {t u : Text} (ht : Digits t) (hu : Digits u) : Digits (t ++ u) :=
  fun c hc => (List.mem_append.mp hc).elim (ht c) (hu c)

lemma replicate_digits (m : ℕ) : Digits (List.replicate m '0') := by
  intro c hc
  rw [List.eq_of_mem_replicate hc]
  rfl

lemma Digits.ne {t : Text} (ht : Digits t) {d : Char} (hd : d.isDigit = false) :
    ∀ c ∈ t, decide (c ≠ d) = true := by
  intro c hc
  refine decide_eq_true ?_
  rintro rfl
  simp [ht c hc] at hd

lemma readExponent_text (e : Option ℤ) : readExponent (exponentText e) = e.getD 0 := by
  cases e with
  | none => rfl
  | some e =>
    by_cases he : e < 0
    · simp [exponentText, he, readExponent, Nat.ofDigitChars_ten_toDigits, abs_of_neg he]
    · simp [exponentText, he, readExponent, Nat.ofDigitChars_ten_toDigits]
      omega

lemma takeWhile_exponent (e : Option ℤ) : (exponentText e).takeWhile (· ≠ 'e') = [] := by
  cases e <;> simp [exponentText]

lemma dropWhile_exponent (e : Option ℤ) : (exponentText e).dropWhile (· ≠ 'e') = exponentText e := by
  cases e <;> simp [exponentText]

lemma read_layout {whole frac : Text} (hw : Digits whole) (hf : Digits frac) (e : Option ℤ) :
    read (layout whole frac e) =
      Nat.ofDigitChars 10 (whole ++ frac) 0 * (10 : ℚ) ^ (e.getD 0 - frac.length) := by
  have hm : ∀ c ∈ whole ++ (if frac = [] then [] else '.' :: frac), decide (c ≠ 'e') = true := by
    intro c hc
    rcases List.mem_append.mp hc with hc | hc
    · exact hw.ne rfl c hc
    · split at hc
      · simp at hc
      · rcases List.mem_cons.mp hc with rfl | hc
        · rfl
        · exact hf.ne rfl c hc
  have hw' := hw.ne (d := '.') rfl
  rw [read, layout, List.takeWhile_append_of_pos hm, List.dropWhile_append_of_pos hm, takeWhile_exponent,
    dropWhile_exponent, readExponent_text, List.append_nil, List.takeWhile_append_of_pos hw',
    List.dropWhile_append_of_pos hw']
  split
  · rename_i hn
    simp [hn]
  · simp

lemma Digits.take {t : Text} (h : Digits t) (m : ℕ) : Digits (t.take m) := fun c hc => h c (List.mem_of_mem_take hc)

lemma Digits.drop {t : Text} (h : Digits t) (m : ℕ) : Digits (t.drop m) := fun c hc => h c (List.mem_of_mem_drop hc)

lemma read_magnitude (s : ℕ) (n : ℤ) :
    read (magnitudeText s n) = s * (10 : ℚ) ^ (n - (Nat.toDigits 10 s).length) := by
  have hd := toDigits_digits s
  have hv : Nat.ofDigitChars 10 (Nat.toDigits 10 s) 0 = s := Nat.ofDigitChars_ten_toDigits
  rw [magnitudeText]
  split_ifs with h₁ h₂ h₃
  · rw [read_layout (hd.append (replicate_digits _)) (by simp [Digits]), List.append_nil, Nat.ofDigitChars_append, hv,
      Nat.ofDigitChars_replicate_zero]
    have hn : n - (Nat.toDigits 10 s).length = ((n - (Nat.toDigits 10 s).length).toNat : ℤ) := by omega
    rw [hn, zpow_natCast]
    push_cast
    simp
    ring
  · rw [read_layout (hd.take _) (hd.drop _), List.take_append_drop, hv, List.length_drop]
    congr 2
    simp only [Option.getD_none]
    omega
  · rw [read_layout (by simp [Digits]) ((replicate_digits _).append hd), List.singleton_append,
      Nat.ofDigitChars_cons, Nat.ofDigitChars_append, Nat.ofDigitChars_replicate_zero, List.length_append,
      List.length_replicate]
    simp only [Option.getD_none, Char.reduceToNat, Nat.mul_zero, Nat.sub_self, Nat.add_zero, hv]
    congr 2
    omega
  · have hpos := Nat.length_toDigits_pos (b := 10) (n := s)
    rw [read_layout (hd.take _) (hd.drop _), List.take_append_drop, hv, List.length_drop]
    congr 2
    simp only [Option.getD_some]
    omega

lemma shortest_unique {s s' : ℕ} {e e' : ℤ} (hs : s % 10 ≠ 0) (hs' : s' % 10 ≠ 0)
    (h : (s : ℚ) * 10 ^ e = s' * 10 ^ e') : s = s' ∧ e = e' := by
  wlog hle : e ≤ e' generalizing s s' e e'
  · obtain ⟨h₁, h₂⟩ := this hs' hs h.symm (by omega)
    exact ⟨h₁.symm, h₂.symm⟩
  obtain ⟨m, rfl⟩ := Int.le.dest hle
  have hten : (10 : ℚ) ≠ 0 := by norm_num
  rw [zpow_add₀ hten, zpow_natCast, mul_comm ((10 : ℚ) ^ e), ← mul_assoc] at h
  have hq : (s : ℚ) = s' * 10 ^ m := mul_right_cancel₀ (zpow_ne_zero e hten) h
  have hn : s = s' * 10 ^ m := by exact_mod_cast hq
  cases m with
  | zero => simpa using hn
  | succ m =>
    rw [pow_succ, ← Nat.mul_assoc] at hn
    omega

lemma magnitude_head (s : ℕ) (n : ℤ) : ∃ c t, magnitudeText s n = c :: t ∧ c.isDigit = true := by
  have hne : Nat.toDigits 10 s ≠ [] := Nat.toDigits_ne_nil
  have hd := toDigits_digits s
  obtain ⟨c, t, hc⟩ := List.exists_cons_of_ne_nil hne
  have hcd : c.isDigit = true := hd c (by simp [hc])
  rw [magnitudeText]
  split_ifs with h₁ h₂ h₃
  · exact ⟨c, _, by rw [hc]; rfl, hcd⟩
  · obtain ⟨m, hm⟩ : ∃ m, n.toNat = m + 1 := ⟨n.toNat - 1, by omega⟩
    exact ⟨c, _, by rw [hc, hm]; rfl, hcd⟩
  · exact ⟨'0', _, rfl, rfl⟩
  · exact ⟨c, _, by rw [hc]; rfl, hcd⟩

lemma magnitude_injective {x y : Shortest} (h : magnitudeText x.s x.n = magnitudeText y.s y.n) :
    x.s = y.s ∧ x.n = y.n := by
  have hr := congrArg read h
  rw [read_magnitude, read_magnitude] at hr
  obtain ⟨hs, he⟩ := shortest_unique x.last y.last hr
  rw [hs] at he
  exact ⟨hs, by omega⟩

lemma magnitude_ne_zero (x : Shortest) : magnitudeText x.s x.n ≠ ['0'] := by
  intro h
  have hr := congrArg read h
  rw [read_magnitude] at hr
  have hz : read ['0'] = 0 := by simp [read, readExponent, Nat.ofDigitChars]
  have hs : (x.s : ℚ) ≠ 0 := by
    have := x.last
    exact_mod_cast fun hc => this (by rw [hc])
  rw [hz] at hr
  exact mul_ne_zero hs (zpow_ne_zero _ (by norm_num)) hr

theorem toText_injective {a b : JsNumber} (h : toText a = toText b) : a = b := by
  have hneg : ∀ x : Shortest, ∀ t, magnitudeText x.s x.n ≠ '-' :: t := by
    intro x t hx
    obtain ⟨c, u, hc, hd⟩ := magnitude_head x.s x.n
    rw [hc, List.cons.injEq] at hx
    rw [hx.1] at hd
    exact absurd hd (by decide)
  cases a with
  | zero =>
    cases b with
    | zero => rfl
    | finite y =>
      cases hn : y.neg with
      | true => simp [toText, hn] at h
      | false => exact absurd (by simpa [toText, hn] using h.symm) (magnitude_ne_zero y)
  | finite x =>
    cases b with
    | zero =>
      cases hn : x.neg with
      | true => simp [toText, hn] at h
      | false => exact absurd (by simpa [toText, hn] using h) (magnitude_ne_zero x)
    | finite y =>
      obtain ⟨xn, xs, xe, hx⟩ := x
      obtain ⟨yn, ys, ye, hy⟩ := y
      cases xn <;> cases yn
      · obtain ⟨rfl, rfl⟩ := magnitude_injective (x := ⟨false, xs, xe, hx⟩) (y := ⟨false, ys, ye, hy⟩)
          (by simpa [toText] using h)
        rfl
      · exact absurd (by simpa [toText] using h) (hneg ⟨false, xs, xe, hx⟩ _)
      · exact absurd (by simpa [toText] using h.symm) (hneg ⟨false, ys, ye, hy⟩ _)
      · obtain ⟨rfl, rfl⟩ := magnitude_injective (x := ⟨true, xs, xe, hx⟩) (y := ⟨true, ys, ye, hy⟩)
          (by simpa [toText] using h)
        rfl

def isNumberChar (c : Char) : Bool := c.isDigit || c == '.' || c == 'e' || c == '+' || c == '-'

lemma Digits.number {t : Text} (h : Digits t) : ∀ c ∈ t, isNumberChar c = true := by
  intro c hc
  simp [isNumberChar, h c hc]

lemma layout_chars {whole frac : Text} (hw : Digits whole) (hf : Digits frac) (e : Option ℤ) :
    ∀ c ∈ layout whole frac e, isNumberChar c = true := by
  intro c hc
  rcases List.mem_append.mp hc with hc | hc
  · rcases List.mem_append.mp hc with hc | hc
    · exact hw.number c hc
    · split at hc
      · simp at hc
      · rcases List.mem_cons.mp hc with rfl | hc
        · rfl
        · exact hf.number c hc
  · cases e with
    | none => simp [exponentText] at hc
    | some e =>
      simp only [exponentText, List.mem_cons] at hc
      rcases hc with rfl | hc | hc
      · rfl
      · rw [hc]
        split <;> rfl
      · exact (toDigits_digits _).number c hc

theorem toText_chars (a : JsNumber) : ∀ c ∈ toText a, isNumberChar c = true := by
  cases a with
  | zero => simp [toText, isNumberChar]
  | finite x =>
    have hd := toDigits_digits x.s
    have hm : ∀ c ∈ magnitudeText x.s x.n, isNumberChar c = true := by
      rw [magnitudeText]
      split_ifs
      · exact layout_chars (hd.append (replicate_digits _)) (by simp [Digits]) none
      · exact layout_chars (hd.take _) (hd.drop _) none
      · exact layout_chars (by simp [Digits]) ((replicate_digits _).append hd) none
      · exact layout_chars (hd.take _) (hd.drop _) _
    intro c hc
    rcases List.mem_append.mp hc with hc | hc
    · split at hc
      · rw [List.mem_singleton.mp hc]
        rfl
      · simp at hc
    · exact hm c hc

theorem toText_ne_nil (a : JsNumber) : toText a ≠ [] := by
  cases a with
  | zero => simp [toText]
  | finite x =>
    obtain ⟨c, t, hc, _⟩ := magnitude_head x.s x.n
    simp [toText, hc]

end Breeze.Lib.NumberText
