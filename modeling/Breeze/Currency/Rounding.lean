import Mathlib.Data.List.TakeWhile
import Breeze.Currency.Amounts

/-! Money rounding against the rational numbers that the texts denote. -/

namespace Breeze.Currency.Rounding

open Breeze.Lib.Decimal Breeze.Lib.Whitespace Amounts

def signed (neg : Bool) : ℚ := if neg then -1 else 1

@[simp] lemma signed_false : signed false = 1 := rfl

@[simp] lemma signed_true : signed true = -1 := rfl

def Groups.value (m : Groups) : ℚ :=
  signed (m.sign = some '-') * Nat.ofDigitChars 10 (m.intPart ++ m.fracPart.getD []) 0 *
    10 ^ ((m.exponent.map exponentValue).getD 0 - (m.fracPart.getD []).length : ℤ)

def decimalValue (t : Text) : Option ℚ :=
  (matchDecimal t).bind fun m => if m.intPart = [] ∧ m.fracPart.getD [] = [] then none else some (Groups.value m)

def Decimal.value (d : Decimal) : ℚ := signed d.neg * d.unscaled / 10 ^ d.scale

def fixedTwo (n : ℤ) : Text :=
  (if n < 0 then ['-'] else []) ++ Nat.toDigits 10 (n.natAbs / 100) ++ '.' :: padded 2 (n.natAbs % 100)

def rounded (exp : ℕ) (x : ℚ) : ℚ := round (x * 10 ^ exp) / 10 ^ exp

def moneyText (exp : ℕ) (x : ℚ) : Text := fixedTwo (round (x * 10 ^ exp) * 10 ^ (2 - exp))

section Reading

lemma ofDigitChars_stripZeros (t : Text) : Nat.ofDigitChars 10 (stripZeros t) 0 = Nat.ofDigitChars 10 t 0 := by
  fun_induction stripZeros t with
  | case1 c rest ih => rw [ih, Nat.ofDigitChars_cons]; rfl
  | case2 t _ => rfl

lemma ofDigitChars_zeros (t : Text) (k : ℕ) :
    Nat.ofDigitChars 10 (t ++ List.replicate k '0') 0 = Nat.ofDigitChars 10 t 0 * 10 ^ k := by
  induction k with
  | zero => simp
  | succ k ih =>
    rw [List.replicate_succ', ← List.append_assoc, Nat.ofDigitChars_append, ih, Nat.ofDigitChars_cons,
      Nat.ofDigitChars_nil, pow_succ]
    change _ + 0 = _
    ring

lemma ten_zpow (z : ℤ) : (10 : ℚ) ^ z = 10 ^ z.toNat / 10 ^ (-z).toNat := by
  have hz : z = (z.toNat : ℤ) - ((-z).toNat : ℤ) := by omega
  conv_lhs => rw [hz]
  rw [zpow_sub₀ (by norm_num), zpow_natCast, zpow_natCast]

variable {m : Groups} {t : Text}

lemma decimalOf_value (h : ¬ (m.intPart = [] ∧ m.fracPart.getD [] = [])) :
    ∃ d, decimalOf m = .ok d ∧ Decimal.value d = Groups.value m := by
  rw [decimalOf, if_neg h]
  refine ⟨_, rfl, ?_⟩
  simp only [Decimal.value, Groups.value]
  rw [ofDigitChars_zeros, ofDigitChars_stripZeros, ← neg_sub, ten_zpow, neg_neg]
  push_cast
  ring

def isDecimalChar (c : Char) : Bool := c.isDigit || ['+', '-', '.', 'e', 'E'].contains c

variable {c : Char}

lemma signOf_chars (h : c ∈ t) : isDecimalChar c = true ∨ c ∈ (signOf t).2 := by
  unfold signOf
  split
  · rcases List.mem_cons.mp h with rfl | h
    · exact Or.inl rfl
    · exact Or.inr h
  · rcases List.mem_cons.mp h with rfl | h
    · exact Or.inl rfl
    · exact Or.inr h
  · exact Or.inr h

lemma digit_isDecimalChar (h : c.isDigit = true) : isDecimalChar c = true := by
  rw [isDecimalChar, h, Bool.true_or]

lemma digits_chars (h : c ∈ t) : isDecimalChar c = true ∨ c ∈ t.dropWhile Char.isDigit := by
  rw [← List.takeWhile_append_dropWhile (p := Char.isDigit) (l := t), List.mem_append] at h
  exact h.imp_left fun hc => digit_isDecimalChar (List.mem_takeWhile_imp hc)

lemma isExponent_chars (h : isExponent t = true) : ∀ c ∈ t, isDecimalChar c = true := by
  intro c hc
  rcases signOf_chars hc with hc | hc
  · exact hc
  · exact digit_isDecimalChar (List.all_eq_true.mp (Bool.and_eq_true_iff.mp h).2 c hc)

lemma fraction_chars (h : c ∈ t) : isDecimalChar c = true ∨ c ∈ (fraction t).2 := by
  unfold fraction
  split
  · rcases List.mem_cons.mp h with rfl | h
    · exact Or.inl rfl
    · exact digits_chars h
  · exact Or.inr h

lemma matchDecimal_chars (h : matchDecimal t = some m) : ∀ c ∈ t, isDecimalChar c = true := by
  intro c hc
  rcases signOf_chars hc with hc | hc
  · exact hc
  rcases digits_chars hc with hc | hc
  · exact hc
  rcases fraction_chars hc with hc | hc
  · exact hc
  simp only [matchDecimal] at h
  split at h
  case _ hrest =>
    rw [hrest] at hc
    exact absurd hc List.not_mem_nil
  case _ e rest hrest =>
    rw [hrest] at hc
    split_ifs at h with hexp
    rcases List.mem_cons.mp hc with rfl | hc
    · rcases hexp.1 with rfl | rfl <;> rfl
    · exact isExponent_chars hexp.2 c hc

lemma isDecimalChar_not_space (h : isDecimalChar c = true) : isEcmaSpace c = false := by
  rcases Bool.or_eq_true_iff.mp h with hdigit | hother
  · obtain ⟨hlow, hhigh⟩ := digit_bounds hdigit
    exact visible_not_space (by omega) (by omega)
  · have hall : ['+', '-', '.', 'e', 'E'].all (fun c => !isEcmaSpace c) = true := by decide
    exact Bool.not_eq_true' _ ▸ List.all_eq_true.mp hall c (List.contains_iff_mem.mp hother)

lemma parseDecimal_eq (numberText : Text → Option Text) {x : ℚ} (h : decimalValue t = some x) :
    ∃ d, parseDecimal numberText t = .ok d ∧ Decimal.value d = x := by
  obtain ⟨m, hm, hx⟩ := Option.bind_eq_some_iff.mp h
  split_ifs at hx with hdigits
  cases hx
  have htrim : trimBy isEcmaSpace t = t :=
    trimBy_eq_self fun c hc => isDecimalChar_not_space (matchDecimal_chars hm c hc)
  have hne : t ≠ [] := by
    rintro rfl
    cases hm
    exact hdigits ⟨rfl, rfl⟩
  simp only [parseDecimal, htrim, if_neg hne, hm]
  exact decimalOf_value hdigits

end Reading

section Rounds

variable {v : ℕ}

lemma natDiv_eq (u : ℕ) (hv : 0 < v) : (u : ℚ) / v = (u / v : ℕ) + (u % v : ℕ) / (v : ℚ) := by
  have hv' : (v : ℚ) ≠ 0 := by positivity
  have hu : (u : ℚ) = v * (u / v : ℕ) + (u % v : ℕ) := by exact_mod_cast (Nat.div_add_mod u v).symm
  rw [div_eq_iff hv', add_mul, div_mul_cancel₀ _ hv']
  linarith

lemma half_le_iff (r : ℕ) (hv : 0 < v) : (1 / 2 : ℚ) ≤ r / v ↔ v ≤ r * 2 := by
  have hv' : (0 : ℚ) < v := by exact_mod_cast hv
  rw [div_le_div_iff₀ (by norm_num) hv', one_mul]
  exact_mod_cast Iff.rfl

lemma half_lt_iff (r : ℕ) (hv : 0 < v) : (1 / 2 : ℚ) < r / v ↔ v < r * 2 := by
  have hv' : (0 : ℚ) < v := by exact_mod_cast hv
  rw [div_lt_div_iff₀ (by norm_num) hv', one_mul]
  exact_mod_cast Iff.rfl

lemma mod_div_lt (u : ℕ) (hv : 0 < v) : ((u % v : ℕ) : ℚ) / v < 1 := by
  rw [div_lt_one (by exact_mod_cast hv)]
  exact_mod_cast Nat.mod_lt u hv

lemma round_natDiv (u : ℕ) (hv : 0 < v) : round ((u : ℚ) / v) = (u / v : ℕ) + if v ≤ u % v * 2 then 1 else 0 := by
  have hlt := mod_div_lt u hv
  have hnn : (0 : ℚ) ≤ (u % v : ℕ) / (v : ℚ) := by positivity
  rw [round_eq, Int.floor_eq_iff, natDiv_eq u hv]
  generalize u / v = q
  split_ifs with h <;> rw [← half_le_iff _ hv] at h <;> push_cast <;> constructor <;> linarith

lemma round_neg_natDiv (u : ℕ) (hv : 0 < v) : round (-((u : ℚ) / v)) = -((u / v : ℕ) + if v < u % v * 2 then 1 else 0) := by
  have hlt := mod_div_lt u hv
  have hnn : (0 : ℚ) ≤ (u % v : ℕ) / (v : ℚ) := by positivity
  rw [round_eq, Int.floor_eq_iff, natDiv_eq u hv]
  generalize u / v = q
  split_ifs with h <;> rw [← half_lt_iff _ hv] at h <;> push_cast <;> constructor <;> linarith

lemma value_mul_pow (d : Decimal) (exp : ℕ) :
    (d.scale ≤ exp → Decimal.value d * 10 ^ exp = signed d.neg * (d.unscaled * 10 ^ (exp - d.scale) : ℕ)) ∧
      (exp < d.scale → Decimal.value d * 10 ^ exp = signed d.neg * (d.unscaled / (10 ^ (d.scale - exp) : ℕ))) := by
  constructor
  · intro hle
    have hpow : (10 : ℚ) ^ exp = 10 ^ d.scale * 10 ^ (exp - d.scale) := by rw [← pow_add, Nat.add_sub_cancel' hle]
    rw [Decimal.value, hpow, ← mul_assoc, div_mul_cancel₀ _ (by positivity)]
    push_cast
    ring
  · intro hgt
    have hpow : (10 : ℚ) ^ d.scale = 10 ^ exp * (10 ^ (d.scale - exp) : ℕ) := by
      push_cast
      rw [← pow_add, Nat.add_sub_cancel' hgt.le]
    have hten : (10 : ℚ) ^ exp ≠ 0 := by positivity
    rw [Decimal.value, hpow]
    field_simp

lemma roundScaled_eq (d : Decimal) (exp : ℕ) : roundScaled d exp = round (Decimal.value d * 10 ^ exp) := by
  obtain ⟨hsmall, hlarge⟩ := value_mul_pow d exp
  rcases le_or_gt d.scale exp with hle | hgt
  · rw [hsmall hle, roundScaled, if_pos hle]
    cases d.neg with
    | false =>
      rw [if_neg Bool.false_ne_true, signed_false, one_mul]
      exact (round_natCast _).symm
    | true =>
      rw [if_pos rfl, signed_true, neg_one_mul, ← Int.cast_natCast, ← Int.cast_neg]
      exact (round_intCast _).symm
  · have hdiv : 0 < 10 ^ (d.scale - exp) := by positivity
    rw [hlarge hgt, roundScaled, if_neg (not_le.mpr hgt)]
    cases d.neg with
    | false =>
      rw [signed_false, one_mul, round_natDiv _ hdiv]
      simp
    | true =>
      rw [signed_true, neg_one_mul, round_neg_natDiv _ hdiv]
      simp

end Rounds

section Format

lemma padStart_two_digits {n : ℕ} (h : n < 100) : padEnd 2 (padStart 2 (Nat.toDigits 10 n)) = padded 2 n := by
  rw [padStart_toDigits (by decide) h, padEnd, padded_length, Nat.sub_self, List.replicate_zero, List.append_nil]

lemma formatMinor_eq (minor : ℤ) {exp : ℕ} (hexp : exp = 0 ∨ exp = 2) :
    formatMinor minor exp = fixedTwo (minor * 10 ^ (2 - exp)) := by
  by_cases hzero : minor = 0
  · rw [formatMinor, if_pos hzero, hzero, zero_mul]
    decide
  · rw [formatMinor, if_neg hzero, fixedTwo]
    rcases hexp with rfl | rfl
    · have hmag : (minor * 10 ^ (2 - 0)).natAbs = minor.natAbs * 100 := by
        rw [Int.natAbs_mul]
        rfl
      have hneg : minor * 10 ^ (2 - 0) < 0 ↔ minor < 0 := by omega
      simp only [hmag, hneg]
      rw [Nat.mul_div_cancel _ (by decide), Nat.mul_mod_left, pow_zero, Nat.div_one, Nat.mod_one]
      rfl
    · simp only [Nat.sub_self, pow_zero, mul_one]
      exact congrArg (_ ++ '.' :: ·) (padStart_two_digits (Nat.mod_lt _ (by decide)))

lemma exponent_cases (currency : Text) : minorUnitExponent currency = 0 ∨ minorUnitExponent currency = 2 := by
  rw [minorUnitExponent]
  split
  · exact Or.inl rfl
  · exact Or.inr rfl

lemma signOf_digit {c : Char} (h : c.isDigit = true) (t : Text) : signOf (c :: t) = (none, c :: t) := by
  unfold signOf
  split
  case _ heq =>
    cases heq
    cases h
  case _ heq =>
    cases heq
    cases h
  case _ => rfl

lemma signOf_fixedTwo (n : ℤ) : signOf (fixedTwo n) =
    (if n < 0 then some '-' else none, Nat.toDigits 10 (n.natAbs / 100) ++ '.' :: padded 2 (n.natAbs % 100)) := by
  rw [fixedTwo]
  split_ifs
  · rfl
  · obtain ⟨c, t, ht⟩ := List.exists_cons_of_ne_nil (Nat.toDigits_ne_nil (n := n.natAbs / 100) (b := 10))
    have hc : c.isDigit = true :=
      Nat.isDigit_of_mem_toDigits (b := 10) (by decide) (by decide) (ht ▸ List.mem_cons_self)
    rw [ht]
    exact signOf_digit hc _

lemma matchDecimal_fixedTwo (n : ℤ) : matchDecimal (fixedTwo n) =
    some ⟨if n < 0 then some '-' else none, Nat.toDigits 10 (n.natAbs / 100), some (padded 2 (n.natAbs % 100)), none⟩ := by
  have hdigits : ∀ c ∈ Nat.toDigits 10 (n.natAbs / 100), c.isDigit = true :=
    fun _ hc => Nat.isDigit_of_mem_toDigits (by decide) (by decide) hc
  have htwo : ∀ c ∈ padded 2 (n.natAbs % 100), c.isDigit = true := fun _ hc => isDigit_of_mem_padded hc
  have hfrac : fraction ('.' :: padded 2 (n.natAbs % 100)) = (some (padded 2 (n.natAbs % 100)), []) := by
    rw [fraction, List.takeWhile_eq_self_iff.mpr htwo, List.dropWhile_eq_nil_iff.mpr htwo]
  simp only [matchDecimal, signOf_fixedTwo]
  rw [List.takeWhile_append_of_pos hdigits, List.dropWhile_append_of_pos hdigits,
    List.takeWhile_cons_of_neg (by decide), List.dropWhile_cons_of_neg (by decide), hfrac, List.append_nil]

lemma ofDigitChars_hundredths (k : ℕ) :
    Nat.ofDigitChars 10 (Nat.toDigits 10 (k / 100) ++ padded 2 (k % 100)) 0 = k := by
  have htwo : padded 2 (k % 100) = [(k % 100 / 10 % 10).digitChar, (k % 100 % 10).digitChar] := rfl
  rw [Nat.ofDigitChars_append, Nat.ofDigitChars_toDigits (by decide) (by decide), htwo,
    Nat.ofDigitChars_cons_digitChar_of_lt_ten (by omega), Nat.ofDigitChars_cons_digitChar_of_lt_ten (by omega),
    Nat.ofDigitChars_nil]
  omega

lemma decimalValue_fixedTwo (n : ℤ) : decimalValue (fixedTwo n) = some ((n : ℚ) / 100) := by
  have hpart : ¬ (Nat.toDigits 10 (n.natAbs / 100) = [] ∧ padded 2 (n.natAbs % 100) = []) :=
    fun h => Nat.toDigits_ne_nil h.1
  have hsigned : signed (decide ((if n < 0 then some '-' else none) = some '-')) * (n.natAbs : ℚ) = n := by
    rcases lt_or_ge n 0 with hneg | hnn
    · have habs : (n.natAbs : ℤ) = -n := by omega
      have hcast : (n.natAbs : ℚ) = -n := by rw [← Int.cast_natCast, habs, Int.cast_neg]
      simp [if_pos hneg, hcast]
    · have habs : (n.natAbs : ℤ) = n := by omega
      have hcast : (n.natAbs : ℚ) = n := by rw [← Int.cast_natCast, habs]
      simp [if_neg (not_lt.mpr hnn), hcast]
  rw [decimalValue, matchDecimal_fixedTwo]
  refine (if_neg hpart).trans (congrArg some ?_)
  simp only [Groups.value, Option.getD_some, Option.map_none, Option.getD_none, padded_length]
  rw [ofDigitChars_hundredths, hsigned]
  norm_num
  ring

end Format

section Money

variable (numberText : Text → Option Text) {a b : Text} {x y : ℚ}

lemma product_value (x y : Decimal) :
    Decimal.value ⟨x.neg != y.neg, x.unscaled * y.unscaled, x.scale + y.scale⟩ = Decimal.value x * Decimal.value y := by
  have hsign : signed (x.neg != y.neg) = signed x.neg * signed y.neg := by
    cases x.neg <;> cases y.neg <;> norm_num [signed]
  simp only [Decimal.value]
  rw [hsign, pow_add, div_mul_div_comm]
  push_cast
  ring

lemma multiplyToCurrency_eq (ha : decimalValue a = some x) (hb : decimalValue b = some y) (currency : Text) :
    multiplyToCurrency numberText a b currency = .ok (moneyText (minorUnitExponent currency) (x * y)) := by
  obtain ⟨d, hd, hx⟩ := parseDecimal_eq numberText ha
  obtain ⟨e, he, hy⟩ := parseDecimal_eq numberText hb
  rw [multiplyToCurrency, hd, he, moneyText, ← formatMinor_eq _ (exponent_cases currency), ← hx, ← hy, ← product_value,
    ← roundScaled_eq]
  rfl

lemma decimalValue_moneyText (x : ℚ) {exp : ℕ} (hexp : exp = 0 ∨ exp = 2) :
    decimalValue (moneyText exp x) = some (rounded exp x) := by
  rw [moneyText, decimalValue_fixedTwo, rounded]
  rcases hexp with rfl | rfl
  · push_cast
    norm_num
  · push_cast
    norm_num

lemma rounded_mono (exp : ℕ) (h : x ≤ y) : rounded exp x ≤ rounded exp y := by
  have hround : round (x * 10 ^ exp) ≤ round (y * 10 ^ exp) := by
    rw [round_eq, round_eq]
    apply Int.floor_le_floor
    gcongr
  rw [rounded, rounded]
  gcongr

end Money

end Breeze.Currency.Rounding
