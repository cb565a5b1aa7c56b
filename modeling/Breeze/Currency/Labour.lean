import Breeze.Lib.KeyedFold
import Breeze.Currency.Rounding

/-! Labour money in the timesheet and in the billing summary of a ticket. Numbers of the runtime are taken
as exact; `toFixed(2)` picks the nearest text with two decimals. -/

namespace Breeze.Currency.Labour

open Breeze.Lib.Decimal Breeze.Lib.KeyedFold Amounts Rounding List

def currencyCodes : List Text :=
  ["AED", "ARS", "AUD", "BRL", "CAD", "CHF", "CLP", "COP", "CZK", "DKK", "EUR", "GBP", "HKD", "HUF", "IDR", "ILS",
    "INR", "JPY", "KES", "MXN", "MYR", "NGN", "NOK", "NZD", "PHP", "PLN", "RON", "SAR", "SEK", "SGD", "THB", "TRY",
    "USD", "ZAR"].map String.toList

structure TimeEntry where
  isBillable : Bool
  durationMinutes : Option ℕ
  billableMinutes : Option ℕ
  hourlyRate : Option ℕ
  currencyCode : Option Text

def toFixed2 (x : ℚ) : Text := (if x < 0 then ['-'] else []) ++ fixedTwo (round (|x| * 100))

def toMinorUnits (amountMajor currency : Text) : Except String ℤ :=
  match decimalValue amountMajor with
  | none => .error nonFinite
  | some n => .ok (if isZeroDecimal currency then round n else round (n * 100))

def fromMinorUnits (minor : ℤ) (currency : Text) : Text :=
  if isZeroDecimal currency then toFixed2 minor else toFixed2 (minor / 100)

section Timesheet

variable (numberText : Text → Option Text)

def timesheetRow (entry : TimeEntry) : Except String (Option (Text × ℤ)) :=
  match entry.isBillable, entry.hourlyRate, entry.currencyCode with
  | true, some hourlyRate, some currencyCode => do
    let minutes := (entry.billableMinutes.or entry.durationMinutes).getD 0
    let hours := toFixed2 (minutes / 60)
    let amount ← multiplyToCurrency numberText hours (fixedTwo hourlyRate) currencyCode
    let minor ← toMinorUnits amount currencyCode
    return some (currencyCode, minor)
  | _, _, _ => return none

def billableAmounts (entries : List TimeEntry) : Except String (List (Text × Text)) := do
  let rows ← entries.mapM (timesheetRow numberText)
  let money := touchAll (fun _ => (0 : ℤ)) (rows.reduceOption.map fun row => (row.1, (· + row.2)))
  return money.map fun entry => (entry.1, fromMinorUnits entry.2 entry.1)

end Timesheet

def sqlRound (scale : ℕ) (q : ℚ) : ℚ := if q < 0 then -rounded scale (-q) else rounded scale q

def zeroDecimalCodes : List Text := currencyCodes.filter isZeroDecimal

def minorUnitScaleSql (currencyCode : Text) : ℕ := if zeroDecimalCodes.contains currencyCode then 0 else 2

section Summary

variable (divScale : ℕ → ℕ)

/-- `minutes::numeric / 60`: a division of numerics is rounded to a scale that the database picks. -/
def sqlHours (minutes : ℕ) : ℚ := sqlRound 2 (sqlRound (divScale minutes) (minutes / 60))

def sqlRow (entry : TimeEntry) : Option (Text × ℚ) :=
  match entry.isBillable, entry.hourlyRate, entry.currencyCode with
  | true, some hourlyRate, some currencyCode =>
    let amount := (entry.billableMinutes.or entry.durationMinutes).map fun minutes =>
      sqlRound (minorUnitScaleSql currencyCode) (sqlHours divScale minutes * (hourlyRate / 100))
    some (currencyCode, amount.getD 0)
  | _, _, _ => none

def sqlAmount (entries : List TimeEntry) (currencyCode : Text) : Option ℚ :=
  let rows := (entries.filterMap (sqlRow divScale)).filter (·.1 == currencyCode)
  if rows = [] then none else some (rows.map (·.2)).sum

end Summary

section Hours

lemma round_eq_of_near {x : ℚ} {n : ℤ} (h : |x - n| < 1 / 2) : round x = n := by
  obtain ⟨hlow, hhigh⟩ := abs_lt.mp h
  rw [round_eq, Int.floor_eq_iff]
  constructor <;> linarith

lemma sqlRound_of_nonneg (scale : ℕ) {q : ℚ} (h : 0 ≤ q) : sqlRound scale q = rounded scale q :=
  if_neg (not_lt.mpr h)

lemma rounded_nonneg (scale : ℕ) {q : ℚ} (h : 0 ≤ q) : 0 ≤ rounded scale q := by
  have hzero : rounded scale 0 = 0 := by simp [rounded]
  rw [← hzero]
  exact rounded_mono scale h

lemma abs_rounded_sub (scale : ℕ) (q : ℚ) : |rounded scale q - q| ≤ 1 / 2 / 10 ^ scale := by
  have hten : (0 : ℚ) < 10 ^ scale := by positivity
  have hdiff : rounded scale q - q = (round (q * 10 ^ scale) - q * 10 ^ scale) / 10 ^ scale := by
    rw [rounded, sub_div, mul_div_cancel_right₀ _ hten.ne']
  rw [hdiff, abs_div, abs_of_pos hten, abs_sub_comm]
  gcongr
  exact abs_sub_round _

lemma abs_hundredths_sub (minutes : ℕ) : |(minutes / 60 * 100 : ℚ) - round (minutes / 60 * 100 : ℚ)| ≤ 1 / 3 := by
  have hhalf := abs_sub_round (minutes / 60 * 100 : ℚ)
  generalize round (minutes / 60 * 100 : ℚ) = n at hhalf ⊢
  have hthirds : (minutes / 60 * 100 : ℚ) - n = (5 * minutes - 3 * n : ℤ) / 3 := by
    push_cast
    ring
  rw [hthirds, abs_le] at hhalf ⊢
  have hlow : (-2 : ℚ) < (5 * minutes - 3 * n : ℤ) := by linarith [hhalf.1]
  have hhigh : ((5 * minutes - 3 * n : ℤ) : ℚ) < 2 := by linarith [hhalf.2]
  have hlow' : (-1 : ℤ) ≤ 5 * minutes - 3 * n := by
    have : (-2 : ℤ) < 5 * minutes - 3 * n := by exact_mod_cast hlow
    omega
  have hhigh' : (5 * minutes - 3 * n : ℤ) ≤ 1 := by
    have : (5 * minutes - 3 * n : ℤ) < 2 := by exact_mod_cast hhigh
    omega
  have hlow'' : (-1 : ℚ) ≤ (5 * minutes - 3 * n : ℤ) := by exact_mod_cast hlow'
  have hhigh'' : ((5 * minutes - 3 * n : ℤ) : ℚ) ≤ 1 := by exact_mod_cast hhigh'
  constructor <;> linarith

lemma sqlHours_eq {divScale : ℕ → ℕ} (hscale : ∀ m, 3 ≤ divScale m) (minutes : ℕ) :
    sqlHours divScale minutes = round (minutes / 60 * 100 : ℚ) / 100 := by
  have hnn : (0 : ℚ) ≤ minutes / 60 := by positivity
  have hpow : (1000 : ℚ) ≤ 10 ^ divScale minutes := by
    have := pow_le_pow_right₀ (by norm_num : (1 : ℚ) ≤ 10) (hscale minutes)
    linarith
  have herr := abs_rounded_sub (divScale minutes) (minutes / 60)
  have hsmall : (1 / 2 : ℚ) / 10 ^ divScale minutes ≤ 1 / 2000 := by
    rw [div_div]
    apply one_div_le_one_div_of_le <;> linarith
  have hties := abs_hundredths_sub minutes
  rw [sqlHours, sqlRound_of_nonneg _ hnn, sqlRound_of_nonneg _ (rounded_nonneg _ hnn), rounded]
  have hround : round (rounded (divScale minutes) (minutes / 60) * 10 ^ 2) = round (minutes / 60 * 100 : ℚ) := by
    apply round_eq_of_near
    rw [abs_le] at herr hties
    rw [abs_lt]
    constructor <;> linarith [herr.1, herr.2, hties.1, hties.2]
  rw [hround]
  norm_num

end Hours

section Rows

variable (numberText : Text → Option Text) {divScale : ℕ → ℕ}

variable {x : ℚ} {entries : List TimeEntry}

lemma toFixed2_of_nonneg (h : 0 ≤ x) : toFixed2 x = fixedTwo (round (x * 100)) := by
  rw [toFixed2, if_neg (not_lt.mpr h), abs_of_nonneg h, nil_append]

lemma round_nonneg (h : 0 ≤ x) : 0 ≤ round x := by
  rw [round_eq]
  positivity

lemma toMinorUnits_eq (x : ℚ) (currency : Text) :
    toMinorUnits (moneyText (minorUnitExponent currency) x) currency = .ok (round (x * 10 ^ minorUnitExponent currency)) := by
  rw [toMinorUnits, decimalValue_moneyText x (exponent_cases currency)]
  simp only [minorUnitExponent, rounded]
  split_ifs with hzero
  · simp
  · norm_num

lemma scale_eq {code : Text} (h : code ∈ currencyCodes) : minorUnitScaleSql code = minorUnitExponent code := by
  have hmem : zeroDecimalCodes.contains code = isZeroDecimal code := by
    rw [Bool.eq_iff_iff, contains_iff_mem, zeroDecimalCodes, mem_filter, and_iff_right h]
  rw [minorUnitScaleSql, minorUnitExponent, hmem]

def labourMinor (minutes rate : ℕ) (currency : Text) : ℤ :=
  round ((round (minutes / 60 * 100 : ℚ) / 100 : ℚ) * (rate / 100) * 10 ^ minorUnitExponent currency)

lemma labourMinor_nonneg (minutes rate : ℕ) (currency : Text) : 0 ≤ labourMinor minutes rate currency := by
  have hhours : (0 : ℚ) ≤ round (minutes / 60 * 100 : ℚ) := by
    exact_mod_cast round_nonneg (x := (minutes / 60 * 100 : ℚ)) (by positivity)
  exact round_nonneg (by positivity)

lemma labourMinor_zero (rate : ℕ) (currency : Text) : labourMinor 0 rate currency = 0 := by
  simp [labourMinor]

lemma timesheetRow_counted (durationMinutes billableMinutes : Option ℕ) (rate : ℕ) (code : Text) :
    timesheetRow numberText ⟨true, durationMinutes, billableMinutes, some rate, some code⟩ =
      .ok (some (code, labourMinor ((billableMinutes.or durationMinutes).getD 0) rate code)) := by
  generalize hminutes : (billableMinutes.or durationMinutes).getD 0 = minutes
  have hnn : (0 : ℚ) ≤ minutes / 60 := by positivity
  have hhours : decimalValue (toFixed2 (minutes / 60)) = some (round (minutes / 60 * 100 : ℚ) / 100 : ℚ) := by
    rw [toFixed2_of_nonneg hnn, decimalValue_fixedTwo]
  have hrate : decimalValue (fixedTwo rate) = some (rate / 100 : ℚ) := by
    rw [decimalValue_fixedTwo]
    rfl
  simp only [timesheetRow, hminutes]
  rw [multiplyToCurrency_eq numberText hhours hrate]
  change (toMinorUnits _ _ >>= _) = _
  rw [toMinorUnits_eq]
  rfl

section

variable (hscale : ∀ m, 3 ≤ divScale m)

include hscale

lemma sqlRow_counted (durationMinutes billableMinutes : Option ℕ) (rate : ℕ) {code : Text}
    (hcode : code ∈ currencyCodes) :
    sqlRow divScale ⟨true, durationMinutes, billableMinutes, some rate, some code⟩ =
      some (code, (labourMinor ((billableMinutes.or durationMinutes).getD 0) rate code : ℚ) / 10 ^ minorUnitExponent code) := by
  simp only [sqlRow, Option.some.injEq, Prod.mk.injEq, true_and]
  cases billableMinutes.or durationMinutes with
  | none => rw [Option.map_none, Option.getD_none, Option.getD_none, labourMinor_zero, Int.cast_zero, zero_div]
  | some minutes =>
    have hhours : (0 : ℚ) ≤ round (minutes / 60 * 100 : ℚ) := by
      exact_mod_cast round_nonneg (x := (minutes / 60 * 100 : ℚ)) (by positivity)
    rw [Option.map_some, Option.getD_some, Option.getD_some, sqlHours_eq hscale, scale_eq hcode,
      sqlRound_of_nonneg _ (by positivity)]
    rfl

lemma row_agrees {entry : TimeEntry} (hcode : ∀ code ∈ entry.currencyCode, code ∈ currencyCodes) :
    ∃ row, timesheetRow numberText entry = .ok row ∧ (∀ r ∈ row, 0 ≤ r.2) ∧
      sqlRow divScale entry = row.map fun r => (r.1, (r.2 : ℚ) / 10 ^ minorUnitExponent r.1) := by
  obtain ⟨isBillable, durationMinutes, billableMinutes, hourlyRate, currencyCode⟩ := entry
  cases isBillable with
  | false => exact ⟨none, rfl, by simp, rfl⟩
  | true =>
    cases hourlyRate with
    | none => exact ⟨none, rfl, by simp, rfl⟩
    | some rate =>
      cases currencyCode with
      | none => exact ⟨none, rfl, by simp, rfl⟩
      | some code =>
        refine ⟨_, timesheetRow_counted numberText durationMinutes billableMinutes rate code, ?_,
          sqlRow_counted hscale durationMinutes billableMinutes rate (hcode code rfl)⟩
        rintro r ⟨⟩
        exact labourMinor_nonneg _ _ _

lemma rows_agree
    (hcodes : ∀ entry ∈ entries, ∀ code ∈ entry.currencyCode, code ∈ currencyCodes) :
    ∃ rows, entries.mapM (timesheetRow numberText) = .ok rows ∧ (∀ r ∈ rows.reduceOption, 0 ≤ r.2) ∧
      entries.filterMap (sqlRow divScale) = rows.reduceOption.map fun r => (r.1, (r.2 : ℚ) / 10 ^ minorUnitExponent r.1) := by
  induction entries with
  | nil => exact ⟨[], rfl, fun r hr => absurd hr not_mem_nil, rfl⟩
  | cons entry entries ih =>
    obtain ⟨row, hrow, hnn, hsql⟩ := row_agrees numberText hscale (hcodes entry mem_cons_self)
    obtain ⟨rows, hrows, hnns, hsqls⟩ := ih fun e he => hcodes e (mem_cons_of_mem _ he)
    refine ⟨row :: rows, ?_, ?_, ?_⟩
    · rw [mapM_cons, hrow, hrows]
      rfl
    · cases row with
      | none => exact hnns
      | some r =>
        intro r' hr'
        rcases List.mem_cons.mp hr' with rfl | hr'
        · exact hnn _ rfl
        · exact hnns r' hr'
    · rw [filterMap_cons, hsql, hsqls]
      cases row with
      | none | some r => rfl

end

lemma steps_at (rows : List (Text × ℤ)) (code : Text) :
    stepsAt (rows.map fun row => (row.1, (· + row.2))) code = (rows.filter (·.1 == code)).map fun row => (· + row.2) := by
  induction rows with
  | nil => rfl
  | cons row rows ih =>
    rw [map_cons, stepsAt_cons, ih]
    by_cases h : row.1 = code
    · simp [h]
    · simp [h]

lemma foldl_minor (rows : List (Text × ℤ)) (total : ℤ) :
    (rows.map fun row => (· + row.2)).foldl (fun a f => f a) total = total + (rows.map (·.2)).sum := by
  induction rows generalizing total with
  | nil => simp
  | cons row rows ih =>
    rw [map_cons, foldl_cons, ih, map_cons, sum_cons, add_assoc]

lemma fromMinorUnits_eq (minor : ℤ) (currency : Text) :
    fromMinorUnits minor currency = toFixed2 (minor / 10 ^ minorUnitExponent currency) := by
  simp only [fromMinorUnits, minorUnitExponent]
  split_ifs
  · simp
  · norm_num

lemma decimalValue_toFixed2 {minor : ℤ} (hnn : 0 ≤ minor) (currency : Text) :
    decimalValue (toFixed2 (minor / 10 ^ minorUnitExponent currency)) =
      some ((minor : ℚ) / 10 ^ minorUnitExponent currency) := by
  have hnn' : (0 : ℚ) ≤ minor := by exact_mod_cast hnn
  rw [toFixed2_of_nonneg (by positivity), decimalValue_fixedTwo]
  rcases exponent_cases currency with h | h
  · rw [h, pow_zero, div_one]
    have hround : round ((minor * 100 : ℤ) : ℚ) = minor * 100 := round_intCast _
    rw [Int.cast_mul, Int.cast_ofNat] at hround
    rw [hround]
    push_cast
    norm_num
  · rw [h]
    have hround : round ((minor : ℚ) / 10 ^ 2 * 100) = minor := by
      norm_num
    rw [hround]
    norm_num

lemma sqlAmount_eq {rows : List (Text × ℤ)}
    (h : entries.filterMap (sqlRow divScale) = rows.map fun r => (r.1, (r.2 : ℚ) / 10 ^ minorUnitExponent r.1)) (code : Text) :
    sqlAmount divScale entries code = if rows.filter (·.1 == code) = [] then none
      else some (((((rows.filter (·.1 == code)).map (·.2)).sum : ℤ) : ℚ) / 10 ^ minorUnitExponent code) := by
  have hrows : (entries.filterMap (sqlRow divScale)).filter (·.1 == code) =
      (rows.filter (·.1 == code)).map fun r => (r.1, (r.2 : ℚ) / 10 ^ minorUnitExponent r.1) := by
    rw [h, filter_map]
    rfl
  have hsum : ∀ l : List (Text × ℤ), (∀ r ∈ l, r.1 = code) →
      (l.map fun r => (r.2 : ℚ) / 10 ^ minorUnitExponent r.1).sum = ((l.map (·.2)).sum : ℤ) / 10 ^ minorUnitExponent code := by
    intro l
    induction l with
    | nil => simp
    | cons r l ih =>
      intro hl
      rw [map_cons, sum_cons, ih fun r' hr' => hl r' (mem_cons_of_mem _ hr'), hl r mem_cons_self,
        map_cons, sum_cons, Int.cast_add, add_div]
  have hcode : ∀ r ∈ rows.filter (·.1 == code), r.1 = code := fun r hr => by simpa using (List.mem_filter.mp hr).2
  simp only [sqlAmount, hrows, map_eq_nil_iff, map_map]
  rw [← hsum _ hcode]
  rfl

end Rows

theorem labour_money (numberText : Text → Option Text) {divScale : ℕ → ℕ} (hscale : ∀ m, 3 ≤ divScale m)
    (entries : List TimeEntry) (hcodes : ∀ entry ∈ entries, ∀ code ∈ entry.currencyCode, code ∈ currencyCodes) :
    ∃ amounts, billableAmounts numberText entries = .ok amounts ∧
      ∀ code amount, (code, amount) ∈ amounts ↔
        ∃ figure, sqlAmount divScale entries code = some figure ∧ amount = toFixed2 figure ∧
          decimalValue amount = some figure := by
  obtain ⟨rows, hrows, hnn, hsql⟩ := rows_agree numberText hscale hcodes
  rw [billableAmounts, hrows]
  refine ⟨_, rfl, fun code amount => ?_⟩
  rw [sqlAmount_eq hsql, mem_map]
  generalize rows.reduceOption = counted at hnn
  have htotal : 0 ≤ ((counted.filter (·.1 == code)).map (·.2)).sum := by
    apply sum_nonneg
    intro x hx
    obtain ⟨r, hr, rfl⟩ := List.mem_map.mp hx
    exact hnn r (mem_of_mem_filter hr)
  have hentry : ∀ minor, (code, minor) ∈ touchAll (fun _ => (0 : ℤ)) (counted.map fun row => (row.1, (· + row.2))) ↔
      counted.filter (·.1 == code) ≠ [] ∧ minor = ((counted.filter (·.1 == code)).map (·.2)).sum := by
    intro minor
    rw [mem_touchAll, folded, steps_at, foldl_minor, zero_add, ne_eq, map_eq_nil_iff]
  constructor
  · rintro ⟨⟨code', minor⟩, hmem, heq⟩
    have hcode : code' = code := congrArg Prod.fst heq
    have hamount : fromMinorUnits minor code' = amount := congrArg Prod.snd heq
    subst hcode hamount
    obtain ⟨hne, rfl⟩ := (hentry minor).mp hmem
    refine ⟨_, if_neg hne, fromMinorUnits_eq _ _, ?_⟩
    rw [fromMinorUnits_eq, decimalValue_toFixed2 htotal]
  · rintro ⟨figure, hfigure, rfl, -⟩
    split_ifs at hfigure with hne
    cases hfigure
    exact ⟨(code, _), (hentry _).mpr ⟨hne, rfl⟩, by rw [fromMinorUnits_eq]⟩

theorem labour_money_week : ∃ amounts,
    billableAmounts (fun _ => none) [⟨true, some 7, none, some 8500, some "USD".toList⟩,
      ⟨true, none, none, some 100000, some "JPY".toList⟩] = .ok amounts ∧
      ∀ code amount, (code, amount) ∈ amounts ↔
        ∃ figure, sqlAmount (fun _ => 16) [⟨true, some 7, none, some 8500, some "USD".toList⟩,
            ⟨true, none, none, some 100000, some "JPY".toList⟩] code = some figure ∧ amount = toFixed2 figure ∧
          decimalValue amount = some figure :=
  labour_money _ (fun _ => by decide) _ (by decide)

end Breeze.Currency.Labour
