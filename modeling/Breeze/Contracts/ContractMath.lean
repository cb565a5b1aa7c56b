import Breeze.Lib.Decimal

/-! The date arithmetic of contractMath.ts. Dates are texts and are compared as texts. -/

namespace Breeze.Contracts.ContractMath

open Breeze.Lib.Decimal

inductive BillingTiming where
  | advance
  | arrears
  deriving DecidableEq

structure Period where
  periodStart : Text
  periodEnd : Text
  deriving DecidableEq

def parts (iso : Text) : ℕ × ℕ × ℕ :=
  let segments := iso.splitOn '-'
  let number (i : ℕ) := Nat.ofDigitChars 10 (segments.getD i []) 0
  (number 0, number 1, number 2)

def isLeap (year : ℤ) : Bool := year % 4 == 0 && (year % 100 != 0 || year % 400 == 0)

def monthLength (leap : Bool) : ℕ → ℕ
  | 2 => if leap then 29 else 28
  | 4 | 6 | 9 | 11 => 30
  | _ => 31

def utcYear (year : ℤ) : ℤ := if 0 ≤ year ∧ year ≤ 99 then 1900 + year else year

def daysInMonth (year : ℤ) (month1 : ℕ) : ℕ := monthLength (isLeap (utcYear year)) month1

def intText : ℤ → Text
  | .ofNat n => Nat.toDigits 10 n
  | .negSucc n => '-' :: Nat.toDigits 10 (n + 1)

def fmt (y : ℤ) (m1 d : ℕ) : Text :=
  intText y ++ '-' :: (padStart 2 (Nat.toDigits 10 m1) ++ '-' :: padStart 2 (Nat.toDigits 10 d))

def addMonthsClamped (iso : Text) (months : ℤ) : Text :=
  let (y, m, d) := parts iso
  let zeroBased : ℤ := (m : ℤ) - 1 + months
  let ny := (y : ℤ) + zeroBased / 12
  let nm1 := ((zeroBased.tmod 12 + 12).tmod 12 + 1).toNat
  fmt ny nm1 (min d (daysInMonth ny nm1))

def computePeriod (startDate : Text) (intervalMonths periodIndex : ℕ) : Period where
  periodStart := addMonthsClamped startDate (intervalMonths * periodIndex)
  periodEnd := addMonthsClamped startDate (intervalMonths * (periodIndex + 1))

def runawayGuard : ℕ := 100000

def periodIndexLoop (startDate : Text) (intervalMonths : ℕ) (asOf : Text) : ℕ → ℕ → ℕ
  | 0, idx => idx
  | fuel + 1, idx =>
    if (computePeriod startDate intervalMonths (idx + 1)).periodStart ≤ asOf then
      periodIndexLoop startDate intervalMonths asOf fuel (idx + 1)
    else idx

def periodIndexFor (startDate : Text) (intervalMonths : ℕ) (asOf : Text) : ℕ :=
  periodIndexLoop startDate intervalMonths asOf (runawayGuard + 1) 0

def nextBillingDate (startDate : Text) (intervalMonths : ℕ) (billingTiming : BillingTiming)
    (periodIndex : ℕ) : Text :=
  let period := computePeriod startDate intervalMonths periodIndex
  match billingTiming with
  | .advance => period.periodStart
  | .arrears => period.periodEnd

def isExpired (endDate : Option Text) (periodStart : Text) : Bool :=
  match endDate with
  | none => false
  | some endDate => decide (endDate ≤ periodStart)

def nextDay : ℤ × ℕ × ℕ → ℤ × ℕ × ℕ
  | (y, m, d) =>
    if d < monthLength (isLeap y) m then (y, m, d + 1)
    else if m < 12 then (y, m + 1, 1)
    else (y + 1, 1, 1)

def prevDay : ℤ × ℕ × ℕ → ℤ × ℕ × ℕ
  | (y, m, d) =>
    if 1 < d then (y, m, d - 1)
    else if 1 < m then (y, m - 1, monthLength (isLeap y) (m - 1))
    else (y - 1, 12, 31)

def makeDay (y : ℤ) (month1 day : ℤ) : ℤ × ℕ × ℕ :=
  let first := (y + (month1 - 1) / 12, ((month1 - 1) % 12).toNat + 1, 1)
  match day - 1 with
  | .ofNat n => nextDay^[n] first
  | .negSucc n => prevDay^[n + 1] first

def addDaysISO (iso : Text) (days : ℤ) : Text :=
  let (y, m, d) := parts iso
  let (y, m, d) := makeDay (utcYear y) m (d + days)
  fmt y m d

def duePeriodStartFor (billingTiming : BillingTiming) (nextBillingAt : Text) (intervalMonths : ℕ) : Text :=
  match billingTiming with
  | .advance => nextBillingAt
  | .arrears => addMonthsClamped nextBillingAt (-intervalMonths)

def isWithinNoticeWindow (asOf endDate : Text) (noticeDays : ℕ) : Bool :=
  decide (addDaysISO endDate (-noticeDays) ≤ asOf) && decide (asOf < endDate)

def extendTermLoop (duePeriodStart : Text) (termMonths : ℕ) : ℕ → Text → Bool → Text × Bool
  | 0, endDate, renewed => (endDate, renewed)
  | fuel + 1, endDate, renewed =>
    if isExpired (some endDate) duePeriodStart then
      extendTermLoop duePeriodStart termMonths fuel (addMonthsClamped endDate termMonths) true
    else (endDate, renewed)

def extendTermPastDue (endDate duePeriodStart : Text) (termMonths : ℕ) : Text × Bool :=
  extendTermLoop duePeriodStart termMonths (runawayGuard + 1) endDate false

end Breeze.Contracts.ContractMath
