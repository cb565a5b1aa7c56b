import Breeze.Lib.Whitespace
import Breeze.Lib.Decimal

/-! The exact decimal arithmetic of currency.ts. Amounts are texts; the one error that is thrown is
`currency: non-finite amount`. -/

namespace Breeze.Currency.Amounts

open Breeze.Lib.Decimal Breeze.Lib.Whitespace

def zeroDecimal : List Text :=
  ["BIF", "CLP", "DJF", "GNF", "JPY", "KMF", "KRW", "MGA", "PYG", "RWF", "UGX", "VND", "VUV", "XAF", "XOF",
    "XPF"].map String.toList

def isZeroDecimal (currency : Text) : Bool := zeroDecimal.contains ((trimBy isEcmaSpace currency).map Char.toUpper)

def minorUnitExponent (currency : Text) : ℕ := if isZeroDecimal currency then 0 else 2

structure Decimal where
  neg : Bool
  unscaled : ℕ
  scale : ℕ

structure Groups where
  sign : Option Char
  intPart : Text
  fracPart : Option Text
  exponent : Option Text

def signOf : Text → Option Char × Text
  | '+' :: rest => (some '+', rest)
  | '-' :: rest => (some '-', rest)
  | t => (none, t)

def isExponent (t : Text) : Bool :=
  let digits := (signOf t).2
  digits ≠ [] && digits.all Char.isDigit

def fraction : Text → Option Text × Text
  | '.' :: rest => (some (rest.takeWhile Char.isDigit), rest.dropWhile Char.isDigit)
  | t => (none, t)

/-- `DECIMAL_RE.exec`: no character of a text can belong to two of the groups. -/
def matchDecimal (t : Text) : Option Groups :=
  let unsigned := (signOf t).2
  let afterInt := fraction (unsigned.dropWhile Char.isDigit)
  let groups := Groups.mk (signOf t).1 (unsigned.takeWhile Char.isDigit) afterInt.1
  match afterInt.2 with
  | [] => some (groups none)
  | e :: rest => if (e = 'e' ∨ e = 'E') ∧ isExponent rest then some (groups (some rest)) else none

def nonFinite : String := "currency: non-finite amount"

def exponentValue (t : Text) : ℤ :=
  match signOf t with
  | (some '-', digits) => -(Nat.ofDigitChars 10 digits 0 : ℤ)
  | (_, digits) => Nat.ofDigitChars 10 digits 0

def stripZeros : Text → Text
  | '0' :: c :: rest => stripZeros (c :: rest)
  | t => t

def decimalOf (m : Groups) : Except String Decimal :=
  let fracPart := m.fracPart.getD []
  if m.intPart = [] ∧ fracPart = [] then .error nonFinite
  else
    let digits := stripZeros (m.intPart ++ fracPart)
    let scale : ℤ := fracPart.length - (m.exponent.map exponentValue).getD 0
    .ok { neg := m.sign = some '-'
          unscaled := Nat.ofDigitChars 10 (digits ++ List.replicate (-scale).toNat '0') 0
          scale := scale.toNat }

/-- `numberText` is `String(Number(text))` where the number is finite: the reading of texts that are no
decimals, such as `0x10`. -/
def parseDecimal (numberText : Text → Option Text) (value : Text) : Except String Decimal :=
  let text := trimBy isEcmaSpace value
  if text = [] then .ok ⟨false, 0, 0⟩
  else
    match matchDecimal text with
    | some m => decimalOf m
    | none =>
      match (numberText text).bind matchDecimal with
      | some m => decimalOf m
      | none => .error nonFinite

def roundScaled (d : Decimal) (exp : ℕ) : ℤ :=
  let q :=
    if d.scale ≤ exp then d.unscaled * 10 ^ (exp - d.scale)
    else
      let div := 10 ^ (d.scale - exp)
      let twiceRem := d.unscaled % div * 2
      d.unscaled / div + if (if d.neg then div < twiceRem else div ≤ twiceRem) then 1 else 0
  if d.neg then -q else q

def padEnd (w : ℕ) (t : Text) : Text := t ++ List.replicate (w - t.length) '0'

def formatMinor (minor : ℤ) (exp : ℕ) : Text :=
  if minor = 0 then "0.00".toList
  else
    let mag := minor.natAbs
    let div := 10 ^ exp
    let frac := padEnd 2 (padStart exp (Nat.toDigits 10 (mag % div)))
    (if minor < 0 then ['-'] else []) ++ Nat.toDigits 10 (mag / div) ++ '.' :: frac

section Parsed

variable (numberText : Text → Option Text)

def multiplyToCurrency (a b currency : Text) : Except String Text := do
  let x ← parseDecimal numberText a
  let y ← parseDecimal numberText b
  let exp := minorUnitExponent currency
  return formatMinor (roundScaled ⟨x.neg != y.neg, x.unscaled * y.unscaled, x.scale + y.scale⟩ exp) exp

end Parsed

end Breeze.Currency.Amounts
