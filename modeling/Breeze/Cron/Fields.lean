import Breeze.Lib.Whitespace
import Breeze.Lib.Decimal

/-! The three readers of a cron pattern: the validator and the parser of cron.ts, and the matcher of
cronDue.ts that decides when scheduled work runs. -/

namespace Breeze.Cron.Fields

open Breeze.Lib.Decimal Breeze.Lib.Whitespace

/-- `pattern.trim().split(/\s+/)`: a trimmed text has no empty piece, the empty text has itself. -/
def cronWords (pattern : Text) : List Text :=
  let trimmed := trimBy isEcmaSpace pattern
  if trimmed = [] then [[]] else (trimmed.splitOnP isEcmaSpace).filter (· ≠ [])

inductive Field where
  | minute
  | hour
  | dayOfMonth
  | month
  | dayOfWeek
  deriving DecidableEq

def Field.min : Field → ℕ
  | .minute | .hour | .dayOfWeek => 0
  | .dayOfMonth | .month => 1

def Field.max : Field → ℕ
  | .minute => 59
  | .hour => 23
  | .dayOfMonth => 31
  | .month => 12
  | .dayOfWeek => 7

def monthNames : List Text :=
  ["jan", "feb", "mar", "apr", "may", "jun", "jul", "aug", "sep", "oct", "nov", "dec"].map String.toList

def dayNames : List Text := ["sun", "mon", "tue", "wed", "thu", "fri", "sat"].map String.toList

def Field.names : Field → List Text
  | .month => monthNames
  | .dayOfWeek => dayNames
  | _ => []

def Field.firstName : Field → ℕ
  | .month => 1
  | _ => 0

def isDigits (t : Text) : Bool := t ≠ [] && t.all Char.isDigit

def isStep : Text → Bool
  | [] => false
  | c :: rest => c.isDigit && c ≠ '0' && rest.all Char.isDigit

def number (t : Text) : ℕ := Nat.ofDigitChars 10 t 0

def readValue (f : Field) (token : Text) : Option ℕ :=
  match f.names.idxOf? (token.map Char.toLower) with
  | some named => some (named + f.firstName)
  | none =>
    if isDigits token then
      let value := number token
      if f.min ≤ value ∧ value ≤ f.max then some value else none
    else none

def validBounds (f : Field) (bounds : List Text) : Bool :=
  if 2 < bounds.length then false
  else
    let parsed := bounds.map (readValue f)
    if parsed.any Option.isNone then false
    else
      match parsed with
      | [some low, some high] => decide (low ≤ high)
      | _ => true

def isValidCronItem (f : Field) (listItem : Text) : Bool :=
  if listItem = [] then false
  else
    match listItem.splitOn '/' with
    | [] => false
    | rangePart :: steps =>
      if 1 < steps.length then false
      else if steps.any (fun stepPart => !isStep stepPart) then false
      else if rangePart = ['*'] then true
      else validBounds f (rangePart.splitOn '-')

def isValidCronField (f : Field) (field : Text) : Bool := (field.splitOn ',').all (isValidCronItem f)

def isStructurallyValidCron (pattern : Text) : Bool :=
  let five : List Text → Bool
    | [minute, hour, dayOfMonth, month, dayOfWeek] =>
      isValidCronField .minute minute && isValidCronField .hour hour && isValidCronField .dayOfMonth dayOfMonth &&
        isValidCronField .month month && isValidCronField .dayOfWeek dayOfWeek
    | _ => false
  match cronWords pattern with
  | [seconds, minute, hour, dayOfMonth, month, dayOfWeek] =>
    isValidCronField .minute seconds && five [minute, hour, dayOfMonth, month, dayOfWeek]
  | words => five words

def stepValues (low high step : ℕ) : List ℕ :=
  if low ≤ high then (List.range ((high - low) / step + 1)).map (low + step * ·) else []

def expandBounds (f : Field) (bounds : List Text) (stepPart : Option ℕ) : Option (List ℕ) :=
  if 2 < bounds.length then none
  else
    match bounds.map (readValue f) with
    | [some low, some high] => if high < low then none else some (stepValues low high (stepPart.getD 1))
    | [some low] => some (stepValues low (if stepPart = none then low else f.max) (stepPart.getD 1))
    | _ => none

def expandCronItem (f : Field) (listItem : Text) : Option (List ℕ) :=
  if listItem = [] then none
  else
    match listItem.splitOn '/' with
    | [] => none
    | rangePart :: steps =>
      if 1 < steps.length then none
      else if steps.any (fun stepPart => !isStep stepPart) then none
      else if rangePart = ['*'] then some (stepValues f.min f.max ((steps.head?.map number).getD 1))
      else expandBounds f (rangePart.splitOn '-') (steps.head?.map number)

def expandCronField (f : Field) (field : Text) : Option (List ℕ) := do
  let values ← (field.splitOn ',').mapM (expandCronItem f)
  if values.flatten = [] then none else some values.flatten

structure CronFields where
  minutes : List ℕ
  hours : List ℕ
  daysOfMonth : List ℕ
  months : List ℕ
  daysOfWeek : List ℕ
  domRestricted : Bool
  dowRestricted : Bool
  deriving DecidableEq

def parseFiveFieldCron (cron : Text) : Option CronFields :=
  match cronWords cron with
  | [minute, hour, dayOfMonth, month, dayOfWeek] => do
    let minutes ← expandCronField .minute minute
    let hours ← expandCronField .hour hour
    let daysOfMonth ← expandCronField .dayOfMonth dayOfMonth
    let months ← expandCronField .month month
    let rawDaysOfWeek ← expandCronField .dayOfWeek dayOfWeek
    some ⟨minutes, hours, daysOfMonth, months, rawDaysOfWeek.map fun day => if day = 7 then 0 else day,
      dayOfMonth ≠ ['*'], dayOfWeek ≠ ['*']⟩
  | _ => none

def parseInt (text : Text) : Option ℤ :=
  let text := text.dropWhile isEcmaSpace
  let (sign, text) : ℤ × Text := match text with
    | '-' :: rest => (-1, rest)
    | '+' :: rest => (1, rest)
    | _ => (1, text)
  let digits := text.takeWhile Char.isDigit
  if digits = [] then none else some (sign * number digits)

def segmentRange (base : Text) (min max : ℤ) : Option (ℤ × ℤ) :=
  if base = ['*'] then some (min, max)
  else if base.contains '-' then
    let raw := base.splitOn '-'
    match parseInt (raw.getD 0 []), parseInt (raw.getD 1 []) with
    | some parsedStart, some parsedEnd => some (parsedStart, parsedEnd)
    | _, _ => none
  else (parseInt base).map fun parsedSingle => (parsedSingle, parsedSingle)

def matchesCronSegment (segment : Text) (value min max : ℤ) : Bool :=
  let valueMatch := trimBy isEcmaSpace segment
  if valueMatch = [] then false
  else
    let stepParts := valueMatch.splitOn '/'
    let base := stepParts.getD 0 []
    let step := if stepParts.getD 1 [] = [] then none else parseInt (stepParts.getD 1 [])
    match segmentRange base min max with
    | none => false
    | some (rangeStart, rangeEnd) =>
      if value < rangeStart ∨ rangeEnd < value then false
      else
        match step with
        | none => true
        | some step => if step ≤ 0 then true else (value - rangeStart).tmod step == 0

def matchesCronField (field : Text) (value min max : ℤ) : Bool :=
  let normalized := trimBy isEcmaSpace field
  normalized = ['*'] || (normalized.splitOn ',').any fun segment => matchesCronSegment segment value min max

structure WallClock where
  minute : ℕ
  hour : ℕ
  dayOfMonth : ℕ
  month : ℕ
  dayOfWeek : ℕ
  deriving DecidableEq

def isCronDue (cronExpression : Text) (zoned : WallClock) : Bool :=
  match cronWords cronExpression with
  | [minuteField, hourField, dayOfMonthField, monthField, dayOfWeekField] =>
    let normalizedDowValue : ℤ := if zoned.dayOfWeek = 0 then 7 else zoned.dayOfWeek
    let dayOfMonthMatches := matchesCronField dayOfMonthField zoned.dayOfMonth 1 31
    let dayOfWeekMatches := matchesCronField dayOfWeekField zoned.dayOfWeek 0 7 ||
      matchesCronField dayOfWeekField normalizedDowValue 1 7
    matchesCronField minuteField zoned.minute 0 59 && matchesCronField hourField zoned.hour 0 23 &&
      matchesCronField monthField zoned.month 1 12 &&
      (if dayOfMonthField = ['*'] ∨ dayOfWeekField = ['*'] then dayOfMonthMatches && dayOfWeekMatches
        else dayOfMonthMatches || dayOfWeekMatches)
  | _ => false

end Breeze.Cron.Fields
