import Breeze.Lib.CivilMonths
import Breeze.Lib.Whitespace

/-! Maintenance windows of a configuration policy: the live evaluator and the next-window projector.
Instants and wall clocks are milliseconds; a wall clock carries its digits as if they were UTC. -/

namespace Breeze.Maintenance.Windows

open Breeze.Lib

abbrev Text := List Char

inductive Recurrence
  | once
  | daily
  | weekly
  | monthly
  | unknown
  deriving DecidableEq, Repr

abbrev Zone := Option (Int → Int)

structure Settings where
  id : String
  recurrence : Recurrence
  durationHours : Nat
  timezone : Zone
  windowStart : Option Text
  suppressAlerts : Bool
  suppressPatching : Bool
  suppressAutomations : Bool
  suppressScripts : Bool
  rebootIfPending : Bool

def dayMs : Int := 86400000

def Settings.durationMs (settings : Settings) : Int := settings.durationHours * 60 * 60 * 1000

section Patterns

def digitsValue (s : Text) : Nat := Nat.ofDigitChars 10 s 0

def readHoursMinutes (s : Text) : Option ((Nat × Nat) × Text) :=
  let hours := s.takeWhile Char.isDigit
  match s.drop hours.length with
  | ':' :: m₁ :: m₂ :: rest =>
    if (hours.length = 1 ∨ hours.length = 2) ∧ m₁.isDigit ∧ m₂.isDigit then
      some ((digitsValue hours, digitsValue [m₁, m₂]), rest)
    else none
  | _ => none

def timeOfDayPattern (s : Text) : Option (Nat × Nat) :=
  match readHoursMinutes s with
  | some (anchor, []) => some anchor
  | some (anchor, [':', s₁, s₂]) => if s₁.isDigit ∧ s₂.isDigit then some anchor else none
  | _ => none

def readDate : Text → Option Text
  | y₁ :: y₂ :: y₃ :: y₄ :: '-' :: m₁ :: m₂ :: '-' :: d₁ :: d₂ :: rest =>
    if [y₁, y₂, y₃, y₄, m₁, m₂, d₁, d₂].all Char.isDigit then some rest else none
  | _ => none

def datetimeTimePattern (s : Text) : Option (Nat × Nat) :=
  match readDate s with
  | some ('T' :: rest) | some (' ' :: rest) => (readHoursMinutes rest).map (·.1)
  | _ => none

def dateOnlyPattern (s : Text) : Bool := readDate s == some []

def explicitUtcOffsetPattern (s : Text) : Bool :=
  match s.reverse with
  | 'Z' :: _ | 'z' :: _ => true
  | m₂ :: m₁ :: ':' :: h₂ :: h₁ :: sign :: _ =>
    [h₁, h₂, m₁, m₂].all Char.isDigit && (sign == '+' || sign == '-')
  | m₂ :: m₁ :: h₂ :: h₁ :: sign :: _ => [h₁, h₂, m₁, m₂].all Char.isDigit && (sign == '+' || sign == '-')
  | _ => false

/-- `value.replace(' ', 'T')` replaces the first blank only. -/
def replaceBlank : Text → Text
  | [] => []
  | ' ' :: rest => 'T' :: rest
  | c :: rest => c :: replaceBlank rest

end Patterns

structure Anchor where
  hours : Nat
  minutes : Nat
  hours_le : hours ≤ 23
  minutes_le : minutes ≤ 59

def midnightAnchor : Anchor := ⟨0, 0, by decide, by decide⟩

def Anchor.ms (anchor : Anchor) : Int := anchor.hours * 3600000 + anchor.minutes * 60000

def parseRecurringWindowAnchor (rawWindowStart : Option Text) : Option Anchor :=
  let value := Whitespace.trimBy Whitespace.isEcmaSpace (rawWindowStart.getD [])
  if value = [] then some midnightAnchor
  else if explicitUtcOffsetPattern value then none
  else match timeOfDayPattern value <|> datetimeTimePattern value with
    | none => none
    | some (hours, minutes) =>
      if h : hours ≤ 23 ∧ minutes ≤ 59 then some ⟨hours, minutes, h.1, h.2⟩ else none

def Settings.resolveRecurringAnchor (settings : Settings) : Anchor :=
  (parseRecurringWindowAnchor settings.windowStart).getD midnightAnchor

def maintenanceWallClock (instant : Int) (timezone : Zone) : Int :=
  match timezone with
  | some offset => (instant / 1000 + offset (instant / 1000)) * 1000
  | none => instant

section Recurrences

-- `Date.parse`; `none` is NaN
variable (dateParse : Text → Option Int)

def onceWindowStartWallClock (rawWindowStart : Text) (timezone : Zone) : Option Int :=
  let value := Whitespace.trimBy Whitespace.isEcmaSpace rawWindowStart
  if value = [] then none
  else if explicitUtcOffsetPattern value then (dateParse value).map (maintenanceWallClock · timezone)
  else dateParse (if dateOnlyPattern value then value ++ "T00:00:00Z".toList else replaceBlank value ++ ['Z'])

def atAnchor (day : Int) (anchor : Anchor) : Int := day * dayMs + anchor.ms

def maintenanceOccurrenceStart (settings : Settings) (localNow : Int) : Option Int :=
  let anchor := settings.resolveRecurringAnchor
  let today := localNow / dayMs
  match settings.recurrence with
  | .once => match settings.windowStart with
    | none | some [] => none
    | some windowStart => onceWindowStartWallClock dateParse windowStart settings.timezone
  | .daily =>
    let windowStart := atAnchor today anchor
    some (if windowStart > localNow then windowStart - dayMs else windowStart)
  | .weekly =>
    -- `getUTCDay()` is 0 on a Sunday; day 0 was a Thursday
    let windowStart := atAnchor (today - (today + 4) % 7) anchor
    some (if windowStart > localNow then windowStart - 7 * dayMs else windowStart)
  | .monthly =>
    let month := CivilMonths.monthOf today
    let windowStart := atAnchor (CivilMonths.monthStart month) anchor
    some (if windowStart > localNow then atAnchor (CivilMonths.monthStart (month - 1)) anchor else windowStart)
  | .unknown => none

def maintenanceNextOccurrenceStart (recurrence : Recurrence) (occurrenceStart : Int) : Option Int :=
  match recurrence with
  | .daily => some (occurrenceStart + dayMs)
  | .weekly => some (occurrenceStart + 7 * dayMs)
  | .monthly =>
    -- `setUTCMonth` keeps the day of the month, which is the first, and the time of day
    let day := occurrenceStart / dayMs
    let month := CivilMonths.monthOf day
    some ((CivilMonths.monthStart (month + 1) + (day - CivilMonths.monthStart month)) * dayMs + occurrenceStart % dayMs)
  | .once | .unknown => none

structure MaintenanceWindowStatus where
  active : Bool := false
  suppressAlerts : Bool := false
  suppressPatching : Bool := false
  suppressAutomations : Bool := false
  suppressScripts : Bool := false
  rebootIfPending : Bool := false
  windowEndsAt : Option Int := none

def isInMaintenanceWindow (settings : Settings) (now : Int) : MaintenanceWindowStatus :=
  let localNow := maintenanceWallClock now settings.timezone
  match maintenanceOccurrenceStart dateParse settings localNow with
  | none => {}
  | some windowStart =>
    let windowEnd := windowStart + settings.durationMs
    if localNow ≥ windowStart ∧ localNow < windowEnd then
      { active := true, suppressAlerts := settings.suppressAlerts, suppressPatching := settings.suppressPatching
        suppressAutomations := settings.suppressAutomations, suppressScripts := settings.suppressScripts
        rebootIfPending := settings.rebootIfPending, windowEndsAt := some (now + (windowEnd - localNow)) }
    else {}

end Recurrences

def zoneOffsetMs (instant : Int) (timezone : Zone) : Int := maintenanceWallClock instant timezone - instant

def bisectOffset (timezone : Zone) (offsetAfter : Int) (lo hi : Int) : Int :=
  if hi - lo > 1 then
    let mid := (lo + hi) / 2
    if zoneOffsetMs mid timezone = offsetAfter then bisectOffset timezone offsetAfter lo mid
    else bisectOffset timezone offsetAfter mid hi
  else hi
termination_by (hi - lo).toNat
decreasing_by all_goals omega

def wallClockToInstant (wall : Int) (timezone : Zone) : Int :=
  let first := wall - zoneOffsetMs wall timezone
  if zoneOffsetMs first timezone = wall - first then first
  else
    let second := wall - zoneOffsetMs first timezone
    if zoneOffsetMs second timezone = wall - second then second
    else bisectOffset timezone (zoneOffsetMs (max first second) timezone) (min first second) (max first second)

structure NextMaintenanceWindow where
  windowId : String
  startsAt : Int
  endsAt : Int
  rebootIfPending : Bool
  deriving DecidableEq

section Projection

-- how `toISOString` writes an instant
variable (dateParse : Text → Option Int) (toISOString : Int → String)

def projectedStart (settings : Settings) (fromMs : Int) : Option Int :=
  let localFrom := maintenanceWallClock fromMs settings.timezone
  (maintenanceOccurrenceStart dateParse settings localFrom).bind fun start =>
    if localFrom ≥ start + settings.durationMs then maintenanceNextOccurrenceStart settings.recurrence start
    else some start

def projectNextConfigPolicyWindow (settings : Settings) (fromMs : Int) (horizonDays : Nat) :
    Option NextMaintenanceWindow :=
  (projectedStart dateParse settings fromMs).bind fun start =>
    let startsAt := wallClockToInstant start settings.timezone
    if startsAt - fromMs > horizonDays * dayMs then none
    else
      let endsAt := wallClockToInstant (start + settings.durationMs) settings.timezone
      some { windowId := settings.id ++ "@" ++ toISOString startsAt, startsAt, endsAt
             rebootIfPending := settings.rebootIfPending }

end Projection

end Breeze.Maintenance.Windows
