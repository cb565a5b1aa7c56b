import Breeze.Lib.CivilMonths
import Breeze.Lib.Decimal

/-! reportSchedule.ts, and the inline path of reportScheduleWorker.ts: the latest scheduled minute as a
wall-clock key, and a report's checks and claims. -/

namespace Breeze.Reports.Schedule

open Breeze.Lib.CivilMonths Breeze.Lib.Decimal

inductive ScheduleCadence
  | daily
  | weekly
  | monthly

structure ScheduleConfig where
  time : Option Text
  day : Option Text
  date : Option Text

structure WallClock where
  y : ℤ
  m : ℤ
  d : ℤ
  hh : ℤ
  mm : ℤ
  weekday : ℤ

/-- A zone is its offset at each instant; both are in milliseconds. -/
abbrev Zone := ℤ → ℤ

def civil (day : ℤ) : ℤ × ℤ × ℤ :=
  let month := monthOf day
  (month / 12 + 1970, month % 12 + 1, day - monthStart month + 1)

def wallClock (minute : ℤ) : WallClock :=
  let day := minute / 1440
  let (y, m, d) := civil day
  ⟨y, m, d, minute / 60 % 24, minute % 60, (day + 4) % 7⟩

def wallClockIn (instant : ℤ) (zone : Zone) : WallClock := wallClock ((instant + zone instant) / 60000)

/-- A minute; its day is a fraction where the configured date is one. -/
structure Parts where
  y : ℤ
  m : ℤ
  d : ℚ
  hh : ℤ
  mm : ℤ

def WallClock.parts (wc : WallClock) : Parts := ⟨wc.y, wc.m, wc.d, wc.hh, wc.mm⟩

def keyOf (p : Parts) : ℚ := ((p.y * 100 + p.m) * 100 + p.d) * 10000 + p.hh * 100 + p.mm

def WallClock.key (wc : WallClock) : ℚ := keyOf wc.parts

/-- `Date.UTC(y, m - 1, d)` in days. -/
def dateUTC (y m d : ℤ) : ℤ := monthStart (12 * (y - 1970) + (m - 1)) + (d - 1)

def shiftDays (day : ℤ × ℤ × ℤ) (days : ℤ) : ℤ × ℤ × ℤ := civil (dateUTC day.1 day.2.1 day.2.2 + days)

def daysInMonth (y m : ℤ) : ℤ := (civil (dateUTC y (m + 1) 0)).2.2

def parseTime (time : Option Text) : ℤ × ℤ :=
  match (time.getD []).splitOn ':' with
  | [hours, minutes] =>
    let hh := Nat.ofDigitChars 10 hours 0
    let mm := Nat.ofDigitChars 10 minutes 0
    if (hours.length = 1 ∨ hours.length = 2) ∧ minutes.length = 2 ∧ (hours ++ minutes).all Char.isDigit ∧ hh ≤ 23 ∧ mm ≤ 59 then
      (hh, mm)
    else (9, 0)
  | _ => (9, 0)

def dayNames : List Text :=
  ["sunday", "monday", "tuesday", "wednesday", "thursday", "friday", "saturday"].map String.toList

/-- The names that `DAY_INDEX` inherits denote objects, and what is computed from them is `NaN`. -/
def inherited : List Text := ["constructor", "__proto__"].map String.toList

def dayIndex (day : Option Text) : Option ℤ :=
  let name := (day.getD "monday".toList).map Char.toLower
  if name ∈ dayNames then some (dayNames.idxOf name) else if name ∈ inherited then none else some 1

section Number

-- `Number` where it is not `NaN`; an infinite number is any one beyond the bounds that it is clamped to
variable (number : Text → Option ℚ)

def wantedDate (date : Option Text) : ℚ :=
  let n := (date.bind number).getD 0
  max 1 (min 31 (if n = 0 then 1 else n))

def dayParts (day : ℤ × ℤ × ℤ) (time : ℤ × ℤ) : Parts := ⟨day.1, day.2.1, day.2.2, time.1, time.2⟩

def monthParts (cfg : ScheduleConfig) (y m : ℤ) : Parts :=
  let (hh, mm) := parseTime cfg.time
  ⟨y, m, min (wantedDate number cfg.date) (daysInMonth y m), hh, mm⟩

/-- `none` is `NaN`. -/
def lastOccurrenceKey (now : WallClock) (cadence : ScheduleCadence) (cfg : ScheduleConfig) : Option ℚ :=
  let time := parseTime cfg.time
  let today := (now.y, now.m, now.d)
  match cadence with
  | .daily =>
    let day := if now.key < keyOf (dayParts today time) then shiftDays today (-1) else today
    some (keyOf (dayParts day time))
  | .weekly => do
    let target ← dayIndex cfg.day
    let day := shiftDays today (-((now.weekday - target + 7) % 7))
    let day := if now.key < keyOf (dayParts day time) then shiftDays day (-7) else day
    some (keyOf (dayParts day time))
  | .monthly =>
    let parts := monthParts number cfg
    some (keyOf (if now.key < keyOf (parts now.y now.m) then
      if now.m - 1 = 0 then parts (now.y - 1) 12 else parts now.y (now.m - 1)
    else parts now.y now.m))

def isDue (lastGeneratedAt : Option ℤ) (occurrenceKey : Option ℚ) (zone : Zone) : Bool :=
  match lastGeneratedAt with
  | none => true
  | some t => occurrenceKey.any fun key => (wallClockIn t zone).key < key

structure Report where
  cadence : ScheduleCadence
  config : ScheduleConfig
  zone : Zone

/-- A check, and the instant with which it stamps the report if it finds it due. -/
structure Check where
  now : ℤ
  stamp : ℤ

/-- A report's row, with the keys that its checks have claimed, latest first. -/
structure Row where
  lastGeneratedAt : Option ℤ
  claimed : List (Option ℚ)

def occurrence (report : Report) (c : Check) : Option ℚ :=
  lastOccurrenceKey number (wallClockIn c.now report.zone) report.cadence report.config

def claimReportOccurrence (observed : Option ℤ) (stamp : ℤ) (key : Option ℚ) (row : Row) : Row :=
  if row.lastGeneratedAt = observed then ⟨some stamp, key :: row.claimed⟩ else row

def processCheckSchedules (report : Report) (row : Row) (c : Check) : Row :=
  let key := occurrence number report c
  if isDue row.lastGeneratedAt key report.zone then claimReportOccurrence row.lastGeneratedAt c.stamp key row else row

def run (report : Report) (row : Row) (checks : List Check) : Row :=
  checks.foldl (processCheckSchedules number report) row

/-- Every check that claims an occurrence is stamped when the wall clock has reached it. -/
def Reaches (report : Report) (row : Row) : List Check → Prop
  | [] => True
  | c :: checks =>
    (isDue row.lastGeneratedAt (occurrence number report c) report.zone = true →
      isDue (some c.stamp) (occurrence number report c) report.zone = false) ∧
    Reaches report (processCheckSchedules number report row c) checks

end Number

section Claims

variable {number : Text → Option ℚ} {report : Report} {row : Row}

/-- What has been claimed is no longer due. -/
structure Settled (zone : Zone) (row : Row) : Prop where
  nodup : row.claimed.Nodup
  past : ∀ key ∈ row.claimed, isDue row.lastGeneratedAt key zone = false

lemma isDue_stamp {zone : Zone} {last : Option ℤ} {stamp : ℤ} {key earlier : Option ℚ} (hdue : isDue last key zone = true)
    (hstamp : isDue (some stamp) key zone = false) (hearlier : isDue last earlier zone = false) :
    isDue (some stamp) earlier zone = false := by
  cases last with
  | none => cases hearlier
  | some t =>
    cases key with
    | none => cases hdue
    | some key =>
      cases earlier with
      | none => rfl
      | some earlier =>
        simp only [isDue, Option.any_some, decide_eq_true_eq, decide_eq_false_iff_not, not_lt] at *
        exact hearlier.trans (hdue.le.trans hstamp)

lemma settled_check {c : Check} (h : Settled report.zone row)
    (hstamp : isDue row.lastGeneratedAt (occurrence number report c) report.zone = true →
      isDue (some c.stamp) (occurrence number report c) report.zone = false) :
    Settled report.zone (processCheckSchedules number report row c) := by
  simp only [processCheckSchedules]
  split_ifs with hdue
  · rw [claimReportOccurrence, if_pos rfl]
    constructor
    · refine List.nodup_cons.mpr ⟨fun hmem => ?_, h.nodup⟩
      rw [h.past _ hmem] at hdue
      cases hdue
    · refine List.forall_mem_cons.mpr ⟨hstamp hdue, fun key hkey => ?_⟩
      exact isDue_stamp hdue (hstamp hdue) (h.past key hkey)
  · exact h

lemma settled_run {checks : List Check} (h : Settled report.zone row) (hreaches : Reaches number report row checks) :
    Settled report.zone (run number report row checks) := by
  induction checks generalizing row with
  | nil => exact h
  | cons c checks ih => exact ih (settled_check h hreaches.1) hreaches.2

theorem occurrence_claimed_once (number : Text → Option ℚ) (report : Report) (last : Option ℤ) (checks : List Check)
    (h : Reaches number report ⟨last, []⟩ checks) : (run number report ⟨last, []⟩ checks).claimed.Nodup := by
  have hfirst : Settled report.zone ⟨last, []⟩ := ⟨List.nodup_nil, nofun⟩
  exact (settled_run hfirst h).nodup

end Claims

/-- Central European time around the night of 26 October 2025, when the clock went from 3:00 back to 2:00. -/
def october : Zone := fun instant => if instant < 1761440400000 then 7200000 else 3600000

def nightly : Report := ⟨.daily, ⟨some "02:59".toList, none, none⟩, october⟩

theorem occurrence_claimed_once_nights :
    (run (fun _ => none) nightly ⟨none, []⟩ [⟨1761353990000, 1761353991000⟩, ⟨1761440390000, 1761440391000⟩]).claimed.Nodup :=
  occurrence_claimed_once _ nightly none _ ⟨fun _ => by decide +kernel, fun _ => by decide +kernel, trivial⟩

theorem claimed_twice_as_clocks_go_back : ∃ checks : List Check,
    checks.Pairwise (fun c c' => c.now ≤ c.stamp ∧ c.stamp < c'.now) ∧ (∀ c ∈ checks, c.now ≤ c.stamp) ∧
    ¬ (run (fun _ => none) nightly ⟨none, []⟩ checks).claimed.Nodup :=
  ⟨[⟨1761440390000, 1761440400000⟩, ⟨1761443950000, 1761443951000⟩], by decide +kernel, by decide +kernel, by decide +kernel⟩

end Breeze.Reports.Schedule
