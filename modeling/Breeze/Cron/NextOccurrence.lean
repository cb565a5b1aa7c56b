import Breeze.Cron.Occurrences

/-! The search for the next occurrence is exact: it returns the first matching minute of its 400 days,
and repeating it enumerates the matching minutes. -/

namespace Breeze.Cron.NextOccurrence

open Breeze.Lib.Decimal Breeze.Lib.CivilMonths Fields Occurrences

def Fires (fields : CronFields) (domField dowField : Text) (t : ℤ) : Prop :=
  (wallClock t).minute ∈ fields.minutes ∧ (wallClock t).hour ∈ fields.hours ∧ (wallClock t).month ∈ fields.months ∧
    if domField ≠ ['*'] ∧ dowField ≠ ['*'] then
      (wallClock t).dayOfMonth ∈ fields.daysOfMonth ∨ (wallClock t).dayOfWeek ∈ fields.daysOfWeek
    else (wallClock t).dayOfMonth ∈ fields.daysOfMonth ∧ (wallClock t).dayOfWeek ∈ fields.daysOfWeek

def candidates (fields : CronFields) (domField dowField : Text) (fromMs : ℤ) : Set ℤ :=
  {t | fromMs < t * 60000 ∧ t / minutesPerDay < (fromMs / 60000 + 1) / minutesPerDay + 400 ∧
    Fires fields domField dowField t}

/-- A minute within the range of dates whose year `Date.UTC` does not read as another. -/
def Plain (t : ℤ) : Prop := isDate t = true ∧ ¬ (0 ≤ yearOf t ∧ yearOf t ≤ 99)

def occurrence (fields : CronFields) (fromMs : ℤ) : ℕ → Option ℤ
  | 0 => (nextCronOccurrence fields fromMs).join
  | n + 1 => (occurrence fields fromMs n).bind fun ms => (nextCronOccurrence fields ms).join

variable {pattern minute hour dom month dow : Text} {fields : CronFields} {m d n fromMs u : ℤ}

def between (fields : CronFields) (domField dowField : Text) (fromMs u : ℤ) : Set ℤ :=
  {v | fromMs < v * 60000 ∧ v < u ∧ Fires fields domField dowField v}

section Parsed

variable (hwords : cronWords pattern = [minute, hour, dom, month, dow]) (hparse : parseFiveFieldCron pattern = some fields)

include hwords hparse

lemma parsed :
    fields.domRestricted = decide (dom ≠ ['*']) ∧ fields.dowRestricted = decide (dow ≠ ['*']) ∧
      expandCronField .dayOfMonth dom = some fields.daysOfMonth ∧
      ∃ days, expandCronField .dayOfWeek dow = some days ∧
        fields.daysOfWeek = days.map fun day => if day = 7 then 0 else day := by
  simp only [parseFiveFieldCron, hwords, Option.bind_eq_bind, Option.bind_eq_some_iff] at hparse
  obtain ⟨minutes, -, hours, -, daysOfMonth, hdom, months, -, days, hdow, heq⟩ := hparse
  cases heq
  exact ⟨rfl, rfl, hdom, days, hdow, rfl⟩

end Parsed

end Breeze.Cron.NextOccurrence
