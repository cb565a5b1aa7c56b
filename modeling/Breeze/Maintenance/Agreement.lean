import Breeze.Maintenance.Crossing

/-! The projector and the live evaluator: the projected window is where the evaluator is active, near regular clock readings. -/

namespace Breeze.Maintenance.Agreement

open Breeze.Lib Windows Crossing

section Cadence

def occurrence (recurrence : Recurrence) (anchor : Anchor) (k : Int) : Int :=
  match recurrence with
  | .daily => atAnchor k anchor
  | .weekly => atAnchor (7 * k + 3) anchor
  | .monthly => atAnchor (CivilMonths.monthStart k) anchor
  | .once | .unknown => k

def Recurring (recurrence : Recurrence) : Prop :=
  recurrence = .daily ∨ recurrence = .weekly ∨ recurrence = .monthly

lemma anchor_bounds (anchor : Anchor) : 0 ≤ anchor.ms ∧ anchor.ms < dayMs := by
  have := anchor.hours_le
  have := anchor.minutes_le
  simp only [Anchor.ms, dayMs]
  omega

lemma occurrence_strictMono (recurrence : Recurrence) (anchor : Anchor) : StrictMono (occurrence recurrence anchor) := by
  refine strictMono_int_of_lt_succ fun k => ?_
  have hmonth := CivilMonths.monthStart_step k
  cases recurrence <;> simp only [occurrence, atAnchor, dayMs] <;> omega

variable (dateParse : Text → Option Int) {settings : Settings}

lemma occurrenceStart_spec (hrecurring : Recurring settings.recurrence) (localNow : Int) :
    ∃ k, maintenanceOccurrenceStart dateParse settings localNow =
        some (occurrence settings.recurrence settings.resolveRecurringAnchor k) ∧
      occurrence settings.recurrence settings.resolveRecurringAnchor k ≤ localNow ∧
      localNow < occurrence settings.recurrence settings.resolveRecurringAnchor (k + 1) := by
  have hanchor := anchor_bounds settings.resolveRecurringAnchor
  simp only [dayMs] at hanchor
  obtain h | h | h := hrecurring
  · simp only [maintenanceOccurrenceStart, h, occurrence, atAnchor, dayMs]
    split_ifs with hearly
    · exact ⟨localNow / 86400000 - 1, congrArg some (by omega), by omega, by omega⟩
    · exact ⟨localNow / 86400000, congrArg some (if_neg hearly), by omega, by omega⟩
  · simp only [maintenanceOccurrenceStart, h, occurrence, atAnchor, dayMs]
    split_ifs with hearly
    · exact ⟨(localNow / 86400000 + 4) / 7 - 2, congrArg some (by omega), by omega, by omega⟩
    · exact ⟨(localNow / 86400000 + 4) / 7 - 1, congrArg some (by omega), by omega, by omega⟩
  · obtain ⟨hmonth, hnext⟩ := CivilMonths.monthOf_spec (localNow / 86400000)
    simp only [maintenanceOccurrenceStart, h, occurrence, atAnchor, dayMs]
    split_ifs with hearly
    · have hprev := CivilMonths.monthStart_step (CivilMonths.monthOf (localNow / 86400000) - 1)
      rw [Int.sub_add_cancel] at hprev
      refine ⟨CivilMonths.monthOf (localNow / 86400000) - 1, congrArg some (if_pos hearly), by omega, ?_⟩
      rw [Int.sub_add_cancel]
      omega
    · exact ⟨CivilMonths.monthOf (localNow / 86400000), congrArg some (if_neg hearly), by omega, by omega⟩

lemma nextOccurrenceStart_spec (hrecurring : Recurring settings.recurrence) (anchor : Anchor) (k : Int) :
    maintenanceNextOccurrenceStart settings.recurrence (occurrence settings.recurrence anchor k) =
      some (occurrence settings.recurrence anchor (k + 1)) := by
  have hanchor := anchor_bounds anchor
  simp only [dayMs] at hanchor
  obtain h | h | h := hrecurring
  · simp only [maintenanceNextOccurrenceStart, h, occurrence, atAnchor, dayMs]
    exact congrArg some (by omega)
  · simp only [maintenanceNextOccurrenceStart, h, occurrence, atAnchor, dayMs]
    exact congrArg some (by omega)
  · have hday : (CivilMonths.monthStart k * 86400000 + anchor.ms) / 86400000 = CivilMonths.monthStart k := by omega
    have hmonth : CivilMonths.monthOf (CivilMonths.monthStart k) = k := by
      obtain ⟨hle, hlt⟩ := CivilMonths.monthOf_spec (CivilMonths.monthStart k)
      have h₁ := CivilMonths.monthStart_strictMono.le_iff_le.mp hle
      have h₂ := CivilMonths.monthStart_strictMono.lt_iff_lt.mp hlt
      omega
    simp only [maintenanceNextOccurrenceStart, h, occurrence, atAnchor, dayMs, hday, hmonth]
    exact congrArg some (by omega)

end Cadence

section Evaluator

variable {dateParse : Text → Option Int} {settings : Settings}

lemma active_iff (now : Int) :
    (isInMaintenanceWindow dateParse settings now).active = true ↔
      ∃ start, maintenanceOccurrenceStart dateParse settings (maintenanceWallClock now settings.timezone) = some start ∧
        start ≤ maintenanceWallClock now settings.timezone ∧
        maintenanceWallClock now settings.timezone < start + settings.durationMs := by
  cases h : maintenanceOccurrenceStart dateParse settings (maintenanceWallClock now settings.timezone) with
  | none => simp [isInMaintenanceWindow, h]
  | some start =>
    simp only [isInMaintenanceWindow, h, Option.some.injEq, exists_eq_left']
    split_ifs with hopen
    · simpa using hopen
    · simpa using hopen

lemma active_within (hrecurring : Recurring settings.recurrence) {k now : Int}
    (hstart : occurrence settings.recurrence settings.resolveRecurringAnchor k ≤ maintenanceWallClock now settings.timezone)
    (hend : maintenanceWallClock now settings.timezone <
      occurrence settings.recurrence settings.resolveRecurringAnchor k + settings.durationMs) :
    (isInMaintenanceWindow dateParse settings now).active = true := by
  have hmono := occurrence_strictMono settings.recurrence settings.resolveRecurringAnchor
  obtain ⟨l, hl, hle, hlt⟩ := occurrenceStart_spec dateParse hrecurring
    (maintenanceWallClock now settings.timezone)
  have hkl : k ≤ l := by
    have := hmono.lt_iff_lt.mp (hstart.trans_lt hlt)
    omega
  have := hmono.monotone hkl
  exact (active_iff now).mpr ⟨_, hl, hle, by omega⟩

lemma inactive_between (hrecurring : Recurring settings.recurrence) {k now : Int} (hduration : 0 ≤ settings.durationMs)
    (hend : occurrence settings.recurrence settings.resolveRecurringAnchor k + settings.durationMs ≤
      maintenanceWallClock now settings.timezone)
    (hnext : maintenanceWallClock now settings.timezone <
      occurrence settings.recurrence settings.resolveRecurringAnchor (k + 1)) :
    ¬ (isInMaintenanceWindow dateParse settings now).active = true := by
  have hmono := occurrence_strictMono settings.recurrence settings.resolveRecurringAnchor
  obtain ⟨l, hl, hle, hlt⟩ := occurrenceStart_spec dateParse hrecurring
    (maintenanceWallClock now settings.timezone)
  have hlk : l = k := by
    have h₁ := hmono.lt_iff_lt.mp (hle.trans_lt hnext)
    have h₂ := hmono.lt_iff_lt.mp (lt_of_le_of_lt (by omega) hlt : occurrence _ _ k < _)
    omega
  rw [active_iff]
  rintro ⟨start, hstart, -, hopen⟩
  rw [hl, hlk, Option.some.injEq] at hstart
  omega

end Evaluator

section Projector

variable (dateParse : Text → Option Int) (toISOString : Int → String) (settings : Settings) (fromMs : Int)

def Agrees (horizonDays : Nat) : Prop :=
  (∀ window, projectNextConfigPolicyWindow dateParse toISOString settings fromMs horizonDays = some window →
      (∀ t, fromMs ≤ t → t < window.startsAt → (isInMaintenanceWindow dateParse settings t).active = false) ∧
      ∀ t, max fromMs window.startsAt ≤ t → t < window.endsAt → (isInMaintenanceWindow dateParse settings t).active = true) ∧
    ((isInMaintenanceWindow dateParse settings fromMs).active = true ↔
      ∃ window, projectNextConfigPolicyWindow dateParse toISOString settings fromMs horizonDays = some window ∧
        window.startsAt ≤ fromMs ∧ fromMs < window.endsAt)

variable {dateParse toISOString settings fromMs}

lemma duration_nonneg (settings : Settings) : 0 ≤ settings.durationMs := by
  simp only [Settings.durationMs]
  omega

lemma onceStart_const (honce : settings.recurrence = .once) (localNow other : Int) :
    maintenanceOccurrenceStart dateParse settings localNow = maintenanceOccurrenceStart dateParse settings other := by
  simp only [maintenanceOccurrenceStart, honce]

def settingsAt (offset : Int → Int) : Settings :=
  { id := "c001", recurrence := .daily, durationHours := 2, timezone := some offset
    windowStart := some ['0', '2', ':', '3', '0'], suppressAlerts := true, suppressPatching := false
    suppressAutomations := false, suppressScripts := false, rebootIfPending := true }

def newYork (s : Int) : Int := if s < 1772953200 then -18000 else -14400

def berlin (s : Int) : Int := if s < 1792890000 then 7200 else 3600

end Projector

end Breeze.Maintenance.Agreement
