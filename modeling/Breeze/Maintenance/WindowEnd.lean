import Breeze.Maintenance.Agreement

/-! The end that the evaluator reports for an open window, and the instant at which the window closes. -/

namespace Breeze.Maintenance.WindowEnd

open Windows Crossing Agreement

section Governed

variable (dateParse : Text → Option Int) (settings : Settings)

def Separate : Prop :=
  settings.recurrence = .once ∨ Recurring settings.recurrence ∧
    ∀ k, occurrence settings.recurrence settings.resolveRecurringAnchor k + settings.durationMs <
      occurrence settings.recurrence settings.resolveRecurringAnchor (k + 1)

def nowActive (t : Int) : Bool := (isInMaintenanceWindow dateParse settings t).active

def EndsAsReported (n : Int) : Prop :=
  ∀ endsAt, (isInMaintenanceWindow dateParse settings (1000 * n)).windowEndsAt = some endsAt →
    (∀ x, n ≤ x → 1000 * x < endsAt → nowActive dateParse settings (1000 * x) = true) ∧
      nowActive dateParse settings endsAt = false

/-- The occurrence that governs the reading `localNow` starts at `start`; the next one, if any, comes after it ends. -/
structure Governs (localNow start : Int) : Prop where
  found : maintenanceOccurrenceStart dateParse settings localNow = some start
  within : ∀ t, start ≤ maintenanceWallClock t settings.timezone →
    maintenanceWallClock t settings.timezone < start + settings.durationMs → nowActive dateParse settings t = true
  past : ∀ t, start + settings.durationMs ≤ maintenanceWallClock t settings.timezone →
    (∀ next, maintenanceNextOccurrenceStart settings.recurrence start = some next →
      maintenanceWallClock t settings.timezone < next) → nowActive dateParse settings t = false
  next : ∀ next, maintenanceNextOccurrenceStart settings.recurrence start = some next →
    start + settings.durationMs < next ∧
      ∀ t, maintenanceWallClock t settings.timezone = next → 0 < settings.durationMs → nowActive dateParse settings t = true

variable {dateParse settings}

variable {localNow start : Int}

lemma Separate.governs (h : Separate settings) (hstart : maintenanceOccurrenceStart dateParse settings localNow = some start) :
    Governs dateParse settings localNow start := by
  obtain honce | ⟨hrecurring, hseparate⟩ := h
  · have hconst : ∀ other, maintenanceOccurrenceStart dateParse settings other = some start := by
      intro other
      rw [onceStart_const honce other localNow, hstart]
    refine ⟨hstart, fun t hle hlt => (active_iff t).mpr ⟨start, hconst _, hle, hlt⟩, fun t hle _ => ?_, fun next hnext => ?_⟩
    · rw [← Bool.not_eq_true, nowActive, active_iff]
      rintro ⟨start', hstart', -, hlt⟩
      rw [hconst, Option.some.injEq] at hstart'
      omega
    · rw [honce] at hnext
      cases hnext
  · obtain ⟨k, hk, -⟩ := occurrenceStart_spec dateParse hrecurring localNow
    obtain rfl : start = _ := Option.some.inj (hstart.symm.trans hk)
    have hnext := nextOccurrenceStart_spec hrecurring settings.resolveRecurringAnchor k
    refine ⟨hstart, fun t => active_within hrecurring, fun t hle hlt => ?_, fun next hnext' => ?_⟩
    · rw [← Bool.not_eq_true]
      exact inactive_between hrecurring (duration_nonneg settings) hle (hlt _ hnext)
    · obtain rfl : _ = next := Option.some.inj (hnext.symm.trans hnext')
      refine ⟨hseparate k, fun t ht hpos => ?_⟩
      apply active_within hrecurring ht.ge
      omega

lemma nowActive_second {offset : Int → Int} (hzone : settings.timezone = some offset) (t : Int) :
    nowActive dateParse settings (1000 * (t / 1000)) = nowActive dateParse settings t := by
  have hclock : maintenanceWallClock (1000 * (t / 1000)) settings.timezone = maintenanceWallClock t settings.timezone := by
    have hsecond : 1000 * (t / 1000) / 1000 = t / 1000 := by omega
    simp only [hzone, maintenanceWallClock, hsecond]
  rw [Bool.eq_iff_iff, nowActive, nowActive, active_iff, active_iff, hclock]

end Governed

section Remaining

variable (dateParse : Text → Option Int) (settings : Settings) (offset : Int → Int) (n : Int)

def lastSecond (start : Int) : Int := (start + settings.durationMs) / 1000 - offset n

def Steady : Prop :=
  ∀ start, maintenanceOccurrenceStart dateParse settings (maintenanceWallClock (1000 * n) settings.timezone) = some start →
    start % 1000 = 0 ∧ (∀ x, n ≤ x → x < lastSecond settings offset n start → offset x = offset n) ∧
      offset n ≤ offset (lastSecond settings offset n start) ∧
      ∀ next, maintenanceNextOccurrenceStart settings.recurrence start = some next →
        start + settings.durationMs + 1000 * (offset (lastSecond settings offset n start) - offset n) < next

def ChangesOnce : Prop :=
  ∀ start, maintenanceOccurrenceStart dateParse settings (maintenanceWallClock (1000 * n) settings.timezone) = some start →
    ∃ change shift, -settings.durationMs ≤ 1000 * shift ∧
      (∀ next, maintenanceNextOccurrenceStart settings.recurrence start = some next →
        start + settings.durationMs + 1000 * shift ≤ next) ∧
      ∀ x, n ≤ x → x ≤ lastSecond settings offset n start → offset x = if x < change then offset n else offset n + shift

variable {dateParse settings offset n}

lemma duration_whole (settings : Settings) : settings.durationMs % 1000 = 0 := by
  simp only [Settings.durationMs]
  omega

section

variable (hzone : settings.timezone = some offset)

include hzone

lemma reported (hactive : nowActive dateParse settings (1000 * n) = true) :
    ∃ start, maintenanceOccurrenceStart dateParse settings (maintenanceWallClock (1000 * n) settings.timezone) = some start ∧
      start ≤ 1000 * (n + offset n) ∧ 1000 * (n + offset n) < start + settings.durationMs ∧
      (isInMaintenanceWindow dateParse settings (1000 * n)).windowEndsAt =
        some (start + settings.durationMs - 1000 * offset n) := by
  obtain ⟨start, hstart, hle, hlt⟩ := (active_iff _).mp hactive
  have hclock : maintenanceWallClock (1000 * n) settings.timezone = 1000 * (n + offset n) := by
    rw [hzone, wallClock_seconds]
  rw [hclock] at hle hlt
  refine ⟨start, hstart, hle, hlt, ?_⟩
  rw [hclock] at hstart
  simp only [isInMaintenanceWindow, hclock, hstart, if_pos (And.intro hle hlt), Option.some.injEq]
  omega

lemma ends_of_steady {start : Int}
    (hgoverns : Governs dateParse settings (maintenanceWallClock (1000 * n) settings.timezone) start)
    (hle : start ≤ 1000 * (n + offset n)) (hsteady : Steady dateParse settings offset n) :
    (∀ x, n ≤ x → 1000 * x < start + settings.durationMs - 1000 * offset n → nowActive dateParse settings (1000 * x) = true) ∧
      nowActive dateParse settings (start + settings.durationMs - 1000 * offset n) = false := by
  obtain ⟨hwhole, hconst, hback, hahead⟩ := hsteady start hgoverns.found
  have hduration := duration_whole settings
  have hlast : start + settings.durationMs - 1000 * offset n = 1000 * lastSecond settings offset n start := by
    simp only [lastSecond]
    omega
  have hend : 1000 * (lastSecond settings offset n start + offset n) = start + settings.durationMs := by omega
  rw [hlast]
  constructor
  · intro x hx hlt
    have hoffset := hconst x hx (by omega)
    apply hgoverns.within
    · rw [hzone, wallClock_seconds, hoffset]
      omega
    · rw [hzone, wallClock_seconds, hoffset]
      omega
  · apply hgoverns.past
    · rw [hzone, wallClock_seconds]
      omega
    · intro next hnext
      have := hahead next hnext
      rw [hzone, wallClock_seconds]
      omega

variable {start : Int} (hlt : 1000 * (n + offset n) < start + settings.durationMs)
  (hopen : ∀ x, n ≤ x → 1000 * x < start + settings.durationMs - 1000 * offset n →
    nowActive dateParse settings (1000 * x) = true)
  (hclosed : nowActive dateParse settings (start + settings.durationMs - 1000 * offset n) = false)

include hlt hopen hclosed

lemma whole_of_ends : start % 1000 = 0 := by
  have hduration := duration_whole settings
  by_contra hpart
  have hstill := hopen ((start + settings.durationMs - 1000 * offset n) / 1000) (by omega) (by omega)
  rw [nowActive_second hzone, hclosed] at hstill
  cases hstill

lemma steady_of_ends (hgoverns : Governs dateParse settings (maintenanceWallClock (1000 * n) settings.timezone) start)
    (hle : start ≤ 1000 * (n + offset n)) (honce : ChangesOnce dateParse settings offset n) :
    Steady dateParse settings offset n := by
  intro start' hstart'
  obtain rfl : start = start' := Option.some.inj (hgoverns.found.symm.trans hstart')
  have hwhole := whole_of_ends hzone hlt hopen hclosed
  have hduration := duration_whole settings
  obtain ⟨change, shift, hback, hahead, hoffset⟩ := honce start hgoverns.found
  have hlast : start + settings.durationMs - 1000 * offset n = 1000 * lastSecond settings offset n start := by
    simp only [lastSecond]
    omega
  rw [hlast] at hopen hclosed
  have hn := hoffset n le_rfl (by omega)
  have hl := hoffset (lastSecond settings offset n start) (by omega) le_rfl
  have hnext : ∀ next, maintenanceNextOccurrenceStart settings.recurrence start = some next →
      start + settings.durationMs < next := fun next h => (hgoverns.next next h).1
  -- a change at or before the end is none, or is one at the end that sets the clock forward
  have hsettled : shift = 0 ∨ lastSecond settings offset n start < change ∨
      change = lastSecond settings offset n start ∧ 0 < shift := by
    by_contra hmoved
    push Not at hmoved
    obtain ⟨hshift, hchange, hforward⟩ := hmoved
    rw [if_neg (by omega)] at hl
    obtain hneg | hpos := lt_or_gt_of_ne hshift
    · have hstill : nowActive dateParse settings (1000 * lastSecond settings offset n start) = true := by
        apply hgoverns.within
        · rw [hzone, wallClock_seconds]
          omega
        · rw [hzone, wallClock_seconds]
          omega
      rw [hclosed] at hstill
      cases hstill
    · have hearly : change ≠ lastSecond settings offset n start := fun h => absurd hpos (not_lt.mpr (hforward h))
      -- by then the clock reads the end of the window, before the reported instant
      obtain ⟨x, hx, hx', hxlast⟩ : ∃ x, change ≤ x ∧ lastSecond settings offset n start - shift ≤ x ∧
          x < lastSecond settings offset n start :=
        ⟨max change (lastSecond settings offset n start - shift), le_max_left _ _, le_max_right _ _, by omega⟩
      have hnx : n ≤ x := by
        by_contra hxn
        rw [if_neg (by omega)] at hn
        omega
      have hx₀ := hoffset x hnx hxlast.le
      rw [if_neg (by omega)] at hx₀
      have hover : nowActive dateParse settings (1000 * x) = false := by
        apply hgoverns.past
        · rw [hzone, wallClock_seconds]
          omega
        · intro next hnext
          have := hahead next hnext
          rw [hzone, wallClock_seconds]
          omega
      rw [hopen x hnx (by omega)] at hover
      cases hover
  obtain hzero | hlater | ⟨hatend, hpos⟩ := hsettled
  · simp only [hzero, add_zero, ite_self] at hoffset hl
    refine ⟨hwhole, fun x hx hx' => hoffset x hx hx'.le, hl.ge, fun next h => ?_⟩
    have := hnext next h
    omega
  · rw [if_pos hlater] at hl
    refine ⟨hwhole, fun x hx hx' => ?_, hl.ge, fun next h => ?_⟩
    · rw [hoffset x hx hx'.le, if_pos (by omega)]
    · have := hnext next h
      omega
  · rw [if_neg (by omega)] at hl
    refine ⟨hwhole, fun x hx hx' => ?_, by omega, fun next h => ?_⟩
    · rw [hoffset x hx hx'.le, if_pos (by omega)]
    · refine lt_of_le_of_ne (by have := hahead next h; omega) fun hreached => ?_
      have hreopened := (hgoverns.next next h).2 (1000 * lastSecond settings offset n start)
        (by rw [hzone, wallClock_seconds]; omega) (by omega)
      rw [hclosed] at hreopened
      cases hreopened

end

theorem window_ends (dateParse : Text → Option Int) (settings : Settings) (offset : Int → Int) (n : Int)
    (hseparate : Separate settings) (hzone : settings.timezone = some offset)
    (hactive : nowActive dateParse settings (1000 * n) = true) :
    (Steady dateParse settings offset n → EndsAsReported dateParse settings n) ∧
      (ChangesOnce dateParse settings offset n → EndsAsReported dateParse settings n → Steady dateParse settings offset n) := by
  obtain ⟨start, hstart, hle, hlt, hends⟩ := reported hzone hactive
  have hgoverns := hseparate.governs hstart
  constructor
  · intro hsteady endsAt hendsAt
    obtain rfl : _ = endsAt := Option.some.inj (hends.symm.trans hendsAt)
    exact ends_of_steady hzone hgoverns hle hsteady
  · intro honce hreported
    obtain ⟨hopen, hclosed⟩ := hreported _ hends
    exact steady_of_ends hzone hlt hopen hclosed hgoverns hle honce

lemma settingsAt_separate (offset : Int → Int) : Separate (settingsAt offset) := by
  refine .inr ⟨.inl rfl, fun k => ?_⟩
  simp only [settingsAt, occurrence, atAnchor, dayMs, Settings.durationMs]
  omega

theorem window_ends_quietNight : nowActive (fun _ => none) (settingsAt newYork) (1000 * 1772869200) = true ∧
    EndsAsReported (fun _ => none) (settingsAt newYork) 1772869200 := by
  have hactive : nowActive (fun _ => none) (settingsAt newYork) (1000 * 1772869200) = true := by decide
  refine ⟨hactive, (window_ends _ _ newYork 1772869200 (settingsAt_separate newYork) rfl hactive).1 ?_⟩
  intro start hstart
  have hcomputed : maintenanceOccurrenceStart (fun _ => none) (settingsAt newYork)
      (maintenanceWallClock (1000 * 1772869200) (some newYork)) = some 1772850600000 := by decide
  obtain rfl : 1772850600000 = start := Option.some.inj (hcomputed.symm.trans hstart)
  have hlast : lastSecond (settingsAt newYork) newYork 1772869200 1772850600000 = 1772875800 := by decide
  rw [hlast]
  refine ⟨by decide, fun x _ hx => ?_, by decide, fun next hnext => ?_⟩
  · rw [newYork, if_pos (by omega), newYork, if_pos (by decide)]
  · obtain rfl : 1772937000000 = next := Option.some.inj hnext
    decide

/-- At the first 02:45 an hour and three quarters are left on the clock, which goes back an hour before they pass. -/
theorem window_outlasts_report : nowActive (fun _ => none) (settingsAt berlin) (1000 * 1792889100) = true ∧
    Separate (settingsAt berlin) ∧ ¬ EndsAsReported (fun _ => none) (settingsAt berlin) 1792889100 := by
  refine ⟨by decide, settingsAt_separate berlin, fun h => ?_⟩
  exact absurd (h 1792895400000 (by decide)).2 (by decide)

end Remaining

end Breeze.Maintenance.WindowEnd
