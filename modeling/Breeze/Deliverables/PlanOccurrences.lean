import Breeze.Lib.FirstHits
import Breeze.Deliverables.Recurrence

/-! The planner of a deliverable's occurrences. Its loop has no bound: it ends because due dates only
grow, in the calendar and as texts. -/

namespace Breeze.Deliverables.PlanOccurrences

open Breeze.Lib.Decimal Breeze.Lib.FirstHits Contracts.ContractMath Contracts.CalendarDay Contracts.PeriodGrid List
open Contracts.DayNumber Recurrence

def isInLeadWindow (dueAt : Text) (leadDays : ℤ) (today : Text) : Bool := addDaysISO dueAt (-leadDays) ≤ today

def isPastGrace (dueAt : Text) (graceDays : ℤ) (today : Text) : Bool := addDaysISO dueAt graceDays < today

structure PlanInput where
  anchorDueDate : Text
  cadence : Cadence
  effectiveFrom : Text
  effectiveUntil : Option Text
  leadDays : ℤ
  graceDays : ℤ
  today : Text
  existingDueDates : List Text
  cap : Option ℕ

inductive InitialStatus where
  | scheduled
  | missed
  deriving DecidableEq

structure PlannedOccurrence where
  periodStart : Text
  periodEnd : Text
  dueAt : Text
  initialStatus : InitialStatus
  deriving DecidableEq

def planned (input : PlanInput) (due : Text) : PlannedOccurrence where
  periodStart := (coveredPeriod due input.cadence).periodStart
  periodEnd := (coveredPeriod due input.cadence).periodEnd
  dueAt := due
  initialStatus := if isPastGrace due input.graceDays input.today then .missed else .scheduled

def planLoop (input : PlanInput) : ℕ → ℕ → List PlannedOccurrence → Option (List PlannedOccurrence)
  | 0, _, _ => none
  | fuel + 1, n, out =>
    if out.length < input.cap.getD 12 then
      match nthDueDate input.anchorDueDate input.cadence n with
      | none => some out
      | some due =>
        if !isInLeadWindow due input.leadDays input.today then some out
        else if input.effectiveUntil.any fun last => last < due then some out
        else if due < input.effectiveFrom || input.existingDueDates.contains due then planLoop input fuel (n + 1) out
        else planLoop input fuel (n + 1) (out ++ [planned input due])
    else some out

def planOccurrences (input : PlanInput) (fuel : ℕ) : Option (List PlannedOccurrence) := planLoop input fuel 0 []

def Returns (input : PlanInput) (plan : List PlannedOccurrence) : Prop :=
  ∃ fuel, ∀ more, planOccurrences input (fuel + more) = some plan

structure Schedule where
  anchor : StartDay
  cadence : Cadence
  effectiveFrom : StartDay
  effectiveUntil : Option StartDay
  leadDays : ℕ
  graceDays : ℤ
  cap : Option ℕ

variable (S : Schedule)

def Schedule.input (today : StartDay) (existing : List Text) : PlanInput where
  anchorDueDate := S.anchor.iso
  cadence := S.cadence
  effectiveFrom := S.effectiveFrom.iso
  effectiveUntil := S.effectiveUntil.map fun day => day.iso
  leadDays := S.leadDays
  graceDays := S.graceDays
  today := today.iso
  existingDueDates := existing
  cap := S.cap

def Schedule.Has (n : ℕ) : Prop := S.cadence = .oneTime → n = 0

def Schedule.month (n : ℕ) : ℕ := monthNumber S.anchor.toDay ((cadenceMonths S.cadence).getD 0 * n)

def Schedule.text (n : ℕ) : Text := monthText S.anchor.d (S.month n)

def Schedule.dueNumber (n : ℕ) : ℤ :=
  dayNumber ((S.month n / 12 : ℕ), S.month n % 12 + 1, clampedDay S.anchor.d (S.month n / 12) (S.month n % 12 + 1))

structure Schedule.Eligible (today : StartDay) (n : ℕ) : Prop where
  has : S.Has n
  starts : number S.effectiveFrom ≤ S.dueNumber n
  ends : ∀ last ∈ S.effectiveUntil, S.dueNumber n ≤ number last
  lead : S.dueNumber n - S.leadDays ≤ number today

def Schedule.Outstanding (today : StartDay) (existing : List Text) (n : ℕ) : Prop :=
  S.Eligible today n ∧ S.text n ∉ existing

def Schedule.Past (today : StartDay) (n : ℕ) : Prop :=
  number today < S.dueNumber n - S.leadDays ∨ ∃ last ∈ S.effectiveUntil, number last < S.dueNumber n

structure Schedule.FourDigits (today : StartDay) : Prop where
  lead : ∃ first : StartDay, number first = number S.anchor - S.leadDays
  last : S.cadence = .oneTime ∨ ∃ n, S.month n < 120000 ∧ S.Past today n

variable {S}

lemma Schedule.month_ge (n : ℕ) : 12000 ≤ S.month n := by
  have := S.anchor.y_ge
  simp only [Schedule.month, monthNumber]
  omega

lemma Schedule.month_lt {m n : ℕ} (hn : S.Has n) (h : m < n) : S.month m < S.month n := by
  obtain ⟨months, hmonths⟩ : ∃ months, cadenceMonths S.cadence = some months := by
    cases hc : S.cadence with
    | oneTime => exact absurd (hn hc) (by omega)
    | _ => exact ⟨_, rfl⟩
  have hlt := Nat.mul_lt_mul_of_pos_left h (cadenceMonths_pos hmonths)
  simp only [Schedule.month, monthNumber, hmonths, Option.getD_some]
  omega

lemma Schedule.month_le {m n : ℕ} (h : m ≤ n) : S.month m ≤ S.month n := by
  have hle := Nat.mul_le_mul_left ((cadenceMonths S.cadence).getD 0) h
  simp only [Schedule.month, monthNumber]
  omega

lemma Schedule.dueValid (n : ℕ) : Valid ((S.month n / 12 : ℕ), S.month n % 12 + 1,
    clampedDay S.anchor.d (S.month n / 12) (S.month n % 12 + 1)) := by
  have hge := S.month_ge n
  refine ⟨by simp, ?_, le_min S.anchor.d_pos (one_le_monthLength _ _), ?_⟩
  · simp only
    omega
  · simp only
    rw [← daysInMonth_eq (by omega)]
    exact min_le_right _ _

lemma Schedule.dueNumber_lt {m n : ℕ} (hn : S.Has n) (h : m < n) : S.dueNumber m < S.dueNumber n := by
  have := Schedule.month_lt hn h
  apply dayNumber_lt (S.dueValid m) (S.dueValid n)
  simp only
  omega

lemma nthDueDate_has {n : ℕ} (hn : S.Has n) : nthDueDate S.anchor.iso S.cadence n = some (S.text n) := by
  cases hc : S.cadence with
  | oneTime =>
    obtain rfl := hn hc
    have hzero : S.text 0 = S.anchor.iso := by
      rw [← startOf_zero S.anchor 0, startOf_eq]
      rfl
    rw [hzero]
    rfl
  | _ => rw [nthDueDate_eq S.anchor rfl, Schedule.text, Schedule.month, hc]; rfl

lemma nthDueDate_not_has {n : ℕ} (hn : ¬ S.Has n) : nthDueDate S.anchor.iso S.cadence n = none := by
  obtain ⟨hc, hzero⟩ : S.cadence = .oneTime ∧ n ≠ 0 := by simpa [Schedule.Has] using hn
  rw [hc, nthDueDate, cadenceMonths, if_neg hzero]

lemma exists_day {n : ℕ} (h : S.month n < 120000) :
    ∃ day : StartDay, day.iso = S.text n ∧ number day = S.dueNumber n :=
  ⟨inMonth S.anchor.toDay (S.month_ge n) h, inMonth_iso _ _ _, rfl⟩

lemma dueNumber_zero : S.dueNumber 0 = number S.anchor := by
  have hm := S.anchor.m_pos
  have hm' := S.anchor.m_le
  have hy : S.month 0 / 12 = S.anchor.y := by
    simp only [Schedule.month, monthNumber]
    omega
  have hmonth : S.month 0 % 12 + 1 = S.anchor.m := by
    simp only [Schedule.month, monthNumber]
    omega
  rw [Schedule.dueNumber, hy, hmonth, clampedDay, min_eq_left S.anchor.d_le, number]

lemma dueNumber_ge {n : ℕ} (hn : S.Has n) : number S.anchor ≤ S.dueNumber n := by
  rw [← dueNumber_zero]
  rcases Nat.eq_zero_or_pos n with rfl | hpos
  · exact le_rfl
  · exact (Schedule.dueNumber_lt hn hpos).le

lemma isInLeadWindow_iff {today : StartDay} (hyears : S.FourDigits today) {n : ℕ} (hn : S.Has n)
    (h : S.month n < 120000) :
    isInLeadWindow (S.text n) S.leadDays today.iso = true ↔ S.dueNumber n - S.leadDays ≤ number today := by
  obtain ⟨day, htext, hnumber⟩ := exists_day h
  obtain ⟨first, hfirst⟩ := hyears.lead
  obtain ⟨t, hvalid, ht, hiso⟩ := addDaysISO_iso day (-S.leadDays)
  have hge := dueNumber_ge hn
  obtain ⟨u, hu⟩ := hvalid.exists_between first day (by omega) (by omega)
  have hnu : number u = S.dueNumber n - S.leadDays := by
    rw [number, hu, ht, hnumber]
    ring
  rw [isInLeadWindow, decide_eq_true_iff, ← htext, addDaysISO_eq day u (by omega), iso_le_iff, hnu]

def stops (input : PlanInput) (n : ℕ) : Bool :=
  match nthDueDate input.anchorDueDate input.cadence n with
  | none => true
  | some due => !isInLeadWindow due input.leadDays input.today || input.effectiveUntil.any fun last => last < due

def hits (input : PlanInput) (n : ℕ) : Bool :=
  (nthDueDate input.anchorDueDate input.cadence n).any fun due =>
    !(due < input.effectiveFrom || input.existingDueDates.contains due)

def plannedAt (input : PlanInput) (n : ℕ) : PlannedOccurrence :=
  planned input ((nthDueDate input.anchorDueDate input.cadence n).getD [])

lemma planLoop_eq (input : PlanInput) (fuel n : ℕ) (ns : List ℕ) :
    planLoop input fuel n (ns.map (plannedAt input)) =
      (collect (stops input) (hits input) (input.cap.getD 12) fuel n ns).map (List.map (plannedAt input)) := by
  induction fuel generalizing n ns with
  | zero => rfl
  | succ fuel ih =>
    have hpush := ih (n + 1) (ns ++ [n])
    have hskip := ih (n + 1) ns
    rw [map_append, map_singleton, plannedAt] at hpush
    rw [planLoop, collect, length_map, stops, hits]
    cases hdue : nthDueDate input.anchorDueDate input.cadence n with
    | none => simp
    | some due =>
      rw [hdue, Option.getD_some] at hpush
      simp only [Option.any_some]
      by_cases hcap : ns.length < input.cap.getD 12
      · rw [if_pos hcap, if_pos hcap]
        by_cases hlead : isInLeadWindow due input.leadDays input.today = true
        · by_cases hlast : input.effectiveUntil.any (fun last => decide (last < due)) = true
          · simp [hlead, hlast]
          · by_cases hskipped : (decide (due < input.effectiveFrom) || input.existingDueDates.contains due) = true
            · rw [if_neg (by simp [hlead]), if_neg hlast, if_pos hskipped, if_neg (by simp [hlead, hlast]),
                if_neg (by rw [hskipped]; decide), hskip]
            · rw [if_neg (by simp [hlead]), if_neg hlast, if_neg hskipped, if_neg (by simp [hlead, hlast]),
                if_pos (by rw [(Bool.not_eq_true _).mp hskipped]; rfl), hpush]
        · simp [hlead]
      · simp [hcap]

variable {today : StartDay} {existing : List Text} {n : ℕ}

lemma nthDueDate_input (hn : S.Has n) :
    nthDueDate (S.input today existing).anchorDueDate (S.input today existing).cadence n = some (S.text n) :=
  nthDueDate_has hn

lemma stops_iff (hyears : S.FourDigits today) (hn : S.Has n) (h : S.month n < 120000) :
    stops (S.input today existing) n = true ↔ S.Past today n := by
  obtain ⟨day, htext, hnumber⟩ := exists_day h
  have hlead := isInLeadWindow_iff hyears hn h
  have hlast : (S.input today existing).effectiveUntil.any (fun last => decide (last < S.text n)) = true ↔
      ∃ last ∈ S.effectiveUntil, number last < S.dueNumber n := by
    simp only [Schedule.input, Option.any_map, Option.any_eq_true, decide_eq_true_eq, ← htext,
      iso_lt_iff, hnumber, Option.mem_def]
  rw [stops, nthDueDate_input hn]
  dsimp only
  rw [Bool.or_eq_true, hlast, Bool.not_eq_true', ← Bool.not_eq_true, Schedule.Past, ← not_le]
  exact or_congr (not_congr hlead) Iff.rfl

lemma hits_iff (hn : S.Has n) (h : S.month n < 120000) :
    hits (S.input today existing) n = true ↔ number S.effectiveFrom ≤ S.dueNumber n ∧ S.text n ∉ existing := by
  obtain ⟨day, htext, hnumber⟩ := exists_day h
  rw [hits, nthDueDate_input hn, Option.any_some, Bool.not_eq_true', Bool.or_eq_false_iff, decide_eq_false_iff_not,
    contains_eq_mem, decide_eq_false_iff_not]
  refine and_congr ?_ Iff.rfl
  rw [← htext, ← hnumber]
  exact not_lt.trans (iso_le_iff _ _)

lemma Schedule.Past.not_eligible {m : ℕ} (h : S.Past today n) (hm : n ≤ m) : ¬ S.Eligible today m := by
  intro he
  have hle : S.dueNumber n ≤ S.dueNumber m := by
    rcases hm.eq_or_lt with rfl | hlt
    · exact le_rfl
    · exact (Schedule.dueNumber_lt he.has hlt).le
  rcases h with hlead | ⟨last, hlast, hlt⟩
  · have := he.lead
    omega
  · have := he.ends last hlast
    omega

lemma eligible_iff (hn : S.Has n) : S.Eligible today n ↔ ¬ S.Past today n ∧ number S.effectiveFrom ≤ S.dueNumber n := by
  constructor
  · exact fun h => ⟨fun hpast => hpast.not_eligible le_rfl h, h.starts⟩
  · rintro ⟨hpast, hstarts⟩
    rw [Schedule.Past, not_or, not_lt, not_exists] at hpast
    exact ⟨hn, hstarts, fun last hlast => not_lt.mp fun hlt => hpast.2 last ⟨hlast, hlt⟩, hpast.1⟩

lemma exists_stop (hyears : S.FourDigits today) (existing : List Text) :
    ∃ N, (∀ n < N, S.Has n ∧ S.month n < 120000) ∧ stops (S.input today existing) N = true ∧
      ∀ m, N ≤ m → ¬ S.Eligible today m := by
  by_cases hc : S.cadence = .oneTime
  · refine ⟨1, ?_, ?_, ?_⟩
    · intro n hn
      obtain rfl : n = 0 := by omega
      refine ⟨fun _ => rfl, ?_⟩
      have := S.anchor.y_lt
      have := S.anchor.m_le
      simp only [Schedule.month, monthNumber]
      omega
    · have hnone : nthDueDate (S.input today existing).anchorDueDate (S.input today existing).cadence 1 = none :=
        nthDueDate_not_has fun h => absurd (h hc) (by decide)
      rw [stops, hnone]
    · intro m hm he
      have := he.has hc
      omega
  · obtain ⟨N, hN, hpast⟩ := hyears.last.resolve_left hc
    have hhas : ∀ n, S.Has n := fun n h => absurd h hc
    refine ⟨N, fun n hn => ⟨hhas n, (Schedule.month_le hn.le).trans_lt hN⟩, ?_, ?_⟩
    · exact (stops_iff hyears (hhas N) hN).mpr hpast
    · exact fun m hm => hpast.not_eligible hm

def Schedule.Plan (S : Schedule) (today : StartDay) (existing : List Text) (plan : List PlannedOccurrence) : Prop :=
  ∃ ns, First (S.cap.getD 12) (S.Outstanding today existing) ns ∧
    plan = ns.map fun n => planned (S.input today existing) (S.text n)

lemma returns_plan (hyears : S.FourDigits today) (existing : List Text) :
    ∃ plan, Returns (S.input today existing) plan ∧ S.Plan today existing plan := by
  obtain ⟨N, hbelow, hN, hafter⟩ := exists_stop hyears existing
  have hhit : ∀ n < N, stops (S.input today existing) n = false →
      (hits (S.input today existing) n = true ↔ S.Outstanding today existing n) := by
    intro n hn hstop
    obtain ⟨hhas, hmonth⟩ := hbelow n hn
    have hpast : ¬ S.Past today n := by rw [← stops_iff hyears hhas hmonth, hstop]; decide
    rw [hits_iff hhas hmonth, Schedule.Outstanding, eligible_iff hhas]
    tauto
  have hstop : ∀ n ≤ N, stops (S.input today existing) n = true → ∀ m, n ≤ m → ¬ S.Outstanding today existing m := by
    intro n hn hstop m hm hout
    rcases hn.eq_or_lt with rfl | hlt
    · exact hafter m hm hout.1
    · obtain ⟨hhas, hmonth⟩ := hbelow n hlt
      exact ((stops_iff hyears hhas hmonth).mp hstop).not_eligible hm hout.1
  obtain ⟨ns, hfirst, hrun⟩ := collect_first (S.cap.getD 12) (N + 1) hhit hstop hN (by omega)
    (Nat.zero_le N) ⟨List.Pairwise.nil, by simp, Nat.zero_le _⟩
  refine ⟨ns.map (plannedAt (S.input today existing)), ⟨N + 1, fun more => ?_⟩, ns, hfirst, ?_⟩
  · have hloop := planLoop_eq (S.input today existing) (N + 1 + more) 0 []
    rw [planOccurrences]
    exact hloop.trans (congrArg (Option.map _) (hrun more))
  · apply map_congr_left
    intro n hn
    rw [plannedAt, nthDueDate_input (hfirst.sound n hn).1.has, Option.getD_some]

lemma Returns.unique {input : PlanInput} {plan plan' : List PlannedOccurrence} (h : Returns input plan)
    (h' : Returns input plan') : plan = plan' := by
  obtain ⟨fuel, hfuel⟩ := h
  obtain ⟨fuel', hfuel'⟩ := h'
  have heq := hfuel fuel'
  rw [Nat.add_comm, hfuel' fuel] at heq
  exact (Option.some.inj heq).symm

lemma Returns.plan {plan : List PlannedOccurrence} (hyears : S.FourDigits today)
    (h : Returns (S.input today existing) plan) : S.Plan today existing plan := by
  obtain ⟨plan', hret, hplan⟩ := returns_plan hyears existing
  rwa [h.unique hret]

lemma Schedule.Eligible.month_lt (hyears : S.FourDigits today) (h : S.Eligible today n) : S.month n < 120000 := by
  obtain ⟨N, hbelow, _, hafter⟩ := exists_stop hyears []
  exact (hbelow n (not_le.mp fun hle => hafter n hle h)).2

lemma Schedule.Eligible.later {today' : StartDay} (h : S.Eligible today n) (hle : number today ≤ number today') :
    S.Eligible today' n :=
  ⟨h.has, h.starts, h.ends, h.lead.trans hle⟩

lemma text_lt_iff {m : ℕ} (hm : S.Has m) (hn : S.Has n) (hmonth : S.month m < 120000) (hmonth' : S.month n < 120000) :
    S.text m < S.text n ↔ m < n := by
  obtain ⟨day, htext, hnumber⟩ := exists_day hmonth
  obtain ⟨day', htext', hnumber'⟩ := exists_day hmonth'
  rw [← htext, ← htext', iso_lt_iff, hnumber, hnumber']
  constructor
  · intro h
    by_contra hle
    rcases (not_lt.mp hle).eq_or_lt with rfl | hlt
    · exact lt_irrefl _ h
    · exact lt_asymm h (Schedule.dueNumber_lt hm hlt)
  · exact Schedule.dueNumber_lt hn

def dueDates (plan : List PlannedOccurrence) : List Text := plan.map (·.dueAt)

lemma Schedule.Plan.texts {plan : List PlannedOccurrence} (h : S.Plan today existing plan) :
    ∃ ns, First (S.cap.getD 12) (S.Outstanding today existing) ns ∧ dueDates plan = ns.map S.text := by
  obtain ⟨ns, hfirst, rfl⟩ := h
  refine ⟨ns, hfirst, ?_⟩
  rw [dueDates, map_map]
  rfl

lemma Schedule.Plan.sorted {plan : List PlannedOccurrence} (hyears : S.FourDigits today)
    (h : S.Plan today existing plan) : (dueDates plan).Pairwise (· < ·) := by
  obtain ⟨ns, hfirst, heq⟩ := h.texts
  rw [heq, pairwise_map]
  refine hfirst.sorted.imp_of_mem ?_
  intro m n hm hn hlt
  have hm := (hfirst.sound m hm).1
  have hn := (hfirst.sound n hn).1
  exact (text_lt_iff hm.has hn.has (hm.month_lt hyears) (hn.month_lt hyears)).mpr hlt

inductive Feeding (S : Schedule) : List Text → List (StartDay × List PlannedOccurrence) → Prop
  | nil (existing : List Text) : Feeding S existing []
  | cons {existing : List Text} {today : StartDay} {plan : List PlannedOccurrence}
      {rest : List (StartDay × List PlannedOccurrence)} (hreturns : Returns (S.input today existing) plan)
      (hrest : Feeding S (existing ++ dueDates plan) rest) : Feeding S existing ((today, plan) :: rest)

def allDueDates (run : List (StartDay × List PlannedOccurrence)) : List Text := run.flatMap fun day => dueDates day.2

variable {run before after : List (StartDay × List PlannedOccurrence)}

lemma Feeding.split (h : Feeding S existing (before ++ after)) :
    Feeding S existing before ∧ Feeding S (existing ++ allDueDates before) after := by
  induction before generalizing existing with
  | nil => exact ⟨Feeding.nil _, by simpa [allDueDates] using h⟩
  | cons day before ih =>
    rw [cons_append] at h
    cases h with
    | cons hreturns hrest =>
      obtain ⟨hbefore, hafter⟩ := ih hrest
      refine ⟨Feeding.cons hreturns hbefore, ?_⟩
      simpa [allDueDates] using hafter

lemma exists_feeding (days : List StartDay) (hyears : ∀ today ∈ days, S.FourDigits today) (existing : List Text) :
    ∃ run, Feeding S existing run ∧ run.map Prod.fst = days := by
  induction days generalizing existing with
  | nil => exact ⟨[], Feeding.nil _, rfl⟩
  | cons today days ih =>
    obtain ⟨plan, hreturns, _⟩ := returns_plan (hyears today mem_cons_self) existing
    obtain ⟨run, hrun, hdays⟩ := ih (fun day hday => hyears day (mem_cons_of_mem _ hday)) (existing ++ dueDates plan)
    exact ⟨(today, plan) :: run, Feeding.cons hreturns hrun, by rw [map_cons, hdays]⟩

lemma Feeding.nodup (h : Feeding S existing run) (hyears : ∀ day ∈ run, S.FourDigits day.1) :
    (allDueDates run).Nodup ∧ ∀ due ∈ allDueDates run, due ∉ existing := by
  induction h with
  | nil existing => exact ⟨nodup_nil, fun due hdue => absurd hdue not_mem_nil⟩
  | @cons existing today plan rest hreturns hrest ih =>
    have htoday := hyears _ mem_cons_self
    obtain ⟨hnodup, hnew⟩ := ih fun day hday => hyears day (mem_cons_of_mem _ hday)
    have hplan := hreturns.plan htoday
    obtain ⟨ns, hfirst, htexts⟩ := hplan.texts
    have hfresh : ∀ due ∈ dueDates plan, due ∉ existing := by
      rw [htexts]
      rintro due hdue
      obtain ⟨n, hn, rfl⟩ := List.mem_map.mp hdue
      exact (hfirst.sound n hn).2
    have hall : allDueDates ((today, plan) :: rest) = dueDates plan ++ allDueDates rest := rfl
    rw [hall]
    constructor
    · refine List.nodup_append.mpr ⟨(hplan.sorted htoday).imp fun hlt => hlt.ne, hnodup, ?_⟩
      rintro due hdue due' hdue' rfl
      exact hnew due hdue' (mem_append_right _ hdue)
    · intro due hdue hold
      rcases List.mem_append.mp hdue with hplan | hrest
      · exact hfresh due hplan hold
      · exact hnew due hrest (mem_append_left _ hold)

lemma Feeding.drains (h : Feeding S existing run) (hyears : ∀ day ∈ run, S.FourDigits day.1)
    (hn : ∀ day ∈ run, S.Eligible day.1 n) :
    S.text n ∈ existing ++ allDueDates run ∨
      ∀ day ∈ run, day.2.length = S.cap.getD 12 ∧ ∀ due ∈ dueDates day.2, ∃ m < n, due = S.text m := by
  induction h with
  | nil existing => exact Or.inr fun day hday => absurd hday not_mem_nil
  | @cons existing today plan rest hreturns hrest ih =>
    have htoday := hyears _ mem_cons_self
    obtain ⟨ns, hfirst, htexts⟩ := (hreturns.plan htoday).texts
    have hlength : plan.length = ns.length := by
      have := congrArg List.length htexts
      simpa [dueDates] using this
    have hall : allDueDates ((today, plan) :: rest) = dueDates plan ++ allDueDates rest := rfl
    rw [hall, ← append_assoc]
    rcases ih (fun day hday => hyears day (mem_cons_of_mem _ hday))
      (fun day hday => hn day (mem_cons_of_mem _ hday)) with hplanned | hfull
    · exact Or.inl hplanned
    · by_cases hold : S.text n ∈ existing
      · exact Or.inl (mem_append_left _ (mem_append_left _ hold))
      rcases hfirst.complete n ⟨hn _ mem_cons_self, hold⟩ with hmem | ⟨hcap, hlt⟩
      · refine Or.inl (mem_append_left _ (mem_append_right _ ?_))
        rw [htexts]
        exact mem_map_of_mem hmem
      · refine Or.inr (List.forall_mem_cons.mpr ⟨⟨hlength.trans hcap, ?_⟩, hfull⟩)
        intro due hdue
        rw [htexts] at hdue
        obtain ⟨m, hm, rfl⟩ := List.mem_map.mp hdue
        exact ⟨m, hlt m hm, rfl⟩

lemma length_allDueDates {cap : ℕ} (h : ∀ day ∈ run, day.2.length = cap) :
    (allDueDates run).length = run.length * cap := by
  induction run with
  | nil => simp [allDueDates]
  | cons day rest ih =>
    have hrest := ih fun day hday => h day (mem_cons_of_mem _ hday)
    have hall : allDueDates (day :: rest) = dueDates day.2 ++ allDueDates rest := rfl
    rw [hall, length_append, hrest, dueDates, length_map, h day mem_cons_self, length_cons]
    ring

lemma Feeding.drains_bound (h : Feeding S existing run) (hyears : ∀ day ∈ run, S.FourDigits day.1)
    (hfull : ∀ day ∈ run, day.2.length = S.cap.getD 12 ∧ ∀ due ∈ dueDates day.2, ∃ m < n, due = S.text m) :
    run.length * S.cap.getD 12 ≤ n := by
  have hsub : allDueDates run ⊆ (List.range n).map S.text := by
    intro due hdue
    obtain ⟨day, hday, hdue⟩ := List.mem_flatMap.mp hdue
    obtain ⟨m, hm, rfl⟩ := (hfull day hday).2 due hdue
    exact mem_map_of_mem (List.mem_range.mpr hm)
  have hle := (subperm_of_subset (h.nodup hyears).1 hsub).length_le
  rwa [length_allDueDates fun day hday => (hfull day hday).1, length_map, length_range] at hle

/-- What a run of days has materialised: nothing twice, and a due date that is eligible on the first
day of some stretch is planned by its end unless every day of the stretch was filled with older ones. -/
structure Materialises (S : Schedule) (existing : List Text) (run : List (StartDay × List PlannedOccurrence)) : Prop where
  nodup : (allDueDates run).Nodup
  fresh : ∀ due ∈ allDueDates run, due ∉ existing
  drained : ∀ before stretch after n, run = before ++ (stretch ++ after) →
    (∀ day ∈ stretch.head?, S.Eligible day.1 n) →
    S.text n ∈ existing ++ allDueDates (before ++ stretch) ∨
      stretch.length * S.cap.getD 12 ≤ n ∧
      ∀ day ∈ stretch, day.2.length = S.cap.getD 12 ∧ ∀ due ∈ dueDates day.2, ∃ m < n, due = S.text m

lemma eligible_stretch (hdays : (run.map Prod.fst).Pairwise fun a b => number a ≤ number b)
    (hn : ∀ day ∈ run.head?, S.Eligible day.1 n) : ∀ day ∈ run, S.Eligible day.1 n := by
  cases run with
  | nil => exact fun day hday => absurd hday not_mem_nil
  | cons first rest =>
    have hfirst := hn first rfl
    rw [map_cons, pairwise_cons] at hdays
    refine List.forall_mem_cons.mpr ⟨hfirst, fun day hday => ?_⟩
    exact hfirst.later (hdays.1 day.1 (mem_map_of_mem hday))

lemma Feeding.materialises (h : Feeding S existing run) (hyears : ∀ day ∈ run, S.FourDigits day.1)
    (hdays : (run.map Prod.fst).Pairwise fun a b => number a ≤ number b) : Materialises S existing run where
  nodup := (h.nodup hyears).1
  fresh := (h.nodup hyears).2
  drained before stretch after n hrun hfirst := by
    subst hrun
    obtain ⟨hbefore, hrest⟩ := h.split
    obtain ⟨hstretch, _⟩ := hrest.split
    rw [map_append, map_append] at hdays
    have hsorted := (List.pairwise_append.mp (List.pairwise_append.mp hdays).2.1).1
    have hyears' : ∀ day ∈ stretch, S.FourDigits day.1 := fun day hday =>
      hyears day (mem_append_right _ (mem_append_left _ hday))
    rcases hstretch.drains hyears' (eligible_stretch hsorted hfirst) with hplanned | hfull
    · refine Or.inl ?_
      rwa [append_assoc, ← show allDueDates (before ++ stretch) = allDueDates before ++ allDueDates stretch from
        flatMap_append] at hplanned
    · exact Or.inr ⟨hstretch.drains_bound hyears' hfull, hfull⟩

theorem planOccurrences_materialises (S : Schedule) :
    (∀ today existing, S.FourDigits today → ∃ plan, Returns (S.input today existing) plan ∧
      S.Plan today existing plan ∧ (dueDates plan).Pairwise (· < ·)) ∧
    ∀ days existing, (∀ today ∈ days, S.FourDigits today) → days.Pairwise (fun a b => number a ≤ number b) →
      ∃ run, Feeding S existing run ∧ run.map Prod.fst = days ∧ Materialises S existing run := by
  constructor
  · intro today existing hyears
    obtain ⟨plan, hreturns, hplan⟩ := returns_plan hyears existing
    exact ⟨plan, hreturns, hplan, hplan.sorted hyears⟩
  · intro days existing hyears hdays
    obtain ⟨run, hrun, rfl⟩ := exists_feeding days hyears existing
    exact ⟨run, hrun, rfl, hrun.materialises (fun day hday => hyears _ (mem_map_of_mem hday)) hdays⟩

def monthlyFromOctober : Schedule where
  anchor := startDay 2026 10 31 (by decide)
  cadence := .monthly
  effectiveFrom := startDay 2026 10 1 (by decide)
  effectiveUntil := none
  leadDays := 7
  graceDays := 14
  cap := none

theorem october_materialises :
    (∃ plan, Returns (monthlyFromOctober.input (startDay 2026 10 25 (by decide)) []) plan ∧
      monthlyFromOctober.Plan (startDay 2026 10 25 (by decide)) [] plan ∧ (dueDates plan).Pairwise (· < ·)) ∧
    ∃ run, Feeding monthlyFromOctober [] run ∧
      run.map Prod.fst = [startDay 2026 10 25 (by decide), startDay 2026 11 25 (by decide)] ∧
      Materialises monthlyFromOctober [] run := by
  have hlead : ∃ first : StartDay, number first = number monthlyFromOctober.anchor - monthlyFromOctober.leadDays :=
    ⟨startDay 2026 10 24 (by decide), by decide +kernel⟩
  have hoctober : monthlyFromOctober.FourDigits (startDay 2026 10 25 (by decide)) :=
    ⟨hlead, Or.inr ⟨1, by decide, Or.inl (by decide +kernel)⟩⟩
  have hnovember : monthlyFromOctober.FourDigits (startDay 2026 11 25 (by decide)) :=
    ⟨hlead, Or.inr ⟨2, by decide, Or.inl (by decide +kernel)⟩⟩
  obtain ⟨hplan, hrun⟩ := planOccurrences_materialises monthlyFromOctober
  refine ⟨hplan _ _ hoctober, hrun _ _ ?_ ?_⟩
  · exact List.forall_mem_cons.mpr ⟨hoctober, List.forall_mem_cons.mpr ⟨hnovember, forall_mem_nil _⟩⟩
  · exact List.pairwise_pair.mpr (by decide +kernel)

end Breeze.Deliverables.PlanOccurrences
