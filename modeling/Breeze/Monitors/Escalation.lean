import Breeze.Monitors.Calls

/-! The recurrence latch over whole runs: the current episode is the pair's only open one, an evaluation latches exactly when it
should, and a latch whose alert was never raised is reported by every breach that follows. -/

namespace Breeze.Monitors

open Lib Lib.Transactions

def raisedFor (k : ℕ) (log : List Event) : Bool :=
  log.any fun
    | .raised latch => latch = some k
    | _ => false

def reported : List Event → Bool
  | [] => true
  | .evaluated e :: past =>
    (e.observation ≠ .breach || (inForce past).all (raisedFor · past) || e.result.needsEscalationAlert) && reported past
  | _ :: past => reported past

def timely : List Event → Bool
  | [] => true
  | .stamped latch :: past => latch.isSome && inForce past = latch && timely past
  | _ :: past => timely past

structure Latched (row : DeviceState) (log : List Event) : Prop where
  escalated : ∀ k, inForce log = some k → row.escalatedAt.isSome = true ∧ (raisedFor k log = false → row.escalationAlertId = none)
  free : inForce log = none → row.escalatedAt = none ∧ row.escalationAlertId = none

structure Inv (monitor : Monitor) (db : Database) : Prop where
  sane : db.Sane
  latches : ∀ e, .evaluated e ∈ db.log → (e.result.latched = true ↔ e.Opens ∧ e.state.escalatedAt = none ∧ Recurs monitor e)
  latched : timely db.log = true → Latched (db.state.getD {}) db.log
  reported : timely db.log = true → reported db.log = true

variable {monitor : Monitor} {n : ℕ} {held : List Row} {db db' : Database}

lemma Latched.needs {row : DeviceState} {log : List Event} (h : Latched row log) {k : ℕ} (hk : inForce log = some k)
    (hraised : raisedFor k log = false) : row.needsEscalationAlert = true := by
  obtain ⟨hescalated, halert⟩ := h.escalated k hk
  rw [DeviceState.needsEscalationAlert, hescalated, halert hraised]
  rfl

section

variable (h : Inv monitor db)

include h

lemma Inv.raised (latch : Option ℕ) : Inv monitor (db.record (.raised latch)) where
  sane := h.sane
  latches := by
    intro e he
    rcases List.mem_cons.mp he with he | he
    · cases he
    · exact h.latches e he
  latched := by
    intro htimely
    refine ⟨fun k hk => ?_, (h.latched htimely).free⟩
    obtain ⟨hescalated, halert⟩ := (h.latched htimely).escalated k hk
    refine ⟨hescalated, fun hraised => halert ?_⟩
    rw [Database.record, raisedFor, List.any_cons, Bool.or_eq_false_iff] at hraised
    exact hraised.2
  reported := h.reported

lemma Inv.evaluated {e : Evaluation} {row : DeviceState} (he : Evaluates monitor n held db e row) :
    Inv monitor { state := some row, episodes := e.episodes, log := .evaluated e :: db.log } where
  sane := he.sane h.sane
  latches := by
    intro e' he'
    rcases List.mem_cons.mp he' with he' | he'
    · cases he'
      exact he.latches
    · exact h.latches e' he'
  latched := by
    intro htimely
    have hlatched : Latched e.state db.log := he.found ▸ h.latched htimely
    rw [Option.getD_some]
    cases hl : e.result.latched with
    | true =>
      -- no latch was in force, so the row carries no alert
      obtain ⟨-, hnot, -⟩ := he.latches.mp hl
      have hfree : inForce db.log = none := by
        cases hk : inForce db.log with
        | none => rfl
        | some k =>
          have hsome := (hlatched.escalated k hk).1
          rw [hnot] at hsome
          cases hsome
      refine ⟨fun k _ => ⟨?_, fun _ => ?_⟩, fun hnone => ?_⟩
      · rw [he.escalated, hl, Bool.or_true]
      · rw [he.alert]
        exact (hlatched.free hfree).2
      · rw [inForce, if_pos hl] at hnone
        cases hnone
    | false =>
      have hsame : inForce (.evaluated e :: db.log) = inForce db.log := by
        rw [inForce, hl]
        exact if_neg Bool.false_ne_true
      have hescalated : row.escalatedAt.isSome = e.state.escalatedAt.isSome := by rw [he.escalated, hl, Bool.or_false]
      refine ⟨fun k hk => ?_, fun hnone => ?_⟩
      · rw [hsame] at hk
        rw [hescalated, he.alert]
        exact hlatched.escalated k hk
      · rw [hsame] at hnone
        obtain ⟨hnot, halert⟩ := hlatched.free hnone
        rw [he.alert]
        refine ⟨?_, halert⟩
        rwa [← Option.not_isSome_iff_eq_none, hescalated, Option.not_isSome_iff_eq_none]
  reported := by
    intro htimely
    have hlatched : Latched e.state db.log := he.found ▸ h.latched htimely
    rw [Monitors.reported, h.reported htimely, Bool.and_true]
    by_cases hbreach : e.observation = .breach
    · cases hk : inForce db.log with
      | none => simp
      | some k =>
        cases hraised : raisedFor k db.log with
        | true => simp [hraised]
        | false => rw [he.reports hbreach, hlatched.needs hk hraised, Bool.or_true]
    · simp [hbreach]

lemma Inv.stamped {latch : Option ℕ} (alert : AlertId) (hraised : .raised latch ∈ db.log) :
    Inv monitor ((db.setState fun row => { row with escalationAlertId := some alert }).record (.stamped latch)) where
  sane := Sane.setState h.sane fun _ _ hid => hid
  latches := by
    intro e he
    rcases List.mem_cons.mp he with he | he
    · cases he
    · exact h.latches e he
  latched := by
    intro htimely
    simp only [Database.record, Database.setState, timely, Bool.and_eq_true, decide_eq_true_eq] at htimely
    obtain ⟨⟨hsome, hforce⟩, htimely⟩ := htimely
    obtain ⟨k, rfl⟩ := Option.isSome_iff_exists.mp hsome
    obtain ⟨hescalated, -⟩ := (h.latched htimely).escalated k hforce
    refine ⟨fun k' hk' => ?_, fun hnone => ?_⟩
    · obtain rfl : k = k' := Option.some.inj (hforce.symm.trans hk')
      refine ⟨?_, fun hnot => ?_⟩
      · change ((db.state.map fun row : DeviceState => { row with escalationAlertId := some alert }).getD {}).escalatedAt.isSome = true
        cases hs : db.state with
        | none =>
          rw [hs] at hescalated
          cases hescalated
        | some row =>
          rw [hs] at hescalated
          exact hescalated
      · have hyes : raisedFor k (.stamped (some k) :: db.log) = true :=
          List.any_eq_true.mpr ⟨_, List.mem_cons_of_mem _ hraised, by simp⟩
        exact absurd (hyes.symm.trans hnot) (Bool.noConfusion)
    · exact absurd (hforce.symm.trans hnone) (Option.some_ne_none k)
  reported := by
    intro htimely
    simp only [Database.record, Database.setState, timely, Bool.and_eq_true, decide_eq_true_eq] at htimely
    exact h.reported htimely.2

lemma Inv.reset {set : DeviceState → DeviceState}
    (hset : ∀ row, set row = { set row with
      currentEpisodeId := row.currentEpisodeId, escalatedAt := none, escalationAlertId := none }) :
    Inv monitor ((db.setState set).record .reset) where
  sane := by
    refine Sane.setState h.sane fun row id hid => ?_
    rwa [hset] at hid
  latches := by
    intro e he
    rcases List.mem_cons.mp he with he | he
    · cases he
    · exact h.latches e he
  latched := by
    intro _
    refine ⟨fun k hk => (by cases hk), fun _ => ?_⟩
    change ((db.state.map set).getD {}).escalatedAt = none ∧ ((db.state.map set).getD {}).escalationAlertId = none
    cases db.state with
    | none => exact ⟨rfl, rfl⟩
    | some row =>
      rw [Option.map_some, Option.getD_some, hset]
      exact ⟨rfl, rfl⟩
  reported := h.reported

lemma Inv.detached (now : Time) (ids : List EpisodeId) :
    Inv monitor { db with
      state := db.state.map fun row => { row with currentEpisodeId := none }
      episodes := endEach now .monitorDetached ids db.episodes } where
  sane := Sane.endEach h.sane
  latches := h.latches
  latched := by
    intro htimely
    have hlatched := h.latched htimely
    cases hs : db.state with
    | none =>
      rw [hs] at hlatched
      exact hlatched
    | some row =>
      rw [hs] at hlatched
      exact ⟨hlatched.escalated, hlatched.free⟩
  reported := h.reported

end

lemma Change.inv (hchange : Change monitor n held db db') (h : Inv monitor db) : Inv monitor db' := by
  cases hchange with
  | same => exact h
  | raised latch => exact h.raised latch
  | evaluated e row hstate he => exact h.evaluated he
  | stamped latch alert hstate hraised => exact h.stamped alert hraised
  | reset set hstate hset => exact h.reset hset
  | detached now ids hstate hids => exact h.detached now ids

structure Starts (db : Database) : Prop where
  sane : db.Sane
  escalatedAt : (db.state.getD {}).escalatedAt = none
  escalationAlertId : (db.state.getD {}).escalationAlertId = none
  episodes : ∀ n, db.episodes.lookup (.inserted n) = none
  log : db.log = []

lemma Starts.inv (h : Starts db) : Inv monitor db where
  sane := h.sane
  latches := by
    intro e he
    rw [h.log] at he
    cases he
  latched := by
    intro _
    rw [h.log]
    exact ⟨fun k hk => (by cases hk), fun _ => ⟨h.escalatedAt, h.escalationAlertId⟩⟩
  reported := by
    intro _
    rw [h.log]
    rfl

lemma cutoff_eq (now : Time) (windowHours : ℤ) (resetAt : Option Time) :
    cutoff now windowHours resetAt = resetAt.elim (now - windowHours * 60 * 60 * 1000) (max (now - windowHours * 60 * 60 * 1000)) := by
  cases resetAt with
  | none => rfl
  | some at_ =>
    rw [cutoff]
    dsimp only [Option.elim]
    split_ifs with h
    · exact (max_eq_right (le_of_lt h)).symm
    · exact (max_eq_left (not_lt.mp h)).symm

theorem escalation_is_reported (threshold windowHours : ℤ) (pause : Bool) (hwindow : windowHours ≠ 0) (db : Database)
    (hdb : Starts db) (moves : List (Move Call Empty)) :
    let db' := (Config.run (system ⟨some threshold, some windowHours, pause⟩) { state := db } moves).state
    (∀ row id, db'.state = some row → row.currentEpisodeId = some id → ∀ id', Open db'.episodes id' ↔ id' = id) ∧
      (∀ e, .evaluated e ∈ db'.log → (e.result.latched = true ↔
        e.Opens ∧ e.state.escalatedAt = none ∧
          threshold ≤ (startedSince e.episodes (e.state.resetAt.elim (e.now - windowHours * 60 * 60 * 1000)
            (max (e.now - windowHours * 60 * 60 * 1000)))).length)) ∧
      (timely db'.log = true → reported db'.log = true) := by
  intro db'
  have hinv : Inv ⟨some threshold, some windowHours, pause⟩ db' :=
    invariant_run (fun _ _ _ _ => Change.inv) (fun _ h => h.sane) hdb.inv hdb.episodes moves
  refine ⟨fun row id hrow hid id' => ⟨fun hopen => ?_, ?_⟩, fun e he => ?_, hinv.reported⟩
  · exact hinv.sane.unique id' id hopen (hinv.sane.current row id hrow hid)
  · rintro rfl
    exact hinv.sane.current row id' hrow hid
  · rw [hinv.latches e he, ← cutoff_eq]
    simp [Recurs, hwindow]

lemma starts_empty : Starts {} where
  sane := ⟨fun _ _ h => (by obtain ⟨e, he, -⟩ := h; cases he), fun _ _ h => (by cases h), fun _ h => by obtain ⟨e, he, -⟩ := h; cases he⟩
  escalatedAt := rfl
  escalationAlertId := rfl
  episodes := fun _ => rfl
  log := rfl

def statements (call : ℕ) (count : ℕ) : List (Move Call Empty) := List.replicate count (.advance call)

def raisedLater : List (Move Call Empty) :=
  [.start (.sweep ⟨.breach, 0, false, true⟩)] ++ statements 0 16 ++ [.start (.sweep ⟨.breach, 10, true, true⟩)] ++ statements 1 24

theorem raised_later_is_reported :
    timely (Config.run (system ⟨some 1, some 24, true⟩) { state := {} } raisedLater).state.log = true ∧
      reported (Config.run (system ⟨some 1, some 24, true⟩) { state := {} } raisedLater).state.log = true := by
  have htimely : timely (Config.run (system ⟨some 1, some 24, true⟩) { state := {} } raisedLater).state.log = true := by
    decide +kernel
  exact ⟨htimely, (escalation_is_reported 1 24 true (by decide) {} starts_empty raisedLater).2.2 htimely⟩

def stampedLate : List (Move Call Empty) :=
  [.start (.sweep ⟨.breach, 0, true, true⟩)] ++ statements 0 16 ++ [.start (.reset 10 true)] ++ statements 1 7 ++
    [.start (.sweep ⟨.ok, 20, true, true⟩)] ++ statements 2 16 ++ [.start (.sweep ⟨.breach, 30, false, true⟩)] ++ statements 3 16 ++
    statements 0 6 ++ [.start (.sweep ⟨.breach, 40, true, true⟩)] ++ statements 4 16

theorem late_stamp_hides_latch :
    reported (Config.run (system ⟨some 1, some 24, true⟩) { state := {} } stampedLate).state.log = false := by
  decide +kernel

end Breeze.Monitors
