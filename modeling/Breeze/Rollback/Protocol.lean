import Breeze.Rollback.Engine

/-! What the engine may do next, in terms of the state file and of what has happened so far. Every call keeps to it, wherever
it is cut off. -/

namespace Breeze.Rollback.Protocol

open Breeze.Lib Breeze.Lib.Decimal Breeze.Lib.Effects
open Engine

def file (w : World) : StateFile := w.disk.getD emptyState

def last (w : World) : Option Event := w.log.getLast?.map Prod.fst

def isSwap (i : Text) : Event → Bool
  | .swap d _ => d.rollbackId = i
  | _ => false

def Unswapped (w : World) (i : Text) : Prop := ∀ x ∈ w.log, isSwap i x.1 = false

def isLate (p : Phase) : Bool := p == .staged || p == .swapped || p == .restartRequested

inductive Moves (w : World) (record : Record) : Phase → String → Prop
  | receive (htomb : (file w).tombstones record.id = none) (hactive : (file w).active = none) : Moves w record .received ""
  | download (hactive : (file w).active = some record) (hphase : record.phase = .received) : Moves w record .downloaded ""
  | verify (hactive : (file w).active = some record) (hphase : record.phase = .downloaded) : Moves w record .verified ""
  | stage (hactive : (file w).active = some record) (hphase : record.phase = .verified) : Moves w record .staged ""
  | swap (hactive : (file w).active = some record) (hphase : record.phase = .staged) : Moves w record .swapped ""
  | requestRestart (hactive : (file w).active = some record) (hphase : record.phase = .swapped) :
      Moves w record .restartRequested ""
  | fail {failure : String} (hactive : (file w).active = some record)
      (hphase : failure = "interrupted_before_swap" → isLate record.phase = false) : Moves w record .failed failure
  | recover {failure : String} (hactive : (file w).active = some record)
      (hlast : last w = some (.recover record.directive (.ok ()))) : Moves w record .recovered failure
  | settle (hactive : (file w).active = some record) (hlast : last w = some (.finalize record.directive (.ok ()))) :
      Moves w record .healthy ""
  | failAgain {err : String} (htomb : (file w).tombstones record.id = some record) (hphase : record.phase = .recovered)
      (hactive : (file w).active = none) (hlast : last w = some (.restart record.directive (.error err))) :
      Moves w record .failed "recovery_restart_failed"

def isFinal (w : World) : Prop := ∃ d, last w = some (.finalize d (.ok ()))

-- nothing but the tombstone of a healthy rollback is written right after it has been finalized
inductive Change (w : World) : StateFile → Prop
  | move {record : Record} {phase : Phase} {failure : String} (h : Moves w record phase failure)
      (hfinal : isFinal w → phase = .healthy) (env : Environment) (now : ℤ) :
      Change w ((file w).put (record.moved env phase now failure))
  | acknowledge {i : Text} {pending : List Observation} (h : dropObservation i (file w).pending = some pending)
      (hfinal : ¬ isFinal w) : Change w { file w with pending := pending }

inductive Allowed (w : World) : Event → Prop
  | started (call : Call) : Allowed w (.started call)
  | save {state : StateFile} (h : Change w state) (outcome : SaveOutcome) : Allowed w (.save state outcome)
  | prepare {record : Record} (hactive : (file w).active = some record) (r : Except String Unit) :
      Allowed w (.prepare record.directive r)
  | swap {record : Record} (hactive : (file w).active = some record) (hphase : record.phase = .staged)
      (hswap : Unswapped w record.id) (r : Except String Unit) : Allowed w (.swap record.directive r)
  | restart {record : Record} (hactive : (file w).active = some record) (r : Except String Unit) :
      Allowed w (.restart record.directive r)
  | healthy {record : Record} (hactive : (file w).active = some record) (r : Except String Bool) :
      Allowed w (.healthy record.directive r)
  | finalize {record : Record} (hactive : (file w).active = some record)
      (hlast : last w = some (.healthy record.directive (.ok true))) (r : Except String Unit) :
      Allowed w (.finalize record.directive r)
  | recover {record : Record} (hactive : (file w).active = some record) (r : Except String Unit) :
      Allowed w (.recover record.directive r)
  | restartAgain {record : Record} (htomb : (file w).tombstones record.id = some record) (hphase : record.phase = .recovered)
      (hactive : (file w).active = none) (r : Except String Unit) : Allowed w (.restart record.directive r)

inductive Reachable : World → Prop
  | init : Reachable {}
  | step {w : World} {e : Event} (h : Reachable w) (he : Allowed w e) : Reachable (w.record e)

section File

@[simp] lemma last_record (w : World) (e : Event) : last (w.record e) = some e := by
  simp [last, World.record]

variable {e : Event} {w : World}

lemma not_final_record (he : ∀ d, e ≠ .finalize d (.ok ())) (w : World) : ¬ isFinal (w.record e) := by
  rintro ⟨d, h⟩
  rw [last_record] at h
  exact he d (Option.some.inj h)

lemma file_record (he : ∀ state outcome, e ≠ .save state outcome) (w : World) : file (w.record e) = file w := by
  cases e with
  | save state outcome => exact absurd rfl (he state outcome)
  | _ => rfl

lemma file_save (w : World) (state : StateFile) (outcome : SaveOutcome) :
    file (w.record (.save state outcome)) = if outcome.takesEffect then state else file w := by
  simp only [file, World.record, World.after]
  split_ifs <;> rfl

lemma file_cases (h : Allowed w e) :
    file (w.record e) = file w ∨ ∃ state outcome, e = .save state outcome ∧ Change w state ∧ file (w.record e) = state := by
  cases h with
  | save hchange outcome =>
    rw [file_save]
    cases outcome.takesEffect with
    | true => exact Or.inr ⟨_, outcome, rfl, hchange, rfl⟩
    | false => exact Or.inl rfl
  | _ => exact Or.inl (file_record (fun _ _ h => by cases h) w)

lemma unswapped_record {i : Text} : Unswapped (w.record e) i ↔ Unswapped w i ∧ isSwap i e = false := by
  simp only [Unswapped, World.record, List.forall_mem_append, List.forall_mem_singleton]

@[simp] lemma moved_id (record : Record) (env : Environment) (phase : Phase) (now : ℤ) (failure : String) :
    (record.moved env phase now failure).id = record.id := rfl

lemma put_terminal (record : Record) (h : record.phase.isTerminal = true) (state : StateFile) :
    (state.put record).active = none ∧ (state.put record).tombstones = Function.update state.tombstones record.id (some record) := by
  simp [StateFile.put, h]

lemma put_running (record : Record) (h : record.phase.isTerminal = false) (state : StateFile) :
    (state.put record).active = some record ∧ (state.put record).tombstones = state.tombstones := by
  simp [StateFile.put, h]

end File

section Invariant

variable {w : World} {phase : Phase} {failure : String} {outcome : SaveOutcome}

variable {record : Record}

lemma Moves.of_running (h : Moves w record phase failure) (hphase : phase.isTerminal = false) :
    (file w).active = some record ∨ (file w).active = none ∧ (file w).tombstones record.id = none := by
  cases h with
  | receive htomb hactive => exact Or.inr ⟨hactive, htomb⟩
  | fail | recover | settle | failAgain => cases hphase
  | _ => exact Or.inl ‹_›

structure Invariant (w : World) : Prop where
  schema : (file w).schemaVersion = 1
  legacy : (file w).legacyPending = none
  active : ∀ {record}, (file w).active = some record → record.phase.isTerminal = false ∧ (file w).tombstones record.id = none
  tombstone : ∀ {i record}, (file w).tombstones i = some record → record.id = i ∧ record.phase.isTerminal = true
  swapped : ∀ i, Unswapped w i ∨ (file w).tombstones i ≠ none ∨
    ∃ record, (file w).active = some record ∧ record.id = i ∧ isLate record.phase = true

lemma Invariant.unswapped (h : Invariant w) (hactive : (file w).active = some record)
    (hphase : isLate record.phase = false) : Unswapped w record.id := by
  rcases h.swapped record.id with hu | ht | ⟨other, ho, -, hlate⟩
  · exact hu
  · exact absurd (h.active hactive).2 ht
  · rw [hactive] at ho
    cases ho
    rw [hphase] at hlate
    cases hlate

section

variable (h : Moves w record phase failure)

include h

lemma Moves.source : (file w).active = some record ∨
      (file w).active = none ∧ (phase = .received ∨ phase.isTerminal = true ∧ (file w).tombstones record.id = some record) := by
  cases h with
  | receive htomb hactive => exact Or.inr ⟨hactive, Or.inl rfl⟩
  | failAgain htomb _ hactive _ => exact Or.inr ⟨hactive, Or.inr ⟨rfl, htomb⟩⟩
  | _ => exact Or.inl ‹_›

lemma Moves.late
    (hactive : (file w).active = some record) (hlate : isLate record.phase = true) :
    isLate phase = true ∨ phase.isTerminal = true := by
  cases h with
  | receive _ hnone =>
    rw [hactive] at hnone
    cases hnone
  | download _ hphase | verify _ hphase =>
    rw [hphase] at hlate
    cases hlate
  | stage | swap | requestRestart => exact Or.inl rfl
  | fail | recover | settle | failAgain => exact Or.inr rfl

lemma Moves.untombed
    (hw : Invariant w) (hphase : phase.isTerminal = false) : (file w).tombstones record.id = none := by
  rcases h.of_running hphase with hactive | ⟨-, htomb⟩
  · exact (hw.active hactive).2
  · exact htomb

end

lemma Invariant.of_file (h : Invariant w) {e : Event} (hfile : file (w.record e) = file w)
    (hswap : ∀ i, isSwap i e = true → ∃ record, (file w).active = some record ∧ record.id = i ∧ isLate record.phase = true) :
    Invariant (w.record e) where
  schema := hfile ▸ h.schema
  legacy := hfile ▸ h.legacy
  active := by
    rw [hfile]
    exact h.active
  tombstone := by
    rw [hfile]
    exact h.tombstone
  swapped i := by
    rw [hfile]
    cases he : isSwap i e with
    | true => exact Or.inr (Or.inr (hswap i he))
    | false =>
      rcases h.swapped i with hu | hrest
      · exact Or.inl (unswapped_record.mpr ⟨hu, he⟩)
      · exact Or.inr hrest

section

variable (h : Invariant w) (hmove : Moves w record phase failure) (env : Environment) (now : ℤ)
  (hfile : file (w.record (.save ((file w).put (record.moved env phase now failure)) outcome)) =
    (file w).put (record.moved env phase now failure))

include h hmove hfile

lemma Invariant.running (hphase : phase.isTerminal = false) :
    Invariant (w.record (.save ((file w).put (record.moved env phase now failure)) outcome)) := by
  obtain ⟨hactive, htombs⟩ := put_running (record.moved env phase now failure) hphase (file w)
  refine ⟨(congrArg (·.schemaVersion) hfile).trans h.schema, (congrArg (·.legacyPending) hfile).trans h.legacy, ?_, ?_, fun i => ?_⟩
  · intro other hother
    rw [hfile, hactive] at hother
    cases hother
    rw [hfile, htombs]
    exact ⟨hphase, hmove.untombed h hphase⟩
  · intro i other hother
    rw [hfile, htombs] at hother
    exact h.tombstone hother
  · rw [hfile, hactive, htombs]
    rcases h.swapped i with hu | ht | ⟨other, ho, rfl, hlate⟩
    · exact Or.inl (unswapped_record.mpr ⟨hu, rfl⟩)
    · exact Or.inr (Or.inl ht)
    · rcases hmove.source with hsource | ⟨hnone, -⟩
      · rw [hsource] at ho
        cases ho
        refine Or.inr (Or.inr ⟨_, rfl, rfl, (hmove.late hsource hlate).resolve_right ?_⟩)
        rw [hphase]
        exact Bool.false_ne_true
      · rw [ho] at hnone
        cases hnone

lemma Invariant.terminal (hphase : phase.isTerminal = true) :
    Invariant (w.record (.save ((file w).put (record.moved env phase now failure)) outcome)) := by
  obtain ⟨hactive, htombs⟩ := put_terminal (record.moved env phase now failure) hphase (file w)
  refine ⟨(congrArg (·.schemaVersion) hfile).trans h.schema, (congrArg (·.legacyPending) hfile).trans h.legacy, ?_, ?_, fun i => ?_⟩
  · intro other hother
    rw [hfile, hactive] at hother
    cases hother
  · intro i other hother
    rw [hfile, htombs, Function.update_apply] at hother
    split_ifs at hother with hi
    · cases hother
      exact ⟨hi.symm, hphase⟩
    · exact h.tombstone hother
  · rw [hfile, htombs, Function.update_apply]
    split_ifs with hi
    · exact Or.inr (Or.inl (Option.some_ne_none _))
    · rcases h.swapped i with hu | ht | ⟨other, ho, rfl, -⟩
      · exact Or.inl (unswapped_record.mpr ⟨hu, rfl⟩)
      · exact Or.inr (Or.inl ht)
      · rcases hmove.source with hsource | ⟨hnone, -⟩
        · rw [hsource] at ho
          cases ho
          exact absurd rfl hi
        · rw [ho] at hnone
          cases hnone

end

theorem Reachable.invariant (h : Reachable w) : Invariant w := by
  induction h with
  | init => exact ⟨rfl, rfl, fun h => (by cases h), fun h => (by cases h), fun i => Or.inl fun x hx => by cases hx⟩
  | @step w e _ he ih =>
    rcases file_cases he with hfile | ⟨state, outcome, rfl, hchange, hfile⟩
    · refine ih.of_file hfile fun i hi => ?_
      cases he with
      | swap hactive hphase _ _ => exact ⟨_, hactive, of_decide_eq_true hi, by rw [hphase]; rfl⟩
      | _ => cases hi
    · cases hchange with
      | @move record phase failure hmove _ env now =>
        cases hphase : phase.isTerminal with
        | true => exact ih.terminal hmove env now hfile hphase
        | false => exact ih.running hmove env now hfile hphase
      | acknowledge =>
        refine ⟨(congrArg (·.schemaVersion) hfile).trans ih.schema, (congrArg (·.legacyPending) hfile).trans ih.legacy, ?_, ?_, fun i => ?_⟩
        · rw [hfile]
          exact ih.active
        · rw [hfile]
          exact ih.tombstone
        · rw [hfile]
          exact (ih.swapped i).imp_left fun hu => unswapped_record.mpr ⟨hu, rfl⟩

end Invariant

section Calls

variable {w : World}

variable {α : Type} {phase : Phase} {failure : String} {post : α → World → Prop}

lemma safe_load (hw : Reachable w) {f : Except String StateFile → M α}
    (hf : ∀ err, Safe react Reachable post (f (.error err)) w) (hok : Safe react Reachable post (f (.ok (file w))) w) :
    Safe react Reachable post (load >>= f) w := by
  have hinv := hw.invariant
  have hload : loadLocked w.disk = .ok (file w) := by
    have hschema := hinv.schema
    have hlegacy := hinv.legacy
    revert hschema hlegacy
    rw [file]
    cases w.disk with
    | none => exact fun _ _ => rfl
    | some state =>
      intro hschema hlegacy
      change state.schemaVersion = 1 at hschema
      change state.legacyPending = none at hlegacy
      rw [loadLocked, if_neg (not_not.mpr hschema), hlegacy]
      congr 1
      cases state
      simp only [Option.toList_none, StateFile.mk.injEq, ite_eq_right_iff, Option.getD_some, true_and]
      exact ⟨fun h => h.symm, hlegacy.symm⟩
  refine ⟨hw, fun err => ?_⟩
  cases err with
  | some err => exact hf err
  | none =>
    change Safe react Reachable post (f (loadLocked w.disk)) w
    rw [hload]
    exact hok

lemma safe_clock (hw : Reachable w) {f : ℤ → M α}
    (hf : ∀ now, Safe react Reachable post (f now) w) : Safe react Reachable post (clock >>= f) w := ⟨hw, hf⟩

abbrev Keeps {α : Type} (p : M α) (w : World) : Prop := Safe react Reachable (fun _ _ => True) p w

lemma keeps_return (hw : Reachable w) (a : α) : Keeps (pure a) w := ⟨hw, trivial⟩

variable {env : Environment} {record : Record}

section

variable (hw : Reachable w)

include hw

lemma keeps_transition (hfinal : ¬ isFinal w) (hmove : Moves w record phase failure)
    {f : StateFile × Record × Except String Unit → M α} (herr : ∀ state record err, ∃ a, f (state, record, .error err) = pure a)
    (hok : ∀ now w', Reachable w' → ¬ isFinal w' → w' = w.record (.save ((file w).put (record.moved env phase now failure)) .done) →
      file w' = (file w).put (record.moved env phase now failure) → Keeps (f (file w', record.moved env phase now failure, .ok ())) w') :
    Keeps (transition env (file w) record phase failure >>= f) w := by
  refine ⟨hw, fun now => ⟨hw, fun outcome => ?_⟩⟩
  have hreach := hw.step (.save (.move hmove (fun h => absurd h hfinal) env now) outcome)
  cases outcome with
  | done => exact hok now _ hreach (not_final_record (by simp) w) rfl rfl
  | lost err | replaced err =>
    obtain ⟨a, ha⟩ := herr ((file w).put (record.moved env phase now failure)) (record.moved env phase now failure) err
    exact (ha ▸ keeps_return hreach a : Keeps (f (_, _, .error err)) _)

lemma keeps_last (hmove : Moves w record phase failure) (hfinal : isFinal w → phase = .healthy)
    (a : StateFile × Record × Except String Unit → α) :
    Keeps (transition env (file w) record phase failure >>= fun x => pure (a x)) w :=
  ⟨hw, fun now => ⟨hw, fun outcome => keeps_return (hw.step (.save (.move hmove hfinal env now) outcome)) _⟩⟩

lemma keeps_fail (hfinal : ¬ isFinal w) (hactive : (file w).active = some record)
    (hfailure : failure ≠ "interrupted_before_swap") (a : StateFile × Record × Except String Unit → α) :
    Keeps (transition env (file w) record .failed failure >>= fun x => pure (a x)) w :=
  keeps_last hw (.fail hactive fun h => absurd h hfailure) (fun h => absurd h hfinal) a

lemma keeps_recoverFrom (hactive : (file w).active = some record) {err recovered failed : String}
    (hfailed : failed ≠ "interrupted_before_swap") : Keeps (recoverFrom env (file w) record err recovered failed) w := by
  refine ⟨hw, fun r => ?_⟩
  have hreach := hw.step (.recover hactive r)
  have hfinal := not_final_record (e := .recover record.directive r) (by simp) w
  cases r with
  | ok u => exact keeps_last hreach (.recover hactive (last_record w _)) (fun h => absurd h hfinal) _
  | error e => exact keeps_fail hreach hfinal hactive hfailed _

lemma keeps_requestRestart (hfinal : ¬ isFinal w) (hactive : (file w).active = some record) (hphase : record.phase = .staged) :
    Keeps (requestRestart env (file w) record) w := by
  refine keeps_transition hw hfinal (.swap hactive hphase) (fun _ _ _ => ⟨_, rfl⟩) fun now w' hw' hfinal' _ hfile => ?_
  have hactive' : (file w').active = some (record.moved env .swapped now "") := hfile ▸ rfl
  refine keeps_transition hw' hfinal' (.requestRestart hactive' rfl) (fun _ _ _ => ⟨_, rfl⟩) fun now' w'' hw'' _ _ hfile' => ?_
  have hactive'' : (file w'').active = some ((record.moved env .swapped now "").moved env .restartRequested now' "") :=
    hfile' ▸ rfl
  refine ⟨hw'', fun r => ?_⟩
  have hreach := hw''.step (.restart hactive'' r)
  cases r with
  | ok u => exact keeps_return hreach _
  | error e => exact keeps_recoverFrom hreach hactive'' (by decide)

lemma keeps_swapComponents (hactive : (file w).active = some record) (hphase : record.phase = .staged)
    (hswap : Unswapped w record.id) : Keeps (swapComponents env (file w) record) w := by
  refine ⟨hw, fun r => ?_⟩
  have hreach := hw.step (.swap hactive hphase hswap r)
  cases r with
  | ok u => exact keeps_requestRestart hreach (not_final_record (by simp) w) hactive hphase
  | error e => exact keeps_recoverFrom hreach hactive (by decide)

lemma keeps_stage (hfinal : ¬ isFinal w) (hactive : (file w).active = some record) (hphase : record.phase = .received) :
    Keeps (stage env [.downloaded, .verified, .staged] (file w) record) w := by
  refine keeps_transition hw hfinal (.download hactive hphase) (fun _ _ _ => ⟨_, rfl⟩) fun now₁ w₁ hw₁ hfinal₁ _ hfile₁ => ?_
  have hactive₁ : (file w₁).active = some (record.moved env .downloaded now₁ "") := hfile₁ ▸ rfl
  refine keeps_transition hw₁ hfinal₁ (.verify hactive₁ rfl) (fun _ _ _ => ⟨_, rfl⟩) fun now₂ w₂ hw₂ hfinal₂ _ hfile₂ => ?_
  have hactive₂ : (file w₂).active = some ((record.moved env .downloaded now₁ "").moved env .verified now₂ "") := hfile₂ ▸ rfl
  have hunswapped := hw₂.invariant.unswapped hactive₂ rfl
  refine keeps_transition hw₂ hfinal₂ (.stage hactive₂ rfl) (fun _ _ _ => ⟨_, rfl⟩) fun now₃ w₃ hw₃ _ heq₃ hfile₃ => ?_
  refine keeps_swapComponents hw₃ (hfile₃ ▸ rfl) rfl ?_
  rw [heq₃]
  exact unswapped_record.mpr ⟨hunswapped, rfl⟩

lemma keeps_prepare (hfinal : ¬ isFinal w) (hactive : (file w).active = some record) (hphase : record.phase = .received) :
    Keeps (prepare env (file w) record) w := by
  rw [prepare]
  split_ifs
  · refine ⟨hw, fun r => ?_⟩
    have hreach := hw.step (.prepare hactive r)
    cases r with
    | ok u => exact keeps_stage hreach (not_final_record (by simp) w) hactive hphase
    | error e => exact keeps_fail hreach (not_final_record (by simp) w) hactive (by decide) _
  · exact keeps_fail hw hfinal hactive (by decide) _

lemma keeps_execute (hfinal : ¬ isFinal w) (d : Directive) : Keeps (execute env d) w := by
  refine safe_clock hw fun now => ?_
  cases validate env now d with
  | error err => exact keeps_return hw _
  | ok digest =>
    refine safe_load hw (fun err => keeps_return hw _) ?_
    dsimp only
    split
    · exact keeps_return hw _
    · split_ifs
      · exact keeps_return hw _
      · exact keeps_return hw _
    · rename_i htomb hactive
      have hmove : Moves w ⟨digest, d, .received, emptyObservation⟩ .received "" := .receive htomb hactive
      refine keeps_transition hw hfinal hmove (fun _ _ _ => ⟨_, rfl⟩) fun now' w' hw' hfinal' _ hfile => ?_
      exact keeps_prepare hw' hfinal' (hfile ▸ rfl) rfl

section

variable (hactive : (file w).active = some record)

include hactive

lemma keeps_undoSwap : Keeps (undoSwap env (file w) record) w := by
  refine ⟨hw, fun r => ?_⟩
  have hreach := hw.step (.recover hactive r)
  have hfinal := not_final_record (e := .recover record.directive r) (by simp) w
  cases r with
  | ok u => exact keeps_last hreach (.recover hactive (last_record w _)) (fun h => absurd h hfinal) _
  | error e => exact keeps_fail hreach hfinal hactive (by decide) _

lemma keeps_rollBack : Keeps (rollBack env (file w) record) w := by
  refine ⟨hw, fun r => ?_⟩
  have hreach := hw.step (.recover hactive r)
  have hfinal := not_final_record (e := .recover record.directive r) (by simp) w
  cases r with
  | error e => exact keeps_fail hreach hfinal hactive (by decide) _
  | ok u =>
    refine keeps_transition hreach hfinal (.recover hactive (last_record w _)) (fun _ _ _ => ⟨_, rfl⟩)
      fun now w' hw' hfinal' _ hfile => ?_
    have htomb : (file w').tombstones (record.moved env .recovered now "health_failed").id =
        some (record.moved env .recovered now "health_failed") := by
      rw [hfile]
      exact Function.update_self _ _ _
    have hnone : (file w').active = none := hfile ▸ rfl
    refine ⟨hw', fun r => ?_⟩
    have hreach' := hw'.step (.restartAgain htomb rfl hnone r)
    cases r with
    | ok u => exact keeps_return hreach' _
    | error e =>
      exact keeps_last hreach' (.failAgain htomb rfl hnone (last_record w' _)) (fun h => absurd h (not_final_record (by simp) w')) _

lemma keeps_settle : Keeps (settle env (file w) record) w := by
  refine ⟨hw, fun r => ?_⟩
  have hreach := hw.step (.healthy hactive r)
  cases r with
  | error e => exact keeps_rollBack hreach hactive
  | ok b =>
    cases b with
    | false => exact keeps_rollBack hreach hactive
    | true =>
      refine ⟨hreach, fun r => ?_⟩
      have hactive' : (file (w.record (.healthy record.directive (.ok true)))).active = some record := hactive
      have hreach' := hreach.step (.finalize hactive' (last_record w _) r)
      cases r with
      | error e => exact keeps_return hreach' _
      | ok u => exact keeps_last hreach' (.settle hactive (last_record _ _)) (fun _ => rfl) _

end

lemma keeps_reconcile (hfinal : ¬ isFinal w) : Keeps (reconcile env) w := by
  refine safe_load hw (fun err => keeps_return hw _) ?_
  dsimp only
  cases hactive : (file w).active with
  | none => exact keeps_return hw _
  | some record =>
    dsimp only
    split_ifs with hstaged hbackend hearly hbackend
    · exact keeps_undoSwap hw hactive
    · exact keeps_return hw _
    · refine keeps_last hw (.fail hactive fun _ => ?_) (fun h => absurd h hfinal) _
      simp [isLate, hstaged, hearly]
    · exact keeps_settle hw hactive
    · exact keeps_return hw _

lemma keeps_acknowledge (hfinal : ¬ isFinal w) (i : Text) : Keeps (acknowledge i) w := by
  refine safe_load hw (fun err => keeps_return hw _) ?_
  dsimp only
  cases hdrop : dropObservation i (file w).pending with
  | none => exact keeps_return hw _
  | some pending => exact ⟨hw, fun outcome => ⟨hw.step (.save (.acknowledge hdrop hfinal) outcome), trivial⟩⟩

lemma keeps_program (hfinal : ¬ isFinal w) (call : Call) : Keeps call.program w := by
  cases call with
  | execute env d => exact keeps_execute hw hfinal d
  | reconcile env => exact keeps_reconcile hw hfinal
  | acknowledge i => exact keeps_acknowledge hw hfinal i

end

theorem reachable_run (steps : List Step) : Reachable (run steps) := by
  induction steps using List.reverseRecOn with
  | nil => exact .init
  | append_singleton steps s ih =>
    rw [run, List.foldl_append]
    exact (keeps_program (ih.step (.started s.call)) (not_final_record (by simp) _) s.call).play s.script.choose s.script.life

/-- A rollback is active or has its tombstone, never both, and none that may have been swapped is missing from the file. -/
theorem state_file_sound (steps : List Step) :
    let f := file (run steps)
    f.schemaVersion = 1 ∧ f.legacyPending = none ∧
      (∀ record, f.active = some record → record.phase.isTerminal = false ∧ f.tombstones record.id = none) ∧
      (∀ i record, f.tombstones i = some record → record.id = i ∧ record.phase.isTerminal = true) ∧
      ∀ i, Unswapped (run steps) i ∨ f.tombstones i ≠ none ∨
        ∃ record, f.active = some record ∧ record.id = i ∧ isLate record.phase = true := by
  have h := (reachable_run steps).invariant
  exact ⟨h.schema, h.legacy, fun _ => h.active, fun _ _ => h.tombstone, h.swapped⟩

end Calls

end Breeze.Rollback.Protocol
