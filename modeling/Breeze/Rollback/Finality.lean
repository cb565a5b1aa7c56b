import Breeze.Rollback.Outcomes

/-! Whether a finalized rollback can still be undone, and whether a terminal outcome is final. -/

namespace Breeze.Rollback.Finality

open Breeze.Lib Breeze.Lib.Decimal Breeze.Lib.Effects List
open Engine Protocol Outcomes

abbrev Log := List (Event × Option StateFile)

def follows {α : Type} (p q : α → Bool) : List α → Bool
  | [] => false
  | a :: l => (p a && l.any q) || follows p q l

lemma follows_snoc {α : Type} (p q : α → Bool) (l : List α) (a : α) :
    follows p q (l ++ [a]) = (follows p q l || (l.any p && q a)) := by
  induction l with
  | nil => simp [follows]
  | cons b l ih =>
    simp only [cons_append, follows, ih, any_append, any_cons, any_nil, Bool.or_false]
    cases p b <;> cases l.any q <;> cases follows p q l <;> cases l.any p <;> cases q a <;> rfl

def precedes {α : Type} (p q : α → Bool) : List α → Bool
  | [] => true
  | a :: l => (!p a || l.head?.all q) && precedes p q l

lemma precedes_snoc {α : Type} (p q : α → Bool) (l : List α) (a : α) :
    precedes p q (l ++ [a]) = (precedes p q l && l.getLast?.all fun b => !p b || q a) := by
  induction l with
  | nil => simp [precedes]
  | cons b l ih =>
    cases l with
    | nil => simp [precedes]
    | cons c l =>
      rw [cons_append, precedes, ih]
      simp only [precedes, cons_append, List.head?_cons, List.getLast?_cons_cons, Bool.and_assoc]

section Scenario

def agent : Environment where
  deviceId := "d".toList
  orgId := "o".toList
  platform := "linux".toList
  architecture := "amd64".toList
  currentVersion := "2".toList
  goos := []
  goarch := []
  verifySignature := some fun _ _ _ => none
  hasBackend := true
  sha256 := Checksum.lengthSum
  rfc3339Nano := fun _ => []

def directive : Directive where
  schemaVersion := 1
  rollbackId := "r".toList
  deviceId := "d".toList
  orgId := "o".toList
  platform := "linux".toList
  architecture := "amd64".toList
  currentVersion := "2".toList
  targetVersion := "1".toList
  componentVersions := [("agent".toList, ⟨"2".toList, "1".toList⟩)]
  releaseManifest := []
  manifestSignature := []
  manifestSigningKeyId := []
  artifacts := [⟨"agent".toList, "2".toList, "1".toList, "https://x/a".toList, List.replicate 64 'a', 7⟩]
  reason := []
  authorizedBy := []
  approvedAt := "2026-01-31T10:00:00Z".toList
  expiresAt := "2026-01-31T11:00:00Z".toList
  directiveSigningKeyId := "k".toList
  directiveSignature := List.replicate 86 'A' ++ ['=', '=']
  distinct := by simp

def succeeds : (c : Command) → Choice c
  | .load => none
  | .now => 0
  | .save _ => .done
  | .prepare _ => .ok ()
  | .swap _ => .ok ()
  | .restart _ => .ok ()
  | .healthy _ => .ok true
  | .finalize _ => .ok ()
  | .recover _ => .ok ()

def whole (call : Call) (choose : (c : Command) → Choice c) : Step := ⟨call, fun _ => choose, 40⟩

def executed : Step := whole (.execute agent directive) succeeds

end Scenario

section Finalized

def isFinalized (i : Text) (x : Event × Option StateFile) : Bool :=
  match x.1 with
  | .finalize d (.ok ()) => d.rollbackId = i
  | _ => false

def isRecover (i : Text) (x : Event × Option StateFile) : Bool :=
  match x.1 with
  | .recover d _ => d.rollbackId = i
  | _ => false

def isFinalize (x : Event × Option StateFile) : Bool :=
  match x.1 with
  | .finalize _ (.ok ()) => true
  | _ => false

def isEffectiveSave (x : Event × Option StateFile) : Bool :=
  match x.1 with
  | .save _ outcome => outcome.takesEffect
  | _ => false

def finalizeSaved (log : Log) : Bool := precedes isFinalize isEffectiveSave log

variable {i : Text} {w : World} {e : Event} {disk : Option StateFile}

lemma finalize_of {x : Event × Option StateFile} (h : isFinalized i x = true) :
    ∃ d, x.1 = .finalize d (.ok ()) ∧ d.rollbackId = i := by
  obtain ⟨e, disk⟩ := x
  cases e with
  | finalize d r =>
    cases r with
    | ok u => exact ⟨d, rfl, of_decide_eq_true h⟩
    | error err => cases h
  | _ => cases h

lemma tombstone_of_settle {d : Directive} (hlast : last w = some (.finalize d (.ok ()))) (he : Allowed w e) (hsave : isEffectiveSave (e, disk) = true) : (file (w.record e)).tombstones d.rollbackId ≠ none := by
  cases he with
  | @save state hchange outcome =>
    have hfile : file (w.record (.save state outcome)) = state := by
      rw [file_save]
      exact if_pos hsave
    rw [hfile]
    cases hchange with
    | acknowledge _ hfinal => exact absurd ⟨d, hlast⟩ hfinal
    | @move record phase failure hmove hfinal env now =>
      cases hfinal ⟨d, hlast⟩
      cases hmove with
      | settle hactive hlast' =>
        rw [hlast] at hlast'
        cases hlast'
        have hself := Function.update_self record.id (some (record.moved env .healthy now "")) (file w).tombstones
        rw [(put_terminal (record.moved env .healthy now "") rfl (file w)).2]
        exact ne_of_eq_of_ne hself (Option.some_ne_none _)
  | _ => cases hsave

lemma tombstone_of_finalized (h : Reachable w) (hsaved : finalizeSaved w.log = true) (hi : w.log.any (isFinalized i) = true) :
    (file w).tombstones i ≠ none ∨ ∃ d, last w = some (.finalize d (.ok ())) ∧ d.rollbackId = i := by
  induction h with
  | init => cases hi
  | @step w e hw he ih =>
    rw [World.record, finalizeSaved, precedes_snoc, Bool.and_eq_true] at hsaved
    rw [World.record, any_append, Bool.or_eq_true] at hi
    rcases hi with hi | hi
    · rcases ih hsaved.1 hi with htomb | ⟨d, hlast, rfl⟩
      · exact Or.inl (tombstones_stay hw he htomb)
      · obtain ⟨x, hx, hxe⟩ := Option.map_eq_some_iff.mp hlast
        have hsave := hsaved.2
        rw [hx, Option.all_some] at hsave
        have hfinal : isFinalize x = true := by
          rw [isFinalize, hxe]
        rw [hfinal, Bool.not_true, Bool.false_or] at hsave
        exact Or.inl (tombstone_of_settle hlast he hsave)
    · rw [any_cons, any_nil, Bool.or_false] at hi
      obtain ⟨d, hd, hid⟩ := finalize_of hi
      exact Or.inr ⟨d, by rw [last_record]; exact congrArg some hd, hid⟩

lemma recover_untombed (hw : Reachable w) (he : Allowed w e)
    (h : isRecover i (e, disk) = true) : (file w).tombstones i = none := by
  cases he with
  | @recover record hactive r =>
    rw [← of_decide_eq_true h]
    exact (hw.invariant.active hactive).2
  | _ => cases h

lemma recover_not_follows (h : Reachable w) (hsaved : finalizeSaved w.log = true) (i : Text) :
    follows (isFinalized i) (isRecover i) w.log = false := by
  induction h with
  | init => rfl
  | @step w e hw he ih =>
    rw [World.record, finalizeSaved, precedes_snoc, Bool.and_eq_true] at hsaved
    rw [World.record, follows_snoc, ih hsaved.1, Bool.false_or]
    refine Bool.eq_false_iff.mpr fun hboth => ?_
    obtain ⟨hany, hrecover⟩ := Bool.and_eq_true_iff.mp hboth
    rcases tombstone_of_finalized hw hsaved.1 hany with htomb | ⟨d, hlast, -⟩
    · exact htomb (recover_untombed hw he hrecover)
    · -- what comes right after a successful `Finalize` is a save
      obtain ⟨x, hx, hxe⟩ := Option.map_eq_some_iff.mp hlast
      have hsave := hsaved.2
      have hfinal : isFinalize x = true := by
        rw [isFinalize, hxe]
      rw [hx, Option.all_some, hfinal, Bool.not_true, Bool.false_or] at hsave
      cases e with
      | recover d r => cases hsave
      | _ => cases hrecover

theorem finalized_never_recovered (steps : List Step) (h : finalizeSaved (run steps).log = true) (i : Text) :
    follows (isFinalized i) (isRecover i) (run steps).log = false :=
  recover_not_follows (reachable_run steps) h i

theorem healthy_rollback_finalized :
    finalizeSaved (run [executed, whole (.reconcile agent) succeeds, whole (.reconcile agent) succeeds]).log = true ∧
      (run [executed, whole (.reconcile agent) succeeds, whole (.reconcile agent) succeeds]).log.any (isFinalized ['r']) = true ∧
      follows (isFinalized ['r']) (isRecover ['r'])
        (run [executed, whole (.reconcile agent) succeeds, whole (.reconcile agent) succeeds]).log = false :=
  ⟨by decide +kernel, by decide +kernel, finalized_never_recovered _ (by decide +kernel) _⟩

def diskFull : (c : Command) → Choice c
  | .save _ => .lost "no space left on device"
  | c => succeeds c

def unhealthy : (c : Command) → Choice c
  | .healthy _ => .ok false
  | c => succeeds c

/-- The save after `Finalize` is lost, and the next check of health fails. -/
theorem finalized_then_recovered :
    follows (isFinalized ['r']) (isRecover ['r'])
      (run [executed, whole (.reconcile agent) diskFull, whole (.reconcile agent) unhealthy]).log = true := by
  decide +kernel

end Finalized

section Terminal

def added (x : Event × Option StateFile) : List Observation :=
  match x.1 with
  | .save state outcome => if outcome.takesEffect then state.pending.drop (before x).pending.length else []
  | _ => []

def queued (log : Log) (i : Text) : List Observation := (log.flatMap added).filter fun o => o.rollbackId = i

def isFailedRestart (x : Event × Option StateFile) : Bool :=
  match x.1 with
  | .restart _ (.error _) => true
  | _ => false

def restartUnsaved (log : Log) : Bool := precedes isFailedRestart (fun x => !isEffectiveSave x) log

lemma queued_snoc (log : Log) (x : Event × Option StateFile) (i : Text) :
    queued (log ++ [x]) i = queued log i ++ (added x).filter fun o => o.rollbackId = i := by
  rw [queued, flatMap_append, filter_append, flatMap_singleton]
  rfl

variable {i : Text} {w : World} {phase : Phase} {failure : String}

lemma dropObservation_length {pending rest : List Observation} (h : dropObservation i pending = some rest) :
    rest.length ≤ pending.length := by
  induction pending generalizing rest with
  | nil => cases h
  | cons o pending ih =>
    rw [dropObservation] at h
    split_ifs at h
    · obtain ⟨rest', hrest, rfl⟩ := Option.map_eq_some_iff.mp h
      exact Nat.succ_le_succ (ih hrest)
    · cases h
      exact Nat.le_succ _

/-- A terminal observation is the last one, and there is one exactly when there is a tombstone. -/
structure Settled (tombed : Bool) (os : List Observation) : Prop where
  running : tombed = false → ∀ o ∈ os, o.phase.isTerminal = false
  terminal : tombed = true → ∃ l o, os = l ++ [o] ∧ o.phase.isTerminal = true ∧ ∀ p ∈ l, p.phase.isTerminal = false

lemma added_cases {e : Event} (he : Allowed w e) :
    (added (e, w.disk) = [] ∧ (file (w.record e)).tombstones = (file w).tombstones) ∨
      ∃ record phase failure env now, Moves w record phase failure ∧ isEffectiveSave (e, w.disk) = true ∧
        added (e, w.disk) = [(record.moved env phase now failure).observation] ∧
        file (w.record e) = (file w).put (record.moved env phase now failure) := by
  cases he with
  | @save state hchange outcome =>
    cases heffect : outcome.takesEffect with
    | false =>
      refine Or.inl ⟨if_neg (Bool.eq_false_iff.mp heffect), ?_⟩
      rw [file_save, heffect]
      rfl
    | true =>
      have hfile : file (w.record (.save state outcome)) = state := by
        rw [file_save]
        exact if_pos heffect
      have hadded : added (.save state outcome, w.disk) = state.pending.drop (file w).pending.length := if_pos heffect
      rw [hfile, hadded]
      cases hchange with
      | acknowledge hdrop _ => exact Or.inl ⟨drop_eq_nil_of_le (dropObservation_length hdrop), rfl⟩
      | @move record phase failure hmove _ env now =>
        exact Or.inr ⟨record, phase, failure, env, now, hmove, heffect, drop_left, rfl⟩
  | _ => exact Or.inl ⟨rfl, rfl⟩

variable {record : Record} {x : Event × Option StateFile}

lemma settled_move (hfirst : (file w).tombstones record.id = none) (env : Environment) (now : ℤ)
    {os : List Observation} (h : Settled ((file w).tombstones i).isSome os) :
    Settled (((file w).put (record.moved env phase now failure)).tombstones i).isSome
      (os ++ [(record.moved env phase now failure).observation].filter fun o => o.rollbackId = i) := by
  have hid : (record.moved env phase now failure).observation.rollbackId = record.id := rfl
  have hobs : (record.moved env phase now failure).observation.phase = phase := rfl
  by_cases hi : record.id = i
  · have hnone : ((file w).tombstones i).isSome = false := by
      rw [← hi, hfirst]
      rfl
    rw [filter_cons_of_pos (by rw [hid]; exact decide_eq_true hi), filter_nil]
    have hrunning := h.running hnone
    cases hphase : phase.isTerminal with
    | false =>
      rw [(put_running (record.moved env phase now failure) hphase (file w)).2, hnone]
      refine ⟨fun _ => List.forall_mem_append.mpr ⟨hrunning, List.forall_mem_singleton.mpr ?_⟩, fun h => by cases h⟩
      rw [hobs, hphase]
    | true =>
      rw [(put_terminal (record.moved env phase now failure) hphase (file w)).2, moved_id, hi, Function.update_self]
      refine ⟨fun h => absurd h Bool.noConfusion, fun _ => ⟨os, _, rfl, ?_, hrunning⟩⟩
      rw [hobs, hphase]
  · rw [filter_cons_of_neg (by rw [hid]; exact fun hd => hi (of_decide_eq_true hd)), filter_nil, append_nil]
    have htombs : ((file w).put (record.moved env phase now failure)).tombstones i = (file w).tombstones i := by
      cases hphase : phase.isTerminal with
      | false => rw [(put_running (record.moved env phase now failure) hphase (file w)).2]
      | true =>
        rw [(put_terminal (record.moved env phase now failure) hphase (file w)).2, moved_id]
        exact Function.update_of_ne (Ne.symm hi) _ _
    rw [htombs]
    exact h

lemma move_untombed (hw : Reachable w) (hmove : Moves w record phase failure)
    (hrestart : ∀ err, last w ≠ some (.restart record.directive (.error err))) : (file w).tombstones record.id = none := by
  rcases hmove.source with hactive | ⟨-, rfl | ⟨-, htomb⟩⟩
  · exact (hw.invariant.active hactive).2
  · exact hmove.untombed hw.invariant rfl
  · cases hmove with
    | receive hnone => exact hnone
    | failAgain _ _ _ hlast => exact absurd hlast (hrestart _)
    | fail hactive | recover hactive | settle hactive | download hactive | verify hactive | stage hactive | swap hactive
    | requestRestart hactive => exact (hw.invariant.active hactive).2

lemma no_failed_restart
    (h : (w.log.getLast?.all fun b => !isFailedRestart b || !isEffectiveSave x) = true) (hsave : isEffectiveSave x = true)
    (d : Directive) (err : String) : last w ≠ some (.restart d (.error err)) := by
  intro hlast
  obtain ⟨y, hy, hye⟩ := Option.map_eq_some_iff.mp hlast
  have hfailed : isFailedRestart y = true := by
    rw [isFailedRestart, hye]
  rw [hy, Option.all_some, hfailed, hsave] at h
  cases h

theorem settled (h : Reachable w) (hunsaved : restartUnsaved w.log = true) (i : Text) :
    Settled ((file w).tombstones i).isSome (queued w.log i) := by
  induction h with
  | init => exact ⟨fun _ o ho => absurd ho not_mem_nil, fun h => absurd h Bool.noConfusion⟩
  | @step w e hw he ih =>
    rw [World.record, restartUnsaved, precedes_snoc, Bool.and_eq_true] at hunsaved
    have hsettled := ih hunsaved.1
    change Settled _ (queued (w.log ++ [(e, w.disk)]) i)
    rw [queued_snoc]
    rcases added_cases he with ⟨hadded, htombs⟩ | ⟨record, phase, failure, env, now, hmove, hsave, hadded, hfile⟩
    · rw [hadded, htombs, filter_nil, append_nil]
      exact hsettled
    · rw [hadded, hfile]
      exact settled_move (move_untombed hw hmove (no_failed_restart hunsaved.2 hsave record.directive)) env now hsettled

lemma tombstone_unchanged (h : Reachable w) (hunsaved : restartUnsaved w.log = true)
    (hx : x ∈ w.log) (htomb : (before x).tombstones i = some record) :
    (file w).tombstones i = some record := by
  induction h with
  | init => cases hx
  | @step w e hw he ih =>
    rw [World.record, restartUnsaved, precedes_snoc, Bool.and_eq_true] at hunsaved
    have hnow : (file w).tombstones i = some record := by
      rcases List.mem_append.mp hx with hx | hx
      · exact ih hunsaved.1 hx
      · cases List.mem_singleton.mp hx
        exact htomb
    rcases tombstone_step hw he hnow with hkept | ⟨hphase, ⟨err, hlast⟩, env, now, hfailed, outcome, rfl⟩
    · exact hkept
    · cases heffect : outcome.takesEffect with
      | true => exact absurd hlast (no_failed_restart hunsaved.2 heffect _ _)
      | false =>
        rw [file_save, heffect]
        exact hnow

theorem outcome_final (steps : List Step) (h : restartUnsaved (run steps).log = true) (i : Text) :
    (∀ x ∈ (run steps).log, ∀ record, (before x).tombstones i = some record →
        ∃ current, (file (run steps)).tombstones i = some current ∧ current.phase = record.phase) ∧
      ((file (run steps)).tombstones i ≠ none →
        ∃ l o, queued (run steps).log i = l ++ [o] ∧ o.phase.isTerminal = true ∧ ∀ p ∈ l, p.phase.isTerminal = false) := by
  have hw := reachable_run steps
  refine ⟨fun x hx record htomb => ⟨record, tombstone_unchanged hw h hx htomb, rfl⟩, fun htomb => ?_⟩
  exact (settled hw h i).terminal (Option.isSome_iff_ne_none.mpr htomb)

theorem recovered_rollback_final :
    restartUnsaved (run [executed, whole (.reconcile agent) unhealthy]).log = true ∧
      ∃ l o, queued (run [executed, whole (.reconcile agent) unhealthy]).log ['r'] = l ++ [o] ∧ o.phase.isTerminal = true ∧
        ∀ p ∈ l, p.phase.isTerminal = false := by
  have h : restartUnsaved (run [executed, whole (.reconcile agent) unhealthy]).log = true := by decide +kernel
  refine ⟨h, (outcome_final _ h ['r']).2 (Option.isSome_iff_ne_none.mp ?_)⟩
  decide +kernel

def restartFails : (c : Command) → Choice c
  | .restart _ => .error "service manager"
  | c => unhealthy c

/-- The rollback is recovered, and is then recorded as failed when the second restart fails. -/
theorem recovered_then_failed :
    ((run [executed, whole (.reconcile agent) restartFails]).log.any fun x =>
        ((before x).tombstones ['r']).any fun record => record.phase = .recovered) = true ∧
      ((file (run [executed, whole (.reconcile agent) restartFails])).tombstones ['r']).map Record.phase = some .failed ∧
      (queued (run [executed, whole (.reconcile agent) restartFails]).log ['r']).map Observation.phase =
        [.received, .downloaded, .verified, .staged, .swapped, .restartRequested, .recovered, .failed] := by
  decide +kernel

end Terminal

end Breeze.Rollback.Finality
