import Breeze.Pam.CallSafety

/-! Runs of the manager with crashes and restarts: no actuation is resumed twice, or after its tombstone, or before its process
is in the ledger on disk. -/

namespace Breeze.Pam.AtMostOnce

open Breeze.Lib.Stateful Ledger Manager Durability CallSafety

section Runs

variable (uuidParse : String → Bool) (applyDigest : ApplyCommand → Except String String)

inductive Call where
  | apply (ans : ApplyAnswers) (cmd : ApplyCommand)
  | cleanup (gate : Bool) (ans : CleanupAnswers) (cmd : CleanupCommand)
  | reconcile (ans : ReconcileAnswers)
  | setEnabled (ans : EnableAnswers) (enabled : Bool)

def perform (m : LifecycleManager) : Call → LifecycleManager
  | .apply ans cmd => ((Manager.apply uuidParse applyDigest ans cmd).run m).2
  | .cleanup gate ans cmd => ((Manager.cleanup uuidParse gate ans cmd).run m).2
  | .reconcile ans => ((Manager.reconcile uuidParse ans).run m).2
  | .setEnabled ans enabled => ((Manager.setEnabled uuidParse ans enabled).run m).2

/-- A call runs to its end, or the process dies after some of the call's effects and starts again from the ledger on disk. -/
inductive Step where
  | call (c : Call)
  | crash (c : Call) (effects : ℕ) (readErr : Option String)

def restart (trace : List Event) (readErr : Option String) : LifecycleManager :=
  { store := newStore (disk trace) readErr, trace := trace }

def step (m : LifecycleManager) : Step → LifecycleManager
  | .call c => perform uuidParse applyDigest m c
  | .crash c effects readErr =>
    restart ((perform uuidParse applyDigest m c).trace.take (m.trace.length + effects)) readErr

def run (steps : List Step) : LifecycleManager := steps.foldl (step uuidParse applyDigest) {}

def Meets (m : LifecycleManager) : Step → Prop
  | .call (.cleanup _ ans cmd) => (m.store.entries.lookup cmd.actuationID).isSome ∨ ans.prepare.chmodFile = none
  | _ => True

def MeetsAll : LifecycleManager → List Step → Prop
  | _, [] => True
  | m, st :: steps => Meets m st ∧ MeetsAll (step uuidParse applyDigest m st) steps

variable {uuidParse applyDigest}

variable {m : LifecycleManager}

lemma perform_sound (h : Inv m) (c : Call) : Sound (perform uuidParse applyDigest m c).trace := by
  cases c with
  | apply ans cmd => exact (triple_apply ans cmd m h).sound
  | cleanup gate ans cmd => exact triple_cleanup_sound gate ans cmd m h
  | reconcile ans => exact (triple_reconcile ans m h).sound
  | setEnabled ans enabled => exact (triple_setEnabled ans enabled m h).sound

lemma restart_inv {trace : List Event} (h : Sound trace) (readErr : Option String) : Inv (restart trace readErr) := by
  cases readErr with
  | some e => exact ⟨h, nofun, nofun⟩
  | none =>
    refine ⟨h, fun _ id hid => ?_, ?_⟩
    · obtain ⟨entries, hd, hs⟩ := h.covered trace (List.prefix_refl _) id hid
      simpa [restart, newStore, hd] using hs
    · cases hd : disk trace with
      | none => simp [restart, newStore, hd, Keyed]
      | some entries =>
        simpa [restart, newStore, hd] using h.keyed entries (mem_of_disk hd)

lemma step_inv (h : Inv m) {st : Step} (hst : Meets m st) : Inv (step uuidParse applyDigest m st) := by
  cases st with
  | crash c effects readErr => exact restart_inv ((perform_sound h c).earlier (List.take_prefix _ _)) readErr
  | call c =>
    cases c with
    | apply ans cmd => exact triple_apply ans cmd m h
    | reconcile ans => exact triple_reconcile ans m h
    | setEnabled ans enabled => exact triple_setEnabled ans enabled m h
    | cleanup gate ans cmd =>
      rcases hst with hs | hc
      · have hon : InvOn [cmd.actuationID] m := ⟨h, fun id hid => by rw [List.mem_singleton.mp hid]; exact hs⟩
        exact ((stable_invOn _).cleanup gate (fun _ h => h) (triple_cleanupLocked ans cmd (Or.inl (List.mem_singleton_self _))) m hon).inv
      · have hon : InvOn [] m := ⟨h, nofun⟩
        exact ((stable_invOn []).cleanup gate (fun _ h => h) (triple_cleanupLocked ans cmd (Or.inr hc)) m hon).inv

lemma initial_inv : Inv {} := by
  have hnone (id : String) : ¬ Known [] id := by simp [Known, Resumed, Tombstoned]
  refine ⟨⟨fun pre id process post h => ?_, fun pre hpre id hid => ?_, fun entries h => by cases h⟩, fun _ id hid => ?_, ?_⟩
  · simp at h
  · rw [List.prefix_nil.mp hpre] at hid
    exact absurd hid (hnone id)
  · exact absurd hid (hnone id)
  · simp [Keyed]

lemma runFrom_inv (h : Inv m) {steps : List Step}
    (hs : MeetsAll uuidParse applyDigest m steps) : Inv (steps.foldl (step uuidParse applyDigest) m) := by
  induction steps generalizing m with
  | nil => exact h
  | cons st steps ih => exact ih (step_inv h hs.1) hs.2

theorem resume_at_most_once {steps : List Step} (h : MeetsAll uuidParse applyDigest {} steps) :
    SafeTrace (run uuidParse applyDigest steps).trace :=
  (runFrom_inv initial_inv h).sound.safe

end Runs

section Scenario

def applyOne : ApplyCommand where
  protocolVersion := 2
  actuationID := "one"
  generation := 1
  requestID := "request"
  deviceID := "device"
  orgID := "org"
  targetPath := "target"
  targetHash := none
  subjectUsername := "user"
  expiresAt := 10
  serverTime := 5
  maxRemainingLifetimeMS := 1

def launchOk : ApplyAnswers where
  gate := true
  bootID := .ok "boot"
  now := 1
  pinTarget := some "hash"
  prepare := {}
  promote := true
  createSuspended := some { pid := 7, processCreationTime := 3 }
  createJob := some false
  setJobLimits := true
  assignProcess := true
  bind := {}
  handoff := none
  resume := true
  verifyActive := some 1
  deprovision := none

def cleanupOf (id : String) : CleanupCommand where
  protocolVersion := 2
  actuationID := id
  generation := 2
  requestID := "request"
  deviceID := "device"
  orgID := "org"

def cleanOk : CleanupAnswers where
  bootID := .ok "boot"
  now := 2
  prepare := {}
  terminate := .ok 0
  identityGone := none
  deprovision := some ⟨false, false⟩
  verifyClean := some ⟨false, false⟩
  tokenScan := .ok false
  clear := {}

def die : Step :=
  .crash (.setEnabled { gate := .error "deadline", account := ⟨.ok "boot", none, none, .ok false⟩, cleanup := fun _ => cleanOk } true)
    0 none

theorem resume_at_most_once_replayed :
    MeetsAll (fun _ => true) (fun _ => .ok "digest") {}
        [.call (.apply launchOk applyOne), .call (.cleanup true cleanOk (cleanupOf "one")), die, .call (.apply launchOk applyOne)] ∧
      SafeTrace (run (fun _ => true) (fun _ => .ok "digest")
        [.call (.apply launchOk applyOne), .call (.cleanup true cleanOk (cleanupOf "one")), die,
          .call (.apply launchOk applyOne)]).trace := by
  have h : MeetsAll (fun _ => true) (fun _ => .ok "digest") {}
      [.call (.apply launchOk applyOne), .call (.cleanup true cleanOk (cleanupOf "one")), die,
        .call (.apply launchOk applyOne)] :=
    ⟨trivial, Or.inr rfl, trivial, trivial, trivial⟩
  exact ⟨h, resume_at_most_once h⟩

def tombstones (id : String) : Event → Bool
  | .wrote entries => (entries.lookup id).any (fun e => decide (e.desiredState = .cleanup))
  | _ => false

def resumesTombstoned (t : List Event) (i : ℕ) : Bool :=
  match t[i]? with
  | some (.resumed id _) => (t.take i).any (tombstones id)
  | _ => false

lemma not_safe_of_resumesTombstoned {t : List Event} {i : ℕ} (h : resumesTombstoned t i = true) :
    ¬ SafeTrace t := by
  intro hsafe
  simp only [resumesTombstoned] at h
  split at h
  · rename_i id process hi
    obtain ⟨e, he, ht⟩ := List.any_eq_true.mp h
    refine (hsafe (t.take i) id process (t.drop (i + 1)) ?_).2.1 ?_
    · obtain ⟨hlt, hget⟩ := List.getElem?_eq_some_iff.mp hi
      rw [← hget, ← List.drop_eq_getElem_cons hlt, List.take_append_drop]
    · cases e with
      | wrote entries =>
        simp only [tombstones, Option.any_eq_true, decide_eq_true_eq] at ht
        obtain ⟨entry, hentry, hclean⟩ := ht
        exact ⟨entries, entry, he, hentry, hclean⟩
      | _ => cases ht
  · cases h

/-- The tombstone of an actuation without an entry is on disk when setting the mode of the new file fails; the next write of the
ledger drops it, and after a restart the actuation is applied. -/
theorem dropped_tombstone_is_resumed :
    ¬ SafeTrace (run (fun _ => true) (fun _ => .ok "digest")
      [.call (.cleanup true { cleanOk with prepare := { chmodFile := some "denied" } } (cleanupOf "one")),
        .call (.cleanup true cleanOk (cleanupOf "two")), die, .call (.apply launchOk applyOne)]).trace :=
  not_safe_of_resumesTombstoned (i := 10) (by decide +kernel)

end Scenario

end Breeze.Pam.AtMostOnce
