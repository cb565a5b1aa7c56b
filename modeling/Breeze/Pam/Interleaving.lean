import Breeze.Lib.Sections
import Breeze.Pam.Durability

/-! The calls of the manager as programs of atomic sections. A section looks at the flags and the unresolved set at most once, as
one critical section of the manager's lock does; a call that times out on the operation gate runs its sections without it.
Alone, every program is the call of the sequential model. -/

namespace Breeze.Pam.Interleaving

open Breeze.Lib.Sections Ledger Manager Durability

inductive Origin where
  | cleanup
  | setEnabled
  | other
  deriving DecidableEq

inductive Label where
  | admission
  | enableRead
  | openAdmission
  | enabled
  | marked (origin : Origin) (key : String) (generation : UInt64)
  | prepared (cmd : ApplyCommand)
  | bound (process : ProcessIdentity)
  | cleaned (cmd : CleanupCommand)
  | other

abbrev Prog := Program LifecycleManager Label

def sec {α : Type} (label : Label) (x : Op α) : Prog α := Program.lift label x

def mark (origin : Origin) (key : String) (generation : UInt64) : Prog Unit :=
  sec (.marked origin key generation) (markUnresolved key generation)

def record (origin : Origin) (actuationID : String) (result : Result) : Prog Unit :=
  if result.state = .cleaned then sec .other (clearUnresolvedThrough actuationID result.generation)
  else mark origin actuationID result.generation

variable (uuidParse : String → Bool) (applyDigest : ApplyCommand → Except String String)

section Apply

def bindAndResumeP (ans : ApplyAnswers) (cmd : ApplyCommand) (bootID : String) (process : ProcessIdentity) : Prog Result := do
  match ← sec (.bound process) (onStore fun s => bindProcess s ans.bind ans.now cmd.actuationID cmd.generation process) with
  | .error _ => sec .other (launchFailed ans cmd bootID "persist_process_failed")
  | .ok _ =>
    match ans.handoff with
    | some (some err) => do
      mark .other cmd.actuationID cmd.generation
      sec .other (launchFailed ans cmd bootID (receivedHandoffFailureCode err))
    | some none => sec .other (resumeTarget ans cmd bootID process)
    | none => do
      sec .other (emit { actuationID := cmd.actuationID, generation := cmd.generation, state := .received,
                         evidence := evidenceFromProcess process none })
      sec .other (resumeTarget ans cmd bootID process)

def launchP (ans : ApplyAnswers) (cmd : ApplyCommand) (bootID targetHash : String) : Prog Result :=
  if !ans.promote then pure (failed cmd.actuationID cmd.generation bootID "account_promotion_failed")
  else
    match ans.createSuspended with
    | none => sec .other (launchFailed ans cmd bootID "create_process_failed")
    | some identity =>
      match ans.createJob with
      | none => sec .other (launchFailed ans cmd bootID "create_job_failed")
      | some inheritable =>
        if inheritable then sec .other (launchFailed ans cmd bootID "inheritable_job_handle")
        else if !ans.setJobLimits then sec .other (launchFailed ans cmd bootID "configure_job_failed")
        else if !ans.assignProcess then sec .other (launchFailed ans cmd bootID "assign_job_failed")
        else
          bindAndResumeP ans cmd bootID
            { identity with
              targetHash := targetHash
              bootID := bootID
              jobName := jobName cmd.actuationID cmd.generation }

def prepareAndLaunchP (ans : ApplyAnswers) (cmd : ApplyCommand) (bootID targetHash : String) : Prog Result := do
  match ← sec (.prepared cmd) (onStore fun s => prepareApply uuidParse applyDigest s ans.prepare ans.now cmd) with
  | .error e => return failed cmd.actuationID cmd.generation bootID (storeFailureCode e)
  | .ok .duplicate => return duplicateResult (← sec .other get) cmd bootID
  | .ok _ => launchP ans cmd bootID targetHash

def admitted (m : LifecycleManager) : Bool := m.available && m.admissionOpen

def applyP (ans : ApplyAnswers) (cmd : ApplyCommand) : Prog Result :=
  if !ans.gate then pure (failed cmd.actuationID cmd.generation "windows-boot-unavailable" "operation_timeout")
  else
    match currentBootID ans.bootID with
    | .error bootID => pure (failed cmd.actuationID cmd.generation bootID "boot_id_unavailable")
    | .ok bootID => do
      let m ← sec .admission get
      if !m.available then return failed cmd.actuationID cmd.generation bootID "pam_unavailable"
      else if !m.admissionOpen then return failed cmd.actuationID cmd.generation bootID "pam_disabled"
      else if (validateApply uuidParse ans.now cmd).isSome then
        return failed cmd.actuationID cmd.generation bootID "invalid_command"
      else
        match ans.pinTarget with
        | none => return failed cmd.actuationID cmd.generation bootID "target_verification_failed"
        | some targetHash => prepareAndLaunchP uuidParse applyDigest ans cmd bootID targetHash

end Apply

section Cleanup

-- cleanupLocked does not look at the flags
def cleanupP (gate : Bool) (ans : CleanupAnswers) (cmd : CleanupCommand) : Prog Result := do
  let result ← (if gate then sec (.cleaned cmd) (cleanupLocked uuidParse ans cmd)
    else pure (failed cmd.actuationID cmd.generation "windows-boot-unavailable" "operation_timeout"))
  record .cleanup cmd.actuationID result
  return result

end Cleanup

section Reconcile

def reconcileEntryP (ans : ReconcileAnswers) (entry : LedgerEntry) : Prog (Result × Bool) :=
  if ans.cancelled entry.actuationID then do
    let result := failed entry.actuationID entry.generation "windows-boot-unavailable" "reconcile_cancelled"
    mark .other entry.actuationID entry.generation
    sec .other (emit result)
    return (result, false)
  else if entry.desiredState = .cleanup then do
    let cmd := cleanupCommandFromEntry entry entry.generation
    let result ← sec (.cleaned cmd) (cleanupLocked uuidParse (ans.cleanup entry.actuationID) cmd)
    record .other entry.actuationID result
    if result.state = .failed then sec .other (emit result)
    return (result, decide (result.state ≠ .failed))
  else do
    let (result, verified) ← sec .other (reconcileActiveLocked ans entry)
    if verified then sec .other (clearUnresolvedThrough entry.actuationID entry.generation)
    else mark .other entry.actuationID entry.generation
    sec .other (emit result)
    return (result, verified)

def reconcileEntriesP (ans : ReconcileAnswers) : List LedgerEntry → Prog (List Result × Bool)
  | [] => pure ([], true)
  | entry :: entries => do
    let (result, verified) ← reconcileEntryP uuidParse ans entry
    let (results, rest) ← reconcileEntriesP ans entries
    return (result :: results, verified && rest)

def timeOutEntriesP : List LedgerEntry → Prog (List Result)
  | [] => pure []
  | entry :: entries => do
    let result := failed entry.actuationID entry.generation "windows-boot-unavailable" "operation_timeout"
    record .other entry.actuationID result
    let results ← timeOutEntriesP entries
    return result :: results

def reconcileListedP (ans : ReconcileAnswers) (entries : List LedgerEntry) : Prog (List Result) :=
  if !ans.gate then timeOutEntriesP entries
  else do
    let (results, verificationAvailable) ← reconcileEntriesP uuidParse ans entries
    sec .other (modify fun m => { m with available := verificationAvailable && m.unresolved.keys.isEmpty })
    return results

def reconcileP (ans : ReconcileAnswers) : Prog (List Result) := do
  sec .other (setAvailable false)
  let m ← sec .other get
  reconcileListedP uuidParse ans (sortedEntries m.store)

end Reconcile

section SetEnabled

def disableEntriesP (ans : EnableAnswers) : List LedgerEntry → Prog (List String)
  | [] => pure []
  | entry :: entries => do
    let generation := if entry.desiredState = .active then entry.generation + 1 else entry.generation
    let cmd := cleanupCommandFromEntry entry generation
    let result ← sec (.cleaned cmd) (cleanupLocked uuidParse (ans.cleanup entry.actuationID) cmd)
    record .other entry.actuationID result
    if result.state = .failed then sec .other (emit result)
    let failures ← disableEntriesP ans entries
    return if result.state = .failed then (entry.actuationID ++ ":" ++ result.failureCode) :: failures else failures

def disableAccountP (ans : EnableAnswers) : Prog (List String) := do
  let m ← sec .other get
  if m.store.loadErr.isSome then do
    mark .other "__account__" 0
    return ["account:ledger_unavailable"]
  else if !m.store.entries.keys.isEmpty then return []
  else
    match currentBootID ans.account.bootID with
    | .error _ => do
      mark .other "__account__" 0
      return ["account:boot_id_unavailable"]
    | .ok bootID => do
      let (_, code, verified) ← sec .other (verifyAccountClean ans.account { bootID := bootID })
      if !verified then do
        mark .other "__account__" 0
        return ["account:" ++ code]
      else do
        sec .other (clearUnresolved "__account__")
        return []

def disableListedP (ans : EnableAnswers) (entries : List LedgerEntry) : Prog (Option String) := do
  let accountFailures ← disableAccountP ans
  let entryFailures ← disableEntriesP uuidParse ans entries
  let m ← sec .other get
  let failures := reportedFailures m (accountFailures ++ entryFailures)
  if !failures.isEmpty then return some ("PAM disable cleanup unverified: " ++ ", ".intercalate failures)
  else do
    sec .other (modify fun m => { m with enabled := false, admissionOpen := false, available := m.unresolved.keys.isEmpty })
    return none

def disableP (ans : EnableAnswers) : Prog (Option String) := do
  sec .other (modify fun m => { m with admissionOpen := false })
  let m ← sec .other get
  disableListedP uuidParse ans (sortedEntries m.store)

-- the answer nil is given while the gate is still held
def enableP : Prog (Option String) := do
  let m ← sec .enableRead get
  if !m.available || !m.unresolved.keys.isEmpty then return some "PAM cleanup remains unresolved"
  else if m.enabled && m.admissionOpen then do
    sec .enabled (pure ())
    return none
  else do
    sec .openAdmission (modify fun m => { m with enabled := true, admissionOpen := true })
    sec .enabled (pure ())
    return none

def setEnabledP (ans : EnableAnswers) (enabled : Bool) : Prog (Option String) :=
  match ans.gate with
  | .error e => do
    mark .setEnabled "__account__" 0
    return some ("PAM lifecycle operation timed out: " ++ e)
  | .ok _ =>
    if enabled then enableP
    else do
      let m ← sec .other get
      if !m.enabled && m.available && m.unresolved.keys.isEmpty then return none else disableP uuidParse ans

end SetEnabled

def acquireLegacyActuationP (gate : Bool) : Prog Bool :=
  if !gate then pure false
  else do
    let m ← sec .other get
    if m.enabled && m.admissionOpen && m.available && m.unresolved.keys.isEmpty then do
      sec .other (pure ())
      return true
    else return false

section Alone

variable {uuidParse : String → Bool} {applyDigest : ApplyCommand → Except String String}

@[simp] lemma sec_alone {α : Type} (label : Label) (x : Op α) : (sec label x).alone = x := rfl

@[simp] lemma mark_alone (origin : Origin) (key : String) (generation : UInt64) :
    (mark origin key generation).alone = markUnresolved key generation := rfl

@[simp] lemma record_alone (origin : Origin) (actuationID : String) (result : Result) :
    (record origin actuationID result).alone = recordCleanupOutcome actuationID result := by
  simp only [record, recordCleanupOutcome]
  split_ifs <;> rfl

section

variable (ans : ApplyAnswers) (cmd : ApplyCommand)

lemma bindAndResumeP_alone (bootID : String) (process : ProcessIdentity) :
    (bindAndResumeP ans cmd bootID process).alone = bindAndResume ans cmd bootID process := by
  simp only [bindAndResumeP, bindAndResume, Program.alone_bind, sec_alone]
  congr 1
  funext r
  rcases r with e | u
  · rfl
  · rcases ans.handoff with _ | (_ | err) <;> rfl

lemma launchP_alone (bootID targetHash : String) :
    (launchP ans cmd bootID targetHash).alone = launch ans cmd bootID targetHash := by
  simp only [launchP, launch]
  cases ans.promote with
  | false => rfl
  | true =>
    cases ans.createSuspended with
    | none => rfl
    | some identity =>
      cases ans.createJob with
      | none => rfl
      | some inheritable =>
        simp only [Bool.not_true, Bool.false_eq_true, if_false]
        split_ifs
        · rfl
        · rfl
        · rfl
        · exact bindAndResumeP_alone ans cmd bootID _

lemma prepareAndLaunchP_alone (bootID targetHash : String) :
    (prepareAndLaunchP uuidParse applyDigest ans cmd bootID targetHash).alone =
      prepareAndLaunch uuidParse applyDigest ans cmd bootID targetHash := by
  simp only [prepareAndLaunchP, prepareAndLaunch, Program.alone_bind, sec_alone]
  congr 1
  funext r
  rcases r with e | (_ | _ | _)
  · rfl
  · exact launchP_alone ans cmd bootID targetHash
  · exact launchP_alone ans cmd bootID targetHash
  · rfl

lemma applyP_alone :
    (applyP uuidParse applyDigest ans cmd).alone = Manager.apply uuidParse applyDigest ans cmd := by
  simp only [applyP, Manager.apply]
  cases ans.gate with
  | false => rfl
  | true =>
    cases currentBootID ans.bootID with
    | error bootID => rfl
    | ok bootID =>
      simp only [Bool.not_true, Bool.false_eq_true, if_false, Program.alone_bind, sec_alone]
      congr 1
      funext m
      split_ifs
      · rfl
      · rfl
      · rfl
      · cases ans.pinTarget with
        | none => rfl
        | some targetHash => exact prepareAndLaunchP_alone ans cmd bootID targetHash

end

lemma cleanupP_alone (gate : Bool) (ans : CleanupAnswers) (cmd : CleanupCommand) :
    (cleanupP uuidParse gate ans cmd).alone = cleanup uuidParse gate ans cmd := by
  cases gate <;> simp [cleanupP, cleanup]

lemma reconcileEntryP_alone (ans : ReconcileAnswers) (entry : LedgerEntry) :
    (reconcileEntryP uuidParse ans entry).alone = reconcileEntry uuidParse ans entry := by
  simp only [reconcileEntryP, reconcileEntry]
  split_ifs
  · simp
  · simp only [Program.alone_bind, sec_alone, record_alone]
    congr 1
    funext result
    congr 1
    funext u
    split_ifs <;> rfl
  · simp only [Program.alone_bind, sec_alone]
    congr 1
    funext r
    split_ifs <;> rfl

lemma reconcileEntriesP_alone (ans : ReconcileAnswers) (entries : List LedgerEntry) :
    (reconcileEntriesP uuidParse ans entries).alone = reconcileEntries uuidParse ans entries := by
  induction entries with
  | nil => rfl
  | cons entry entries ih => simp [reconcileEntriesP, reconcileEntries, reconcileEntryP_alone, ih]

lemma timeOutEntriesP_alone (entries : List LedgerEntry) : (timeOutEntriesP entries).alone = timeOutEntries entries := by
  induction entries with
  | nil => rfl
  | cons entry entries ih => simp [timeOutEntriesP, timeOutEntries, ih]

lemma reconcileP_alone (ans : ReconcileAnswers) : (reconcileP uuidParse ans).alone = reconcile uuidParse ans := by
  simp only [reconcileP, reconcile, Program.alone_bind, sec_alone]
  congr 1
  funext u
  congr 1
  funext m
  simp only [reconcileListedP, reconcileListed]
  split_ifs
  · exact timeOutEntriesP_alone _
  · simp [reconcileEntriesP_alone]

section

variable (ans : EnableAnswers)

lemma disableEntriesP_alone (entries : List LedgerEntry) :
    (disableEntriesP uuidParse ans entries).alone = disableEntries uuidParse ans entries := by
  induction entries with
  | nil => rfl
  | cons entry entries ih =>
    simp only [disableEntriesP, disableEntries, Program.alone_bind, sec_alone, record_alone]
    congr 1
    funext result
    congr 1
    funext u
    split_ifs <;> simp [ih]

lemma disableAccountP_alone : (disableAccountP ans).alone = disableAccount ans := by
  simp only [disableAccountP, disableAccount, Program.alone_bind, sec_alone]
  congr 1
  funext m
  split_ifs
  · rfl
  · rfl
  · cases currentBootID ans.account.bootID with
    | error e => rfl
    | ok bootID =>
      simp only [Program.alone_bind, sec_alone]
      congr 1
      funext r
      split_ifs <;> rfl

lemma disableListedP_alone (entries : List LedgerEntry) :
    (disableListedP uuidParse ans entries).alone = disableListed uuidParse ans entries := by
  simp only [disableListedP, disableListed, Program.alone_bind, sec_alone, disableAccountP_alone, disableEntriesP_alone]
  congr 1
  funext accountFailures
  congr 1
  funext entryFailures
  congr 1
  funext m
  split_ifs <;> rfl

lemma setEnabledP_alone (enabled : Bool) :
    (setEnabledP uuidParse ans enabled).alone = setEnabled uuidParse ans enabled := by
  simp only [setEnabledP, setEnabled]
  cases ans.gate with
  | error e => rfl
  | ok u =>
    cases enabled with
    | true =>
      simp only [if_true, enableP, Program.alone_bind, sec_alone]
      congr 1
      funext m
      split_ifs <;> rfl
    | false =>
      simp only [Bool.false_eq_true, if_false, Program.alone_bind, sec_alone]
      congr 1
      funext m
      split_ifs
      · rfl
      · simp [disableP, disable, disableListedP_alone]

end

end Alone

section System

inductive Call where
  | apply (ans : ApplyAnswers) (cmd : ApplyCommand)
  | cleanup (gate : Bool) (ans : CleanupAnswers) (cmd : CleanupCommand)
  | reconcile (ans : ReconcileAnswers)
  | setEnabled (ans : EnableAnswers) (enabled : Bool)
  | acquireLegacyActuation (gate : Bool)

def Call.inside : Call → Bool
  | .apply ans _ => ans.gate
  | .cleanup gate _ _ => gate
  | .reconcile ans => ans.gate
  | .setEnabled ans _ => ans.gate.isOk
  | .acquireLegacyActuation gate => gate

def Call.program : Call → Prog Unit
  | .apply ans cmd => do let _ ← applyP uuidParse applyDigest ans cmd
  | .cleanup gate ans cmd => do let _ ← cleanupP uuidParse gate ans cmd
  | .reconcile ans => do let _ ← reconcileP uuidParse ans
  | .setEnabled ans enabled => do let _ ← setEnabledP uuidParse ans enabled
  | .acquireLegacyActuation gate => do let _ ← acquireLegacyActuationP gate

abbrev System := Config LifecycleManager Label

/-- A call begins, a call takes its next section, or the agent starts again from the ledger on disk. -/
inductive Step where
  | call (c : Call)
  | advance (i : ℕ)
  | restart (readErr : Option String)

def Call.thread (c : Call) : Thread LifecycleManager Label := ⟨c.inside, c.program uuidParse applyDigest⟩

def step (sys : System) : Step → System
  | .call c => sys.step (.start (c.thread uuidParse applyDigest))
  | .advance i => sys.step (.advance i)
  | .restart readErr => { state := { store := newStore (disk sys.state.trace) readErr, trace := sys.state.trace } }

def run (steps : List Step) : System := steps.foldl (step uuidParse applyDigest) { state := {} }

end System

end Breeze.Pam.Interleaving
