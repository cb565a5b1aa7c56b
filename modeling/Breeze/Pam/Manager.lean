import Breeze.Pam.Ledger

/-! The actuation manager (internal/pamlifetime/manager.go). The answers of Windows, of the elevation account and of the file
system are arguments of each call; what becomes durable and what is done to processes is logged in order. -/

namespace Breeze.Pam.Manager

open Ledger

inductive ResultState where
  | received
  | verifiedActive
  | cleaned
  | failed
  deriving DecidableEq

structure ResultEvidence where
  pid : ℤ := 0
  processCreationTime : Option Time := none
  windowsSessionID : UInt32 := 0
  jobName : String := ""
  jobMemberCount : Option ℤ := none
  accountEnabled : Option Bool := none
  accountInAdministrators : Option Bool := none
  privilegedTokenPresent : Option Bool := none
  jobObjectAbsent : Option Bool := none
  targetHash : String := ""
  bootID : String := ""

structure Result where
  actuationID : String
  generation : UInt64
  state : ResultState
  failureCode : String := ""
  evidence : ResultEvidence := {}

structure JobOwnership where
  name : String
  limitFlags : UInt32 := 0

structure AccountEvidence where
  enabled : Bool
  inAdministrators : Bool

inductive JobError where
  | absent
  | other

inductive ScanError where
  | accountAbsent
  | other

inductive HandoffError where
  | rejected
  | undelivered

inductive Event where
  | wrote (entries : Entries)
  | resumed (actuationID : String) (process : ProcessIdentity)
  | terminated (jobName : String) (answer : Except JobError ℤ)
  | identityChecked (process : ProcessIdentity) (gone : Option Bool)
  | deprovisioned (answer : Option AccountEvidence)
  | verifiedClean (answer : Option AccountEvidence)
  | tokenScanned (answer : Except ScanError Bool)
  | emitted (result : Result)

structure LifecycleManager where
  store : Store := {}
  jobs : AList (fun _ : String => JobOwnership) := ∅
  processes : AList (fun _ : String => ProcessIdentity) := ∅
  enabled : Bool := true
  admissionOpen : Bool := true
  available : Bool := true
  unresolved : AList (fun _ : String => UInt64) := ∅
  trace : List Event := []

abbrev Op := StateM LifecycleManager

def log (e : Event) : Op Unit := modify fun m => { m with trace := m.trace ++ [e] }

def onStore {α : Type} (f : Store → Outcome α) : Op (Except StoreError α) := fun m =>
  ((f m.store).value, { m with store := (f m.store).store, trace := m.trace ++ (f m.store).writes.map .wrote })

section Bookkeeping

def markUnresolved (key : String) (generation : UInt64) : Op Unit := modify fun m =>
  let raises :=
    match m.unresolved.lookup key with
    | some current => decide (generation > current)
    | none => true
  { m with
    unresolved := if raises then m.unresolved.insert key generation else m.unresolved
    available := false
    admissionOpen := false }

def clearUnresolvedThrough (key : String) (generation : UInt64) : Op Unit := modify fun m =>
  let covered :=
    match m.unresolved.lookup key with
    | some unresolvedGeneration => decide (generation ≥ unresolvedGeneration)
    | none => false
  let unresolved := if covered then m.unresolved.erase key else m.unresolved
  { m with unresolved := unresolved, available := m.available || unresolved.keys.isEmpty }

def clearUnresolved (key : String) : Op Unit := modify fun m =>
  { m with unresolved := m.unresolved.erase key, available := m.available || (m.unresolved.erase key).keys.isEmpty }

def setAvailable (available : Bool) : Op Unit := modify fun m => { m with available := available }

def emit (result : Result) : Op Unit := log (.emitted result)

def recordCleanupOutcome (actuationID : String) (result : Result) : Op Unit :=
  if result.state = .cleaned then clearUnresolvedThrough actuationID result.generation
  else markUnresolved actuationID result.generation

def failed (actuationID : String) (generation : UInt64) (bootID code : String) : Result where
  actuationID := actuationID
  generation := generation
  state := .failed
  failureCode := code
  evidence := { bootID := bootID }

def isSpace (c : Char) : Bool := c.isWhitespace

def trimSpace (s : String) : String :=
  String.ofList (((s.toList.dropWhile isSpace).reverse.dropWhile isSpace).reverse)

def currentBootID (answer : Except String String) : Except String String :=
  match answer with
  | .error _ => .error "windows-boot-unavailable"
  | .ok id => if trimSpace id = "" then .error "windows-boot-unavailable" else .ok (trimSpace id)

def storeFailureCode : StoreError → String
  | .persist _ => "ledger_persist_failed"
  | .unavailable _ => "ledger_unavailable"
  | .rejected _ => "invalid_command"

def receivedHandoffFailureCode : HandoffError → String
  | .rejected => "received_observation_rejected"
  | .undelivered => "received_observation_handoff_failed"

def jobName (actuationID : String) (generation : UInt64) : String :=
  "Global\\Breeze.PAM." ++ actuationID.toLower ++ ".g" ++ toString generation.toNat

def evidenceFromEntry (entry : LedgerEntry) : ResultEvidence where
  pid := entry.pid
  processCreationTime := entry.processCreationTime
  jobName := entry.jobName
  bootID := entry.bootID

def evidenceFromProcess (process : ProcessIdentity) (members : Option ℤ) : ResultEvidence where
  pid := process.pid
  processCreationTime := some process.processCreationTime
  windowsSessionID := process.windowsSessionID
  jobName := process.jobName
  jobMemberCount := members
  targetHash := process.targetHash
  bootID := process.bootID

end Bookkeeping

variable (uuidParse : String → Bool) (applyDigest : ApplyCommand → Except String String)

section Apply

structure ApplyAnswers where
  gate : Bool
  bootID : Except String String
  now : Time
  pinTarget : Option String
  prepare : PersistAnswers
  promote : Bool
  createSuspended : Option ProcessIdentity
  createJob : Option Bool
  setJobLimits : Bool
  assignProcess : Bool
  bind : PersistAnswers
  /-- The caller's handoff of the received observation, if it gave one, and its error. -/
  handoff : Option (Option HandoffError)
  resume : Bool
  verifyActive : Option ℤ
  deprovision : Option AccountEvidence

def killOnJobClose : UInt32 := 0x2000

-- the account was promoted, so leaving without success takes it back
def launchFailed (ans : ApplyAnswers) (cmd : ApplyCommand) (bootID code : String) : Op Result := do
  log (.deprovisioned ans.deprovision)
  return failed cmd.actuationID cmd.generation bootID code

def resumeTarget (ans : ApplyAnswers) (cmd : ApplyCommand) (bootID : String) (process : ProcessIdentity) : Op Result := do
  log (.resumed cmd.actuationID process)
  if !ans.resume then launchFailed ans cmd bootID "resume_failed"
  else
    match ans.verifyActive with
    | none => launchFailed ans cmd bootID "active_verification_failed"
    | some members =>
      if members < 1 then launchFailed ans cmd bootID "active_verification_failed"
      else do
        let verified : Result :=
          { actuationID := cmd.actuationID, generation := cmd.generation, state := .verifiedActive,
            evidence := evidenceFromProcess process (some members) }
        emit verified
        modify fun m =>
          { m with
            jobs := m.jobs.insert cmd.actuationID { name := process.jobName, limitFlags := killOnJobClose }
            processes := m.processes.insert cmd.actuationID process }
        return verified

-- the received observation goes out while the target is still suspended
def bindAndResume (ans : ApplyAnswers) (cmd : ApplyCommand) (bootID : String) (process : ProcessIdentity) : Op Result := do
  match ← onStore (fun s => bindProcess s ans.bind ans.now cmd.actuationID cmd.generation process) with
  | .error _ => launchFailed ans cmd bootID "persist_process_failed"
  | .ok _ =>
    match ans.handoff with
    | some (some err) => do
      markUnresolved cmd.actuationID cmd.generation
      launchFailed ans cmd bootID (receivedHandoffFailureCode err)
    | some none => resumeTarget ans cmd bootID process
    | none => do
      emit { actuationID := cmd.actuationID, generation := cmd.generation, state := .received,
             evidence := evidenceFromProcess process none }
      resumeTarget ans cmd bootID process

def launch (ans : ApplyAnswers) (cmd : ApplyCommand) (bootID targetHash : String) : Op Result :=
  if !ans.promote then pure (failed cmd.actuationID cmd.generation bootID "account_promotion_failed")
  else
    match ans.createSuspended with
    | none => launchFailed ans cmd bootID "create_process_failed"
    | some identity =>
      match ans.createJob with
      | none => launchFailed ans cmd bootID "create_job_failed"
      | some inheritable =>
        if inheritable then launchFailed ans cmd bootID "inheritable_job_handle"
        else if !ans.setJobLimits then launchFailed ans cmd bootID "configure_job_failed"
        else if !ans.assignProcess then launchFailed ans cmd bootID "assign_job_failed"
        else
          bindAndResume ans cmd bootID
            { identity with
              targetHash := targetHash
              bootID := bootID
              jobName := jobName cmd.actuationID cmd.generation }

def duplicateResult (m : LifecycleManager) (cmd : ApplyCommand) (bootID : String) : Result :=
  let evidence := ((m.store.entries.lookup cmd.actuationID).map evidenceFromEntry).getD {}
  { actuationID := cmd.actuationID, generation := cmd.generation, state := .received,
    evidence := if evidence.bootID = "" then { evidence with bootID := bootID } else evidence }

def prepareAndLaunch (ans : ApplyAnswers) (cmd : ApplyCommand) (bootID targetHash : String) : Op Result := do
  match ← onStore (fun s => prepareApply uuidParse applyDigest s ans.prepare ans.now cmd) with
  | .error e => return failed cmd.actuationID cmd.generation bootID (storeFailureCode e)
  | .ok .duplicate => return duplicateResult (← get) cmd bootID
  | .ok _ => launch ans cmd bootID targetHash

def apply (ans : ApplyAnswers) (cmd : ApplyCommand) : Op Result :=
  if !ans.gate then pure (failed cmd.actuationID cmd.generation "windows-boot-unavailable" "operation_timeout")
  else
    match currentBootID ans.bootID with
    | .error bootID => pure (failed cmd.actuationID cmd.generation bootID "boot_id_unavailable")
    | .ok bootID => do
      let m ← get
      if !m.available then return failed cmd.actuationID cmd.generation bootID "pam_unavailable"
      else if !m.admissionOpen then return failed cmd.actuationID cmd.generation bootID "pam_disabled"
      else if (validateApply uuidParse ans.now cmd).isSome then
        return failed cmd.actuationID cmd.generation bootID "invalid_command"
      else
        match ans.pinTarget with
        | none => return failed cmd.actuationID cmd.generation bootID "target_verification_failed"
        | some targetHash => prepareAndLaunch uuidParse applyDigest ans cmd bootID targetHash

end Apply

section Cleanup

structure CleanupAnswers where
  bootID : Except String String
  now : Time
  prepare : PersistAnswers
  terminate : Except JobError ℤ
  identityGone : Option Bool
  deprovision : Option AccountEvidence
  verifyClean : Option AccountEvidence
  tokenScan : Except ScanError Bool
  clear : PersistAnswers

def recordedProcess (entry : LedgerEntry) : ProcessIdentity where
  pid := entry.pid
  processCreationTime := entry.processCreationTime.getD 0
  jobName := entry.jobName
  bootID := entry.bootID

def hasAnyProcessIdentity (entry : LedgerEntry) : Bool :=
  entry.pid != 0 || entry.jobName != "" || entry.processCreationTime.isSome

def hasCompleteProcessIdentity (entry : LedgerEntry) : Bool :=
  decide (entry.pid > 0) && entry.jobName != "" && entry.processCreationTime.isSome && entry.bootID != ""

def endJob (ans : CleanupAnswers) (entry : LedgerEntry) (bootID : String) (ownsJob : Bool) : Op (Except String Bool) :=
  if hasAnyProcessIdentity entry && !hasCompleteProcessIdentity entry then pure (.error "job_cleanup_failed")
  else if hasCompleteProcessIdentity entry && entry.bootID == bootID then do
    log (.terminated entry.jobName ans.terminate)
    match ans.terminate with
    | .ok members => return if members = 0 then .ok false else .error "job_cleanup_failed"
    | .error .other => return .error "job_cleanup_failed"
    | .error .absent =>
      if ownsJob then return .error "job_cleanup_failed"
      else do
        log (.identityChecked (recordedProcess entry) ans.identityGone)
        match ans.identityGone with
        | none => return .error "job_cleanup_failed"
        | some false => return .error "job_absent_process_alive"
        | some true => return .ok true
  else pure (.ok false)

def accountClean (deprovisioned verified : AccountEvidence) : Bool :=
  !verified.enabled && !verified.inAdministrators && !deprovisioned.enabled && !deprovisioned.inAdministrators

def retireAccount (ans : CleanupAnswers) : Op (Except String AccountEvidence) := do
  log (.deprovisioned ans.deprovision)
  match ans.deprovision with
  | none => return .error "account_cleanup_failed"
  | some deprovisioned => do
    log (.verifiedClean ans.verifyClean)
    match ans.verifyClean with
    | none => return .error "account_verification_failed"
    | some verified =>
      if !accountClean deprovisioned verified then return .error "account_verification_failed"
      else do
        log (.tokenScanned ans.tokenScan)
        match ans.tokenScan with
        | .ok false => return .ok verified
        | _ => return .error "privileged_token_verification_failed"

def cleanedEvidence (entry : LedgerEntry) (bootID : String) (verified : AccountEvidence) (jobObjectAbsent : Bool) :
    ResultEvidence :=
  { evidenceFromEntry entry with
    bootID := bootID
    jobMemberCount := some 0
    accountEnabled := some verified.enabled
    accountInAdministrators := some verified.inAdministrators
    privilegedTokenPresent := some false
    jobObjectAbsent := if jobObjectAbsent then some true else none }

def proveClean (ans : CleanupAnswers) (cmd : CleanupCommand) (bootID : String) (entry : LedgerEntry) : Op Result := do
  let m ← get
  match ← endJob ans entry bootID (m.jobs.lookup cmd.actuationID).isSome with
  | .error code => return failed cmd.actuationID cmd.generation bootID code
  | .ok jobObjectAbsent =>
    match ← retireAccount ans with
    | .error code => return failed cmd.actuationID cmd.generation bootID code
    | .ok verified =>
      match ← onStore (fun s => clearProcessIdentity s ans.clear ans.now cmd.actuationID cmd.generation) with
      | .error _ => return failed cmd.actuationID cmd.generation bootID "persist_cleanup_evidence_failed"
      | .ok _ => do
        let result : Result :=
          { actuationID := cmd.actuationID, generation := cmd.generation, state := .cleaned,
            evidence := cleanedEvidence entry bootID verified jobObjectAbsent }
        emit result
        modify fun m => { m with jobs := m.jobs.erase cmd.actuationID, processes := m.processes.erase cmd.actuationID }
        return result

def cleanupLocked (ans : CleanupAnswers) (cmd : CleanupCommand) : Op Result :=
  match currentBootID ans.bootID with
  | .error bootID => pure (failed cmd.actuationID cmd.generation bootID "boot_id_unavailable")
  | .ok bootID => do
    match ← onStore (fun s => prepareCleanup uuidParse s ans.prepare ans.now cmd) with
    | .error e => return failed cmd.actuationID cmd.generation bootID (storeFailureCode e)
    | .ok _ =>
      match (← get).store.entries.lookup cmd.actuationID with
      | none => return failed cmd.actuationID cmd.generation bootID "missing_tombstone"
      | some entry => proveClean ans cmd bootID entry

def cleanup (gate : Bool) (ans : CleanupAnswers) (cmd : CleanupCommand) : Op Result := do
  let result ← (if gate then cleanupLocked uuidParse ans cmd
    else pure (failed cmd.actuationID cmd.generation "windows-boot-unavailable" "operation_timeout"))
  recordCleanupOutcome cmd.actuationID result
  return result

def cleanupCommandFromEntry (entry : LedgerEntry) (generation : UInt64) : CleanupCommand where
  protocolVersion := 2
  actuationID := entry.actuationID
  generation := generation
  requestID := entry.requestID
  deviceID := entry.deviceID
  orgID := entry.orgID

end Cleanup

section Account

structure AccountAnswers where
  bootID : Except String String
  deprovision : Option AccountEvidence
  verifyClean : Option AccountEvidence
  tokenScan : Except ScanError Bool

-- a failed token scan is tolerated only where nothing was ever actuated
def verifyAccountClean (ans : AccountAnswers) (evidence : ResultEvidence) : Op (ResultEvidence × String × Bool) := do
  log (.deprovisioned ans.deprovision)
  match ans.deprovision with
  | none => return (evidence, "account_cleanup_failed", false)
  | some deprovisioned => do
    log (.verifiedClean ans.verifyClean)
    match ans.verifyClean with
    | none => return (evidence, "account_verification_failed", false)
    | some verified =>
      if !accountClean deprovisioned verified then return (evidence, "account_verification_failed", false)
      else do
        let m ← get
        let neverActuated := m.store.entries.keys.isEmpty && m.store.loadErr.isNone
        log (.tokenScanned ans.tokenScan)
        let clean : ResultEvidence := { evidence with accountEnabled := some false, accountInAdministrators := some false }
        match ans.tokenScan with
        | .ok true => return (evidence, "privileged_token_verification_failed", false)
        | .ok false => return ({ clean with privilegedTokenPresent := some false }, "", true)
        | .error .accountAbsent =>
          return if neverActuated then (clean, "", true) else (evidence, "privileged_token_verification_failed", false)
        | .error .other => return (evidence, "privileged_token_verification_failed", false)

end Account

section Reconcile

structure ReconcileAnswers where
  gate : Bool
  cancelled : String → Bool
  cleanup : String → CleanupAnswers
  account : String → AccountAnswers
  reopen : String → Option ℤ

def reconcileActiveLocked (ans : ReconcileAnswers) (entry : LedgerEntry) : Op (Result × Bool) :=
  match currentBootID (ans.account entry.actuationID).bootID with
  | .error bootID => pure (failed entry.actuationID entry.generation bootID "boot_id_unavailable", false)
  | .ok bootID =>
    let evidence : ResultEvidence := { evidenceFromEntry entry with bootID := bootID }
    let outcome (state : ResultState) (code : String) (evidence : ResultEvidence) : Result :=
      { actuationID := entry.actuationID, generation := entry.generation, state := state, failureCode := code,
        evidence := evidence }
    if !hasCompleteProcessIdentity entry then
      pure (outcome .failed "reconcile_identity_unavailable" evidence, false)
    else
      match (if entry.bootID = bootID then ans.reopen entry.actuationID else none) with
      | some members =>
        if members > 0 then do
          modify fun m => { m with jobs := m.jobs.insert entry.actuationID { name := entry.jobName } }
          return (outcome .verifiedActive "" { evidence with jobMemberCount := some members }, true)
        else vanished outcome bootID evidence
      | none => vanished outcome bootID evidence
where
  vanished (outcome : ResultState → String → ResultEvidence → Result) (bootID : String) (evidence : ResultEvidence) :
      Op (Result × Bool) := do
    let (evidence, code, verified) ← verifyAccountClean (ans.account entry.actuationID) evidence
    let code :=
      if code ≠ "" then code else if entry.bootID ≠ bootID then "reboot_process_vanished" else "active_job_unavailable"
    return (outcome .failed code evidence, verified)

def reconcileEntry (ans : ReconcileAnswers) (entry : LedgerEntry) : Op (Result × Bool) :=
  if ans.cancelled entry.actuationID then do
    let result := failed entry.actuationID entry.generation "windows-boot-unavailable" "reconcile_cancelled"
    markUnresolved entry.actuationID entry.generation
    emit result
    return (result, false)
  else if entry.desiredState = .cleanup then do
    let result ← cleanupLocked uuidParse (ans.cleanup entry.actuationID) (cleanupCommandFromEntry entry entry.generation)
    recordCleanupOutcome entry.actuationID result
    if result.state = .failed then emit result
    return (result, decide (result.state ≠ .failed))
  else do
    let (result, verified) ← reconcileActiveLocked ans entry
    if verified then clearUnresolvedThrough entry.actuationID entry.generation
    else markUnresolved entry.actuationID entry.generation
    emit result
    return (result, verified)

def reconcileEntries (ans : ReconcileAnswers) : List LedgerEntry → Op (List Result × Bool)
  | [] => pure ([], true)
  | entry :: entries => do
    let (result, verified) ← reconcileEntry uuidParse ans entry
    let (results, rest) ← reconcileEntries ans entries
    return (result :: results, verified && rest)

def timeOutEntries : List LedgerEntry → Op (List Result)
  | [] => pure []
  | entry :: entries => do
    let result := failed entry.actuationID entry.generation "windows-boot-unavailable" "operation_timeout"
    recordCleanupOutcome entry.actuationID result
    let results ← timeOutEntries entries
    return result :: results

def reconcileListed (ans : ReconcileAnswers) (entries : List LedgerEntry) : Op (List Result) :=
  if !ans.gate then timeOutEntries entries
  else do
    let (results, verificationAvailable) ← reconcileEntries uuidParse ans entries
    modify fun m => { m with available := verificationAvailable && m.unresolved.keys.isEmpty }
    return results

def reconcile (ans : ReconcileAnswers) : Op (List Result) := do
  setAvailable false
  let m ← get
  reconcileListed uuidParse ans (sortedEntries m.store)

end Reconcile

section SetEnabled

structure EnableAnswers where
  gate : Except String Unit
  account : AccountAnswers
  cleanup : String → CleanupAnswers

def disableEntries (ans : EnableAnswers) : List LedgerEntry → Op (List String)
  | [] => pure []
  | entry :: entries => do
    let generation := if entry.desiredState = .active then entry.generation + 1 else entry.generation
    let result ← cleanupLocked uuidParse (ans.cleanup entry.actuationID) (cleanupCommandFromEntry entry generation)
    recordCleanupOutcome entry.actuationID result
    if result.state = .failed then emit result
    let failures ← disableEntries ans entries
    return if result.state = .failed then (entry.actuationID ++ ":" ++ result.failureCode) :: failures else failures

-- an unreadable ledger has no entries either, so it is looked at first
def disableAccount (ans : EnableAnswers) : Op (List String) := do
  let m ← get
  if m.store.loadErr.isSome then do
    markUnresolved "__account__" 0
    return ["account:ledger_unavailable"]
  else if !m.store.entries.keys.isEmpty then return []
  else
    match currentBootID ans.account.bootID with
    | .error _ => do
      markUnresolved "__account__" 0
      return ["account:boot_id_unavailable"]
    | .ok bootID => do
      let (_, code, verified) ← verifyAccountClean ans.account { bootID := bootID }
      if !verified then do
        markUnresolved "__account__" 0
        return ["account:" ++ code]
      else do
        clearUnresolved "__account__"
        return []

def reportedFailures (m : LifecycleManager) (failures : List String) : List String :=
  if !m.unresolved.keys.isEmpty && failures.isEmpty then ["unresolved_cleanup_evidence"] else failures

def disableListed (ans : EnableAnswers) (entries : List LedgerEntry) : Op (Option String) := do
  let accountFailures ← disableAccount ans
  let entryFailures ← disableEntries uuidParse ans entries
  let m ← get
  let failures := reportedFailures m (accountFailures ++ entryFailures)
  if !failures.isEmpty then return some ("PAM disable cleanup unverified: " ++ ", ".intercalate failures)
  else do
    modify fun m => { m with enabled := false, admissionOpen := false, available := m.unresolved.keys.isEmpty }
    return none

def disable (ans : EnableAnswers) : Op (Option String) := do
  modify fun m => { m with admissionOpen := false }
  let m ← get
  disableListed uuidParse ans (sortedEntries m.store)

def setEnabled (ans : EnableAnswers) (enabled : Bool) : Op (Option String) :=
  match ans.gate with
  | .error e => do
    markUnresolved "__account__" 0
    return some ("PAM lifecycle operation timed out: " ++ e)
  | .ok _ => do
    let m ← get
    if enabled then
      if !m.available || !m.unresolved.keys.isEmpty then return some "PAM cleanup remains unresolved"
      else if m.enabled && m.admissionOpen then return none
      else do
        modify fun m => { m with enabled := true, admissionOpen := true }
        return none
    else if !m.enabled && m.available && m.unresolved.keys.isEmpty then return none
    else disable uuidParse ans

end SetEnabled

end Breeze.Pam.Manager
