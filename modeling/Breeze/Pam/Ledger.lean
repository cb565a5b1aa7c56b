import Mathlib.Data.List.AList
import Mathlib.Tactic

/-! The durable actuation ledger (internal/pamlifetime/types.go, internal/pamlifetime/store.go). A store keeps the entries in
memory and writes the whole ledger with every change; every primitive of a write may fail. -/

namespace Breeze.Pam.Ledger

abbrev Time := ℤ

inductive DesiredState where
  | active
  | cleanup
  deriving DecidableEq

structure ApplyCommand where
  protocolVersion : ℤ
  actuationID : String
  generation : UInt64
  requestID : String
  deviceID : String
  orgID : String
  targetPath : String
  targetHash : Option String
  subjectUsername : String
  expiresAt : Time
  serverTime : Time
  maxRemainingLifetimeMS : ℤ

structure CleanupCommand where
  protocolVersion : ℤ
  actuationID : String
  generation : UInt64
  requestID : String
  deviceID : String
  orgID : String

structure LedgerEntry where
  actuationID : String
  requestID : String
  deviceID : String
  orgID : String
  generation : UInt64
  desiredState : DesiredState
  pid : ℤ := 0
  processCreationTime : Option Time := none
  jobName : String := ""
  bootID : String := ""
  createdAt : Time
  updatedAt : Time
  boundCommandDigest : String := ""
  deriving DecidableEq

structure ProcessIdentity where
  pid : ℤ := 0
  processCreationTime : Time := 0
  windowsSessionID : UInt32 := 0
  targetHash : String := ""
  jobName : String := ""
  bootID : String := ""
  deriving DecidableEq

abbrev Entries := AList (fun _ : String => LedgerEntry)

structure Store where
  entries : Entries := ∅
  loadErr : Option String := none

inductive StoreError where
  | persist (msg : String)
  | unavailable (msg : String)
  | rejected (msg : String)
  deriving DecidableEq

inductive Decision where
  | apply
  | cleanup
  | duplicate
  deriving DecidableEq

structure PersistAnswers where
  mkdirAll : Option String := none
  chmodDir : Option String := none
  marshal : Option String := none
  createTemp : Option String := none
  chmodTemp : Option String := none
  write : Option String := none
  sync : Option String := none
  close : Option String := none
  replaceFile : Option String := none
  chmodFile : Option String := none

def persistSteps (a : PersistAnswers) : List (String × Option String) :=
  [("create PAM lifetime ledger directory: ", a.mkdirAll), ("secure PAM lifetime ledger directory: ", a.chmodDir),
    ("encode PAM lifetime ledger: ", a.marshal), ("create PAM lifetime ledger temporary file: ", a.createTemp),
    ("secure PAM lifetime ledger temporary file: ", a.chmodTemp), ("write PAM lifetime ledger: ", a.write),
    ("flush PAM lifetime ledger: ", a.sync), ("close PAM lifetime ledger: ", a.close),
    ("replace PAM lifetime ledger: ", a.replaceFile)]

def firstError (steps : List (String × Option String)) : Option String :=
  steps.findSome? (fun s => s.2.map (s.1 ++ ·))

def persistLocked (a : PersistAnswers) (entries : Entries) : List Entries × Option String :=
  match firstError (persistSteps a) with
  | some e => ([], some e)
  | none => ([entries], a.chmodFile.map ("secure PAM lifetime ledger: " ++ ·))

structure Outcome (α : Type) where
  value : Except StoreError α
  store : Store
  writes : List Entries

def refuse {α : Type} (s : Store) (e : StoreError) : Outcome α := { value := .error e, store := s, writes := [] }

def reject {α : Type} (s : Store) (msg : String) : Outcome α := refuse s (.rejected msg)

def replaceLocked {α : Type} (s : Store) (a : PersistAnswers) (key : String) (next : LedgerEntry) (done : α) : Outcome α :=
  let entries := s.entries.insert key next
  match persistLocked a entries with
  | (writes, none) => { value := .ok done, store := { s with entries := entries }, writes := writes }
  | (writes, some e) =>
    let restored :=
      match s.entries.lookup key with
      | some previous => entries.insert key previous
      | none => entries.erase key
    { value := .error (.persist ("pam lifetime ledger persist failed: " ++ e)),
      store := { s with entries := restored }, writes := writes }

section Checks

-- github.com/google/uuid's Parse is a parameter
variable (uuidParse : String → Bool)

def validateIdentity (protocol : ℤ) (values : List String) : Option String :=
  if protocol ≠ 2 then some "unsupported PAM lifetime protocol version"
  else if values.all uuidParse then none
  else some "PAM lifetime identity must be a UUID"

def millisecond : ℤ := 1000000

def maxInt64 : ℤ := 9223372036854775807

def validateApply (now : Time) (cmd : ApplyCommand) : Option String :=
  match validateIdentity uuidParse cmd.protocolVersion [cmd.actuationID, cmd.requestID, cmd.deviceID, cmd.orgID] with
  | some e => some e
  | none =>
    if cmd.generation = 0 then some "generation must be positive"
    else if cmd.targetPath = "" ∨ cmd.subjectUsername = "" then some "target path and subject username are required"
    else if cmd.serverTime = 0 ∨ cmd.expiresAt = 0 ∨ cmd.maxRemainingLifetimeMS ≤ 0 then some "lifetime bounds are required"
    else if cmd.maxRemainingLifetimeMS > maxInt64 / millisecond then
      some "maximum remaining lifetime overflows local duration"
    else if ¬ cmd.expiresAt > now then some "command is expired"
    else if cmd.expiresAt > cmd.serverTime + cmd.maxRemainingLifetimeMS * millisecond then
      some "command exceeds maximum remaining lifetime"
    else none

def matchIdentity (entry : LedgerEntry) (requestID deviceID orgID : String) : Option String :=
  if entry.requestID ≠ requestID ∨ entry.deviceID ≠ deviceID ∨ entry.orgID ≠ orgID then
    some "PAM lifetime identity does not match durable ledger"
  else none

end Checks

section Operations

variable (uuidParse : String → Bool) (applyDigest : ApplyCommand → Except String String)

def activeEntry (cmd : ApplyCommand) (digest : String) (now : Time) : LedgerEntry where
  actuationID := cmd.actuationID
  requestID := cmd.requestID
  deviceID := cmd.deviceID
  orgID := cmd.orgID
  generation := cmd.generation
  desiredState := .active
  createdAt := now
  updatedAt := now
  boundCommandDigest := digest

def prepareApply (s : Store) (a : PersistAnswers) (now : Time) (cmd : ApplyCommand) : Outcome Decision :=
  match validateApply uuidParse now cmd with
  | some e => reject s e
  | none =>
    match applyDigest cmd with
    | .error e => reject s ("encode bound PAM lifetime command: " ++ e)
    | .ok digest =>
      match s.loadErr with
      | some e => refuse s (.unavailable e)
      | none =>
        match s.entries.lookup cmd.actuationID with
        | some previous =>
          match matchIdentity previous cmd.requestID cmd.deviceID cmd.orgID with
          | some e => reject s e
          | none =>
            if previous.desiredState = .cleanup then reject s "apply rejected after durable cleanup tombstone"
            else if cmd.generation < previous.generation then reject s "apply generation is stale"
            else if cmd.generation = previous.generation then
              if previous.boundCommandDigest ≠ digest then reject s "equal apply generation has different bound content"
              else { value := .ok .duplicate, store := s, writes := [] }
            else reject s "active generation must be cleaned before replacement"
        | none => replaceLocked s a cmd.actuationID (activeEntry cmd digest now) .apply

-- the tombstone keeps the process identity of the entry it replaces
def tombstone (cmd : CleanupCommand) (previous : Option LedgerEntry) (now : Time) : LedgerEntry where
  actuationID := cmd.actuationID
  requestID := cmd.requestID
  deviceID := cmd.deviceID
  orgID := cmd.orgID
  generation := cmd.generation
  desiredState := .cleanup
  pid := (previous.map (·.pid)).getD 0
  processCreationTime := previous.bind (·.processCreationTime)
  jobName := (previous.map (·.jobName)).getD ""
  bootID := (previous.map (·.bootID)).getD ""
  createdAt := (previous.map (·.createdAt)).getD now
  updatedAt := now

def prepareCleanup (s : Store) (a : PersistAnswers) (now : Time) (cmd : CleanupCommand) : Outcome Decision :=
  match validateIdentity uuidParse cmd.protocolVersion [cmd.actuationID, cmd.requestID, cmd.deviceID, cmd.orgID] with
  | some e => reject s e
  | none =>
    match s.loadErr with
    | some e => refuse s (.unavailable e)
    | none =>
      match s.entries.lookup cmd.actuationID with
      | some previous =>
        match matchIdentity previous cmd.requestID cmd.deviceID cmd.orgID with
        | some e => reject s e
        | none =>
          if cmd.generation < previous.generation then reject s "cleanup generation is stale"
          else if cmd.generation = previous.generation then
            if previous.desiredState = .cleanup then { value := .ok .duplicate, store := s, writes := [] }
            else reject s "cleanup generation must exceed active generation"
          else replaceLocked s a cmd.actuationID (tombstone cmd (some previous) now) .cleanup
      | none => replaceLocked s a cmd.actuationID (tombstone cmd none now) .cleanup

end Operations

def bindProcess (s : Store) (a : PersistAnswers) (now : Time) (actuationID : String) (generation : UInt64)
    (process : ProcessIdentity) : Outcome Unit :=
  match s.loadErr with
  | some e => refuse s (.unavailable e)
  | none =>
    match s.entries.lookup actuationID with
    | none => reject s "cannot bind process to non-current active generation"
    | some entry =>
      if entry.desiredState ≠ .active ∨ entry.generation ≠ generation then
        reject s "cannot bind process to non-current active generation"
      else
        replaceLocked s a actuationID
          { entry with
            pid := process.pid
            processCreationTime := some process.processCreationTime
            jobName := process.jobName
            bootID := process.bootID
            updatedAt := now } ()

def clearProcessIdentity (s : Store) (a : PersistAnswers) (now : Time) (actuationID : String) (generation : UInt64) :
    Outcome Unit :=
  match s.loadErr with
  | some e => refuse s (.unavailable e)
  | none =>
    match s.entries.lookup actuationID with
    | none => reject s "cannot clear process identity from non-current cleanup tombstone"
    | some entry =>
      if entry.desiredState ≠ .cleanup ∨ entry.generation ≠ generation then
        reject s "cannot clear process identity from non-current cleanup tombstone"
      else
        replaceLocked s a actuationID
          { entry with pid := 0, processCreationTime := none, jobName := "", bootID := "", updatedAt := now } ()

def sortedEntries (s : Store) : List LedgerEntry :=
  (s.entries.entries.map (·.2)).mergeSort (fun a b => decide (a.actuationID ≤ b.actuationID))

/-- What NewStore has after a start. `file` is the ledger on disk, if there is one, and `readErr` an error of reading it. -/
def newStore (file : Option Entries) (readErr : Option String) : Store :=
  match readErr with
  | some e => { loadErr := some ("pam lifetime ledger unavailable: " ++ e) }
  | none => { entries := file.getD ∅ }

section Cases

variable {uuidParse : String → Bool} {applyDigest : ApplyCommand → Except String String} {s : Store} {a : PersistAnswers}
  {now : Time}

lemma matchIdentity_eq {e : LedgerEntry} {requestID deviceID orgID : String}
    (h : matchIdentity e requestID deviceID orgID = none) :
    e.requestID = requestID ∧ e.deviceID = deviceID ∧ e.orgID = orgID := by
  simpa [matchIdentity, not_or] using h

inductive PrepareApplyCases (uuidParse : String → Bool) (s : Store) (a : PersistAnswers) (now : Time) (cmd : ApplyCommand) :
    Outcome Decision → Prop
  | refused (e : StoreError) : PrepareApplyCases uuidParse s a now cmd (refuse s e)
  | duplicate (previous : LedgerEntry) (hl : s.loadErr = none) (he : s.entries.lookup cmd.actuationID = some previous)
      (hactive : previous.desiredState = .active) (hgen : previous.generation = cmd.generation)
      (hids : previous.requestID = cmd.requestID ∧ previous.deviceID = cmd.deviceID ∧ previous.orgID = cmd.orgID) :
      PrepareApplyCases uuidParse s a now cmd { value := .ok .duplicate, store := s, writes := [] }
  | recorded (digest : String) (hl : s.loadErr = none) (he : s.entries.lookup cmd.actuationID = none)
      (hv : validateApply uuidParse now cmd = none) :
      PrepareApplyCases uuidParse s a now cmd (replaceLocked s a cmd.actuationID (activeEntry cmd digest now) .apply)

lemma prepareApply_cases (cmd : ApplyCommand) :
    PrepareApplyCases uuidParse s a now cmd (prepareApply uuidParse applyDigest s a now cmd) := by
  simp only [prepareApply]
  cases hv : validateApply uuidParse now cmd with
  | some e => exact .refused _
  | none =>
    cases applyDigest cmd with
    | error e => exact .refused _
    | ok digest =>
      cases hl : s.loadErr with
      | some e => exact .refused _
      | none =>
        cases he : s.entries.lookup cmd.actuationID with
        | none => exact .recorded digest hl he hv
        | some previous =>
          dsimp only
          cases hm : matchIdentity previous cmd.requestID cmd.deviceID cmd.orgID with
          | some e => exact .refused _
          | none =>
            dsimp only
            split_ifs with hclean hstale hequal hdigest
            · exact .refused _
            · exact .refused _
            · exact .refused _
            · have hactive : previous.desiredState = .active := by
                cases hd : previous.desiredState with
                | active => rfl
                | cleanup => exact absurd hd hclean
              exact .duplicate previous hl he hactive hequal.symm (matchIdentity_eq hm)
            · exact .refused _

inductive PrepareCleanupCases (uuidParse : String → Bool) (s : Store) (a : PersistAnswers) (now : Time) (cmd : CleanupCommand) :
    Outcome Decision → Prop
  | refused (e : StoreError) : PrepareCleanupCases uuidParse s a now cmd (refuse s e)
  | duplicate (previous : LedgerEntry) (hl : s.loadErr = none) (he : s.entries.lookup cmd.actuationID = some previous)
      (hclean : previous.desiredState = .cleanup) (hgen : previous.generation = cmd.generation)
      (hids : previous.requestID = cmd.requestID ∧ previous.deviceID = cmd.deviceID ∧ previous.orgID = cmd.orgID) :
      PrepareCleanupCases uuidParse s a now cmd { value := .ok .duplicate, store := s, writes := [] }
  | recorded (hl : s.loadErr = none)
      (hv : validateIdentity uuidParse cmd.protocolVersion [cmd.actuationID, cmd.requestID, cmd.deviceID, cmd.orgID] = none)
      (hp : ∀ p, s.entries.lookup cmd.actuationID = some p →
        p.generation < cmd.generation ∧ p.requestID = cmd.requestID ∧ p.deviceID = cmd.deviceID ∧ p.orgID = cmd.orgID) :
      PrepareCleanupCases uuidParse s a now cmd
        (replaceLocked s a cmd.actuationID (tombstone cmd (s.entries.lookup cmd.actuationID) now) .cleanup)

lemma prepareCleanup_cases (cmd : CleanupCommand) :
    PrepareCleanupCases uuidParse s a now cmd (prepareCleanup uuidParse s a now cmd) := by
  simp only [prepareCleanup]
  cases hv : validateIdentity uuidParse cmd.protocolVersion [cmd.actuationID, cmd.requestID, cmd.deviceID, cmd.orgID] with
  | some e => exact .refused _
  | none =>
    cases hl : s.loadErr with
    | some e => exact .refused _
    | none =>
      have hrec := @PrepareCleanupCases.recorded uuidParse s a now cmd hl hv
      cases he : s.entries.lookup cmd.actuationID with
      | none =>
        rw [he] at hrec
        exact hrec fun p hp => by cases hp
      | some previous =>
        rw [he] at hrec
        dsimp only
        cases hm : matchIdentity previous cmd.requestID cmd.deviceID cmd.orgID with
        | some e => exact .refused _
        | none =>
          have hids := matchIdentity_eq hm
          dsimp only
          split_ifs with hstale hequal hclean
          · exact .refused _
          · exact .duplicate previous hl he hclean hequal.symm hids
          · exact .refused _
          · have hgen : previous.generation < cmd.generation :=
              UInt64.lt_of_le_of_ne (UInt64.not_lt.mp hstale) fun h => hequal h.symm
            refine hrec fun p hp => ?_
            cases hp
            exact ⟨hgen, hids⟩

def boundEntry (entry : LedgerEntry) (process : ProcessIdentity) (now : Time) : LedgerEntry :=
  { entry with
    pid := process.pid
    processCreationTime := some process.processCreationTime
    jobName := process.jobName
    bootID := process.bootID
    updatedAt := now }

def clearedEntry (entry : LedgerEntry) (now : Time) : LedgerEntry :=
  { entry with pid := 0, processCreationTime := none, jobName := "", bootID := "", updatedAt := now }

/-- A call that changes the current entry of an actuation in the given state is refused, or replaces it. -/
inductive ReplaceCases (s : Store) (a : PersistAnswers) (id : String) (state : DesiredState) (generation : UInt64)
    (next : LedgerEntry → LedgerEntry) : Outcome Unit → Prop
  | refused (e : StoreError) : ReplaceCases s a id state generation next (refuse s e)
  | recorded (entry : LedgerEntry) (hl : s.loadErr = none) (he : s.entries.lookup id = some entry)
      (hstate : entry.desiredState = state) (hgen : entry.generation = generation) :
      ReplaceCases s a id state generation next (replaceLocked s a id (next entry) ())

lemma bindProcess_cases (id : String) (generation : UInt64) (process : ProcessIdentity) :
    ReplaceCases s a id .active generation (boundEntry · process now) (bindProcess s a now id generation process) := by
  simp only [bindProcess]
  cases hl : s.loadErr with
  | some e => exact .refused _
  | none =>
    cases he : s.entries.lookup id with
    | none => exact .refused _
    | some entry =>
      dsimp only
      split_ifs with hcur
      · exact .refused _
      · obtain ⟨hstate, hgen⟩ : entry.desiredState = .active ∧ entry.generation = generation := by
          simpa [not_or] using hcur
        exact .recorded entry hl he hstate hgen

lemma clearProcessIdentity_cases (id : String) (generation : UInt64) :
    ReplaceCases s a id .cleanup generation (clearedEntry · now) (clearProcessIdentity s a now id generation) := by
  simp only [clearProcessIdentity]
  cases hl : s.loadErr with
  | some e => exact .refused _
  | none =>
    cases he : s.entries.lookup id with
    | none => exact .refused _
    | some entry =>
      dsimp only
      split_ifs with hcur
      · exact .refused _
      · obtain ⟨hstate, hgen⟩ : entry.desiredState = .cleanup ∧ entry.generation = generation := by
          simpa [not_or] using hcur
        exact .recorded entry hl he hstate hgen

end Cases

end Breeze.Pam.Ledger
