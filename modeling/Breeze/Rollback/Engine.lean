import Breeze.Lib.CivilMonths
import Breeze.Lib.Effects
import Breeze.Rollback.Signing

/-! The rollback engine of agent/internal/rollback: executor.go over the state file of store.go. -/

namespace Breeze.Rollback.Engine

open Breeze.Lib Breeze.Lib.Decimal Breeze.Lib.Effects
open Breeze.Lib.Utf8 (Bytes)
open Breeze.Lib.Checksum (Sum hexText)
open Signing

abbrev Directive := Signing.Directive Text

inductive Phase where
  | received
  | downloaded
  | verified
  | staged
  | swapped
  | restartRequested
  | healthy
  | failed
  | recovered
  deriving DecidableEq

def Phase.text : Phase → String
  | .received => "received"
  | .downloaded => "downloaded"
  | .verified => "verified"
  | .staged => "staged"
  | .swapped => "swapped"
  | .restartRequested => "restart_requested"
  | .healthy => "healthy"
  | .failed => "failed"
  | .recovered => "recovered"

def Phase.isTerminal (p : Phase) : Bool := p == .healthy || p == .failed || p == .recovered

structure Observation where
  schemaVersion : ℤ
  observationId : Text
  rollbackId : Text
  deviceId : Text
  phase : Phase
  currentVersion : Text
  componentVersions : List (Text × Text)
  -- in nanoseconds
  observedAt : ℤ
  errorCode : String

structure Record where
  digest : Text
  directive : Directive
  phase : Phase
  observation : Observation

def Record.id (record : Record) : Text := record.directive.rollbackId

structure StateFile where
  schemaVersion : ℤ
  active : Option Record
  tombstones : Text → Option Record
  pending : List Observation
  legacyPending : Option Observation

structure Environment where
  deviceId : Text
  orgId : Text
  platform : Text
  architecture : Text
  currentVersion : Text
  goos : Text
  goarch : Text
  verifySignature : Option (Text → Bytes → Bytes → Option String)
  hasBackend : Bool
  sha256 : Bytes → Sum
  rfc3339Nano : ℤ → Text

section Validation

def orDefault (value default : Text) : Text := if value = [] then default else value

def nanoseconds (s : Stamp) : ℤ :=
  let days := CivilMonths.monthStart (12 * ((s.year : ℤ) - 1970) + s.month - 1) + s.day - 1
  (((days * 24 + s.hour) * 60 + s.minute) * 60 + s.second) * 1000000000

def isHexText (t : Text) : Bool := t.length % 2 == 0 && t.all fun c => (GoJson.hexDigit c).isSome

def base64Value (c : Char) : Option ℕ :=
  if c.isUpper then some (c.toNat - 65)
  else if c.isLower then some (c.toNat - 71)
  else if c.isDigit then some (c.toNat + 4)
  else if c = '+' then some 62
  else if c = '/' then some 63
  else none

def base64Bytes (bits count : ℕ) : Bytes := ([bits / 65536, bits / 256 % 256, bits % 256].take count).map UInt8.ofNat

def decodeBase64Groups : Text → Option Bytes
  | [] => some []
  | a :: b :: c :: d :: rest => do
    let w ← base64Value a
    let x ← base64Value b
    if c = '=' then
      if d = '=' ∧ rest = [] then some (base64Bytes ((w * 64 + x) * 4096) 1) else none
    else do
      let y ← base64Value c
      if d = '=' then
        if rest = [] then some (base64Bytes (((w * 64 + x) * 64 + y) * 64) 2) else none
      else do
        let z ← base64Value d
        let bytes ← decodeBase64Groups rest
        some (base64Bytes (((w * 64 + x) * 64 + y) * 64 + z) 3 ++ bytes)
  | _ => none

def decodeBase64 (t : Text) : Option Bytes := decodeBase64Groups (t.filter fun c => c ≠ '\r' ∧ c ≠ '\n')

def isBlank (t : Text) : Bool := t.all fun c => Whitespace.isUnicodeSpace c || c.toNat == 0x85

def checkArtifacts (d : Directive) : List Text → List (Artifact Text) → Except String Unit
  | _, [] => .ok ()
  | seen, artifact :: rest => do
    require ((d.componentVersions.lookup artifact.component).any fun binding =>
        binding.current = artifact.currentVersion ∧ binding.target = artifact.targetVersion ∧
          artifact.targetVersion = d.targetVersion)
      "rollback artifact binding mismatch"
    require (artifact.component ∉ seen) "duplicate rollback component"
    require ((Utf8.encode artifact.sha256).length = 64 ∧ 0 < artifact.size ∧ ¬ isBlank artifact.downloadUrl) "invalid rollback artifact"
    require (isHexText artifact.sha256) "invalid rollback artifact checksum"
    checkArtifacts d (artifact.component :: seen) rest

def validate (env : Environment) (now : ℤ) (d : Directive) : Except String Text := do
  let payload ← CanonicalBytes env.sha256 d
  require (d.rollbackId ≠ [] ∧ d.deviceId = env.deviceId ∧ d.orgId = env.orgId) "rollback identity mismatch"
  let goos := if env.goos = "darwin".toList then "macos".toList else env.goos
  require (d.platform = orDefault env.platform goos ∧ d.architecture = orDefault env.architecture env.goarch ∧
      d.currentVersion = env.currentVersion)
    "rollback runtime binding mismatch"
  require ((readStamp d.expiresAt).any fun expires => now < nanoseconds expires) "rollback directive expired"
  require (d.artifacts ≠ [] ∧ d.componentVersions.length = d.artifacts.length) "rollback component set mismatch"
  checkArtifacts d [] d.artifacts
  let signature := (decodeBase64 d.directiveSignature).getD []
  require (signature.length = 64) "invalid rollback directive signature encoding"
  match env.verifySignature with
  | none => .error "rollback signature verifier unavailable"
  | some verify =>
    match verify d.directiveSigningKeyId payload signature with
    | some err => .error ("verify rollback directive: " ++ err)
    | none => .ok (digestHex env.sha256 payload)

end Validation

section Store

def emptyState : StateFile := ⟨1, none, fun _ => none, [], none⟩

def loadLocked : Option StateFile → Except String StateFile
  | none => .ok emptyState
  | some state =>
    if state.schemaVersion ≠ 1 then .error "unsupported rollback state schema"
    else .ok { state with
      pending := if state.pending = [] then state.legacyPending.toList else state.pending
      legacyPending := none }

inductive SaveOutcome where
  | done
  -- the file is as it was
  | lost (err : String)
  -- the file is replaced and the directory is not synced
  | replaced (err : String)

def SaveOutcome.answer : SaveOutcome → Except String Unit
  | .done => .ok ()
  | .lost err => .error err
  | .replaced err => .error err

def SaveOutcome.takesEffect : SaveOutcome → Bool
  | .lost _ => false
  | _ => true

end Store

section World

inductive Call where
  | execute (env : Environment) (d : Directive)
  | reconcile (env : Environment)
  | acknowledge (id : Text)

inductive Event where
  | started (call : Call)
  | save (state : StateFile) (outcome : SaveOutcome)
  | prepare (d : Directive) (r : Except String Unit)
  | swap (d : Directive) (r : Except String Unit)
  | restart (d : Directive) (r : Except String Unit)
  | healthy (d : Directive) (r : Except String Bool)
  | finalize (d : Directive) (r : Except String Unit)
  | recover (d : Directive) (r : Except String Unit)

structure World where
  disk : Option StateFile := none
  log : List (Event × Option StateFile) := []

def World.after (disk : Option StateFile) : Event → Option StateFile
  | .save state outcome => if outcome.takesEffect then some state else disk
  | _ => disk

def World.record (w : World) (e : Event) : World where
  disk := World.after w.disk e
  log := w.log ++ [(e, w.disk)]

inductive Command where
  | load
  | now
  | save (state : StateFile)
  | prepare (d : Directive)
  | swap (d : Directive)
  | restart (d : Directive)
  | healthy (d : Directive)
  | finalize (d : Directive)
  | recover (d : Directive)

abbrev Answer : Command → Type
  | .load => Except String StateFile
  | .now => ℤ
  | .healthy _ => Except String Bool
  | _ => Except String Unit

abbrev Choice : Command → Type
  | .load => Option String
  | .now => ℤ
  | .save _ => SaveOutcome
  | .healthy _ => Except String Bool
  | _ => Except String Unit

def react : React Answer Choice World
  | .load, err, w => (err.elim (loadLocked w.disk) .error, w)
  | .now, t, w => (t, w)
  | .save state, outcome, w => (outcome.answer, w.record (.save state outcome))
  | .prepare d, r, w => (r, w.record (.prepare d r))
  | .swap d, r, w => (r, w.record (.swap d r))
  | .restart d, r, w => (r, w.record (.restart d r))
  | .healthy d, r, w => (r, w.record (.healthy d r))
  | .finalize d, r, w => (r, w.record (.finalize d r))
  | .recover d, r, w => (r, w.record (.recover d r))

end World

section Engine

open Program (perform)

abbrev M := Program Answer

def load : M (Except String StateFile) := perform Command.load

def clock : M ℤ := perform Command.now

def saveLocked (state : StateFile) : M (Except String Unit) := perform (Command.save state)

def Backend.prepare (d : Directive) : M (Except String Unit) := perform (Command.prepare d)

def Backend.swap (d : Directive) : M (Except String Unit) := perform (Command.swap d)

def Backend.restart (d : Directive) : M (Except String Unit) := perform (Command.restart d)

def Backend.healthy (d : Directive) : M (Except String Bool) := perform (Command.healthy d)

def Backend.finalize (d : Directive) : M (Except String Unit) := perform (Command.finalize d)

def Backend.recover (d : Directive) : M (Except String Unit) := perform (Command.recover d)

def useTarget (phase prior : Phase) : Bool :=
  let swapped (p : Phase) := p == .swapped || p == .restartRequested || p == .healthy
  if phase = .failed then swapped prior else swapped phase

def observationComponentVersions (d : Directive) (phase prior : Phase) : List (Text × Text) :=
  d.componentVersions.map fun c => (c.1, if useTarget phase prior then c.2.target else c.2.current)

def observation (env : Environment) (d : Directive) (phase prior : Phase) (now : ℤ) (failure : String) : Observation :=
  let separator : Text := [Char.ofNat 0]
  let sum := env.sha256 (Utf8.encode (d.rollbackId ++ separator ++ phase.text.toList ++ separator ++ env.rfc3339Nano now ++
    separator ++ failure.toList))
  { schemaVersion := 1
    observationId := hexText sum.bytes
    rollbackId := d.rollbackId
    deviceId := d.deviceId
    phase := phase
    currentVersion := d.currentVersion
    componentVersions := observationComponentVersions d phase prior
    observedAt := now
    errorCode := failure }

def Record.moved (record : Record) (env : Environment) (phase : Phase) (now : ℤ) (failure : String) : Record :=
  { record with phase := phase, observation := Engine.observation env record.directive phase record.phase now failure }

def StateFile.put (state : StateFile) (record : Record) : StateFile :=
  { state with
    active := if record.phase.isTerminal then none else some record
    tombstones := if record.phase.isTerminal then Function.update state.tombstones record.id (some record)
      else state.tombstones
    pending := state.pending ++ [record.observation] }

def transition (env : Environment) (state : StateFile) (record : Record) (phase : Phase) (failure : String) :
    M (StateFile × Record × Except String Unit) := do
  let now ← clock
  let record := record.moved env phase now failure
  let err ← saveLocked (state.put record)
  return (state.put record, record, err)

/-- `Recover` after a failed side effect; the error of a save is dropped. -/
def recoverFrom (env : Environment) (state : StateFile) (record : Record) (err recovered failed : String) :
    M (Except String Unit) := do
  match ← Backend.recover record.directive with
  | .ok () =>
    let _ ← transition env state record .recovered recovered
    return .error err
  | .error _ =>
    let _ ← transition env state record .failed failed
    return .error err

def requestRestart (env : Environment) (state : StateFile) (record : Record) : M (Except String Unit) := do
  match ← transition env state record .swapped "" with
  | (_, _, .error err) => return .error err
  | (state, record, .ok ()) =>
    match ← transition env state record .restartRequested "" with
    | (_, _, .error err) => return .error err
    | (state, record, .ok ()) =>
      match ← Backend.restart record.directive with
      | .ok () => return .ok ()
      | .error err => recoverFrom env state record err "restart_failed" "restart_and_recovery_failed"

def swapComponents (env : Environment) (state : StateFile) (record : Record) : M (Except String Unit) := do
  match ← Backend.swap record.directive with
  | .ok () => requestRestart env state record
  | .error err => recoverFrom env state record err "swap_failed" "swap_and_recovery_failed"

def stage (env : Environment) : List Phase → StateFile → Record → M (Except String Unit)
  | [], state, record => swapComponents env state record
  | phase :: phases, state, record => do
    match ← transition env state record phase "" with
    | (_, _, .error err) => return .error err
    | (state, record, .ok ()) => stage env phases state record

def prepare (env : Environment) (state : StateFile) (record : Record) : M (Except String Unit) := do
  if env.hasBackend then
    match ← Backend.prepare record.directive with
    | .ok () => stage env [.downloaded, .verified, .staged] state record
    | .error err =>
      let _ ← transition env state record .failed "prepare_failed"
      return .error err
  else
    let _ ← transition env state record .failed "backend_unavailable"
    return .error "rollback backend unavailable"

def emptyObservation : Observation := ⟨0, [], [], [], .received, [], [], 0, ""⟩

def receive (env : Environment) (state : StateFile) (digest : Text) (d : Directive) : M (Except String Unit) := do
  match ← transition env state ⟨digest, d, .received, emptyObservation⟩ .received "" with
  | (_, _, .error err) => return .error err
  | (state, record, .ok ()) => prepare env state record

def replayed (prior digest : Text) : Except String Unit :=
  require (prior = digest) "rollback id replayed with changed content"

def execute (env : Environment) (d : Directive) : M (Except String Unit) := do
  let now ← clock
  match validate env now d with
  | .error err => return .error err
  | .ok digest =>
    match ← load with
    | .error err => return .error err
    | .ok state =>
      match state.tombstones d.rollbackId, state.active with
      | some prior, _ => return replayed prior.digest digest
      | none, some active =>
        if active.directive.rollbackId ≠ d.rollbackId then return .error "another rollback is active"
        else return replayed active.digest digest
      | none, none => receive env state digest d

def rollBack (env : Environment) (state : StateFile) (record : Record) : M (Except String Unit) := do
  match ← Backend.recover record.directive with
  | .error err =>
    let _ ← transition env state record .failed "health_and_recovery_failed"
    return .error err
  | .ok () =>
    match ← transition env state record .recovered "health_failed" with
    | (_, _, .error err) => return .error err
    | (state, record, .ok ()) =>
      match ← Backend.restart record.directive with
      | .ok () => return .ok ()
      | .error err =>
        let _ ← transition env state record .failed "recovery_restart_failed"
        return .error err

def settle (env : Environment) (state : StateFile) (record : Record) : M (Except String Unit) := do
  match ← Backend.healthy record.directive with
  | .ok true =>
    match ← Backend.finalize record.directive with
    | .error err => return .error err
    | .ok () =>
      let (_, _, err) ← transition env state record .healthy ""
      return err
  | _ => rollBack env state record

def undoSwap (env : Environment) (state : StateFile) (record : Record) : M (Except String Unit) := do
  match ← Backend.recover record.directive with
  | .error err =>
    let _ ← transition env state record .failed "interrupted_swap_recovery_failed"
    return .error err
  | .ok () =>
    let (_, _, err) ← transition env state record .recovered "interrupted_swap"
    return err

-- a call of a backend that is nil panics
def reconcile (env : Environment) : M (Except String Unit) := do
  match ← load with
  | .error err => return .error err
  | .ok state =>
    match state.active with
    | none => return .ok ()
    | some record =>
      if record.phase = .staged then
        if env.hasBackend then undoSwap env state record else return .error "nil backend"
      else if record.phase ≠ .swapped ∧ record.phase ≠ .restartRequested then do
        let (_, _, err) ← transition env state record .failed "interrupted_before_swap"
        return err
      else if env.hasBackend then settle env state record
      else return .error "nil backend"

def dropObservation (id : Text) : List Observation → Option (List Observation)
  | [] => none
  | o :: rest => if o.observationId ≠ id then (dropObservation id rest).map (o :: ·) else some rest

def acknowledge (id : Text) : M (Except String Unit) := do
  match ← load with
  | .error err => return .error err
  | .ok state =>
    match dropObservation id state.pending with
    | none => return .ok ()
    | some pending => saveLocked { state with pending := pending }

def Call.program : Call → M (Except String Unit)
  | .execute env d => Engine.execute env d
  | .reconcile env => Engine.reconcile env
  | .acknowledge id => Engine.acknowledge id

structure Step where
  call : Call
  script : Script Choice

def step (w : World) (s : Step) : World :=
  play react s.script.choose s.script.life s.call.program (w.record (.started s.call))

def run (steps : List Step) : World := steps.foldl step {}

end Engine

end Breeze.Rollback.Engine
