import Breeze.Peripheral.Agent
import Breeze.Lib.Stateful

/-! Applying a policy envelope on the agent, after v2.go, evaluate.go, enforce.go and store.go: the verdict on each device, the
enforcement plan, its execution, the two policy files and the recovery after a failure. -/

namespace Breeze.Peripheral.Apply

open Breeze.Lib Breeze.Lib.QuotedText
open Breeze.Lib.Decimal (Text)
open Breeze.Lib.Utf8 (Bytes)
open Breeze.Lib.Checksum (Sum)
open Agent

section Evaluate

structure Policy where
  id : Text
  name : Text
  deviceClass : Text
  action : Text
  exceptions : List ExceptionRule
  isActive : Bool
  deriving DecidableEq

structure DetectedPeripheral where
  peripheralType : Text
  vendor : Text
  product : Text
  serialNumber : Text
  deviceClass : Text
  deviceId : Text
  deriving DecidableEq

structure EvaluationResult where
  peripheral : DetectedPeripheral
  policy : Option Policy
  action : Text
  excepted : Bool

/-- What the evaluation asks of the library: `strings.EqualFold`, and whether a text is an RFC 3339 time that has passed. -/
structure Clock where
  equalFold : Text → Text → Bool
  isPast : Text → Bool

def fieldMatches (clock : Clock) (ruleVal deviceVal : Text) : Bool := ruleVal == [] || clock.equalFold ruleVal deviceVal

def exceptionMatches (clock : Clock) (dev : DetectedPeripheral) (ex : ExceptionRule) : Bool :=
  !(ex.expiresAt != [] && clock.isPast ex.expiresAt) && fieldMatches clock ex.vendor dev.vendor &&
    fieldMatches clock ex.product dev.product && fieldMatches clock ex.serialNumber dev.serialNumber &&
    !(ex.vendor == [] && ex.product == [] && ex.serialNumber == []) && ex.allow

def matchesException (clock : Clock) (dev : DetectedPeripheral) (exceptions : List ExceptionRule) : Bool :=
  exceptions.any (exceptionMatches clock dev)

def classMatches (policyClass deviceClass : Text) : Bool :=
  policyClass == deviceClass ||
    (policyClass == "all_usb".toList && (deviceClass == "storage".toList || deviceClass == "all_usb".toList))

def verdict (clock : Clock) (dev : DetectedPeripheral) (decides : Policy → Bool) (policies : List Policy) : EvaluationResult :=
  match policies.find? decides with
  | none => ⟨dev, none, [], false⟩
  | some policy =>
    if matchesException clock dev policy.exceptions then ⟨dev, some policy, "allow".toList, true⟩
    else ⟨dev, some policy, policy.action, false⟩

def evaluateOne (clock : Clock) (dev : DetectedPeripheral) (policies : List Policy) : EvaluationResult :=
  verdict clock dev (fun p => p.isActive && classMatches p.deviceClass dev.deviceClass) policies

def evaluate (clock : Clock) (devices : List DetectedPeripheral) (policies : List Policy) : List EvaluationResult :=
  devices.map fun dev => evaluateOne clock dev policies

-- an effective policy decides on its own class only
def evaluateEffectiveV2 (clock : Clock) (devices : List DetectedPeripheral) (policies : List Policy) : List EvaluationResult :=
  devices.map fun dev => verdict clock dev (fun p => p.deviceClass == dev.deviceClass) policies

def effectivePoliciesAsLegacy (effective : Option (List PolicyV2)) : List Policy :=
  (effective.getD []).map fun p => ⟨p.policyId, p.policyId, p.effectiveClass, p.action, p.exceptions.getD [], true⟩

end Evaluate

section Plan

def enforceableClasses : List Text := ["all_usb".toList, "storage".toList]

structure ClassGate where
  gated : Text
  hasExceptions : Bool
  deriving DecidableEq

structure EnforcementPlan where
  blockGates : List ClassGate
  disableInstanceIds : List Text
  readOnlyClasses : List Text
  deriving DecidableEq

def hasAllowException (exceptions : List ExceptionRule) : Bool := exceptions.any fun ex => ex.allow

def isEnforceable (deviceClass : Text) : Bool := enforceableClasses.contains deviceClass

def planPolicy (plan : EnforcementPlan) (p : Policy) : EnforcementPlan :=
  if !p.isActive || !isEnforceable p.deviceClass then plan
  else if p.action = "block".toList then
    if plan.blockGates.any fun g => g.gated == p.deviceClass then plan
    else { plan with blockGates := plan.blockGates ++ [⟨p.deviceClass, hasAllowException p.exceptions⟩] }
  else if p.action = "read_only".toList then
    if plan.readOnlyClasses.contains p.deviceClass then plan
    else { plan with readOnlyClasses := plan.readOnlyClasses ++ [p.deviceClass] }
  else plan

def isDisabled (r : EvaluationResult) : Bool :=
  r.action == "block".toList && isEnforceable r.peripheral.deviceClass && r.peripheral.deviceId != []

def planEnforcement (results : List EvaluationResult) (policies : List Policy) : EnforcementPlan :=
  let plan := policies.foldl planPolicy ⟨[], [], []⟩
  { plan with disableInstanceIds := (results.filter isDisabled).map fun r => r.peripheral.deviceId }

end Plan

section Enforce

structure EnforceOutcome where
  mechanism : Text
  applied : Bool
  verified : Bool
  detail : Text

structure EnforcementOutcome where
  gateOutcomes : List (Text × EnforceOutcome)
  deviceOutcomes : List (Text × EnforceOutcome)
  readOnlyOutcomes : List (Text × EnforceOutcome)

inductive Call where
  | applyGate (deviceClass : Text) (hasExceptions : Bool)
  | revertGate (deviceClass : Text)
  | disableDevice (instanceId : Text)
  | applyReadOnly (deviceClass : Text)
  | revertReadOnly (deviceClass : Text)

abbrev Enforcer := List Call → EnforceOutcome

structure StateV2 where
  identity : Identity
  phase : Text
  revision : ℤ
  digest : Text
  effectivePolicies : Option (List PolicyV2)
  deriving DecidableEq

inductive File (α : Type) where
  | missing
  | corrupt
  | holds (a : α)

structure Disk where
  v2 : File StateV2
  legacy : File (List Policy)

/-- The two files, the calls made to the enforcer, and the plans carried out so far with what came of them. -/
structure World extends Disk where
  calls : List Call
  enforced : List (EnforcementPlan × EnforcementOutcome)

abbrev M := StateM World

def invoke (e : Enforcer) (c : Call) : M EnforceOutcome := fun w => (e (w.calls ++ [c]), { w with calls := w.calls ++ [c] })

def setOutcome (m : List (Text × EnforceOutcome)) (k : Text) (v : EnforceOutcome) : List (Text × EnforceOutcome) :=
  (k, v) :: m.filter fun p => p.1 != k

def wantGate (plan : EnforcementPlan) (deviceClass : Text) : Option ClassGate :=
  plan.blockGates.reverse.find? fun g => g.gated == deviceClass

def revertClass (e : Enforcer) (plan : EnforcementPlan) (out : EnforcementOutcome) (deviceClass : Text) : M EnforcementOutcome := do
  let out ← (match wantGate plan deviceClass with
    | none => do
      let o ← invoke e (.revertGate deviceClass)
      return { out with gateOutcomes := setOutcome out.gateOutcomes deviceClass o }
    | some _ => pure out)
  if plan.readOnlyClasses.contains deviceClass then return out
  let o ← invoke e (.revertReadOnly deviceClass)
  return { out with readOnlyOutcomes := setOutcome out.readOnlyOutcomes deviceClass o }

def applyClass (e : Enforcer) (plan : EnforcementPlan) (out : EnforcementOutcome) (deviceClass : Text) : M EnforcementOutcome := do
  let out ← (match wantGate plan deviceClass with
    | none => pure out
    | some g => do
      let o ← invoke e (.applyGate deviceClass g.hasExceptions)
      return { out with gateOutcomes := setOutcome out.gateOutcomes deviceClass o })
  if plan.readOnlyClasses.contains deviceClass then
    let o ← invoke e (.applyReadOnly deviceClass)
    return { out with readOnlyOutcomes := setOutcome out.readOnlyOutcomes deviceClass o }
  return out

def disableDevice (e : Enforcer) (out : EnforcementOutcome) (id : Text) : M EnforcementOutcome := do
  let o ← invoke e (.disableDevice id)
  return { out with deviceOutcomes := out.deviceOutcomes ++ [(id, o)] }

-- every class is reverted before any is applied
def converge (e : Enforcer) (plan : EnforcementPlan) (allClasses : List Text) : M EnforcementOutcome := do
  let out ← allClasses.foldlM (revertClass e plan) ⟨[], [], []⟩
  let out ← allClasses.foldlM (applyClass e plan) out
  plan.disableInstanceIds.foldlM (disableDevice e) out

def enforce (e : Enforcer) (plan : EnforcementPlan) (allClasses : List Text) : M EnforcementOutcome := do
  let out ← converge e plan allClasses
  modify fun w => { w with enforced := w.enforced ++ [(plan, out)] }
  return out

def isUnverified (o : EnforceOutcome) : Bool := o.mechanism != [] && o.mechanism != "unsupported".toList && !o.verified

def countUnverified (o : EnforcementOutcome) : ℕ :=
  (o.gateOutcomes.filter fun p => isUnverified p.2).length + (o.readOnlyOutcomes.filter fun p => isUnverified p.2).length +
    (o.deviceOutcomes.filter fun p => isUnverified p.2).length

end Enforce

section Store

inductive Effect (α : Type) where
  | untouched
  | written
  | damaged (f : File α)

structure WriteAnswer (α : Type) where
  effect : Effect α
  fails : Bool

def Effect.leaves {α : Type} (before : File α) (a : α) : Effect α → File α
  | .untouched => before
  | .written => .holds a
  | .damaged f => f

def readFile {α : Type} (fails : Bool) (f : File α) : Option (Option α) :=
  if fails then none
  else
    match f with
    | .missing => some none
    | .corrupt => none
    | .holds a => some (some a)

def loadV2State (fails : Bool) : M (Option (Option StateV2)) := do return readFile fails (← get).v2

def load (fails : Bool) : M (Option (List Policy)) := do return (readFile fails (← get).legacy).map fun p => p.getD []

def save (policies : List Policy) (a : WriteAnswer (List Policy)) : M Bool := do
  modify fun w => { w with legacy := a.effect.leaves w.legacy policies }
  return !a.fails

-- a write that reports success is read back
def saveV2State (state : StateV2) (a : WriteAnswer StateV2) (readFails : Bool) : M Bool := do
  modify fun w => { w with v2 := a.effect.leaves w.v2 state }
  if a.fails then return false
  match ← loadV2State readFails with
  | some (some persisted) => return decide (persisted = state)
  | _ => return false

end Store

section ApplyV2

structure PolicyV2Dependencies where
  detect : Option (List DetectedPeripheral)
  enforcer : Option Enforcer
  classes : Option (List Text)

structure StoreAnswers where
  loadV2 : Bool
  loadLegacy : Bool
  clearLegacy : WriteAnswer (List Policy)
  reloadLegacy : Bool
  restoreLegacy : WriteAnswer (List Policy)
  saveV2 : WriteAnswer StateV2
  reloadV2 : Bool

inductive Outcome where
  | applied
  | rejected (reasonCode : Reason)
  deriving DecidableEq

structure Result where
  schemaVersion : ℤ
  phase : Text
  revision : ℤ
  digest : Text
  outcome : Outcome

def result (envelope : Envelope) (outcome : Outcome) : Result :=
  ⟨2, envelope.phase, envelope.revision, envelope.digest, outcome⟩

def rejectV2 (envelope : Envelope) (reason : Reason) : Result := result envelope (.rejected reason)

def persistedEnvelope (s : StateV2) : Envelope where
  schemaVersion := 2
  phase := s.phase
  identity := s.identity
  revision := s.revision
  digest := s.digest
  generatedAt := []
  reason := []
  effectivePolicies := s.effectivePolicies

def nextState (e : Envelope) : StateV2 := ⟨e.identity, e.phase, e.revision, e.digest, e.effectivePolicies⟩

def clearLegacy : Text := "clear_legacy".toList

def enforcePhase : Text := "enforce".toList

def checkCurrent (sha256 : Bytes → Sum) (envelope : Envelope) (localIdentity : Identity) : Option StateV2 → Option Outcome
  | none => none
  | some current =>
    if validateEnvelopeV2 sha256 (persistedEnvelope current) localIdentity ≠ none then some (.rejected .invalidPayload)
    else if envelope.revision < current.revision then some (.rejected .lowerRevision)
    else if envelope.revision = current.revision then
      if envelope.digest ≠ current.digest then some (.rejected .revisionDigestConflict) else some .applied
    else none

def peripheralPolicyV2RecoveryPlan (clock : Clock) (current : Option StateV2) (legacy : List Policy)
    (detected : List DetectedPeripheral) (detectedReady : Bool) (deps : PolicyV2Dependencies) : Option EnforcementPlan :=
  let policies := match current with
    | some s => if s.phase = enforcePhase then effectivePoliciesAsLegacy s.effectivePolicies else []
    | none => legacy
  if policies = [] then some (planEnforcement [] policies)
  else
    (if detectedReady then some detected else deps.detect).map fun detected =>
      if current.isSome then planEnforcement (evaluateEffectiveV2 clock detected policies) policies
      else planEnforcement (evaluate clock detected policies) policies

def plansV2 (clock : Clock) (envelope : Envelope) (current : Option StateV2) (legacy : List Policy) (deps : PolicyV2Dependencies) :
    Except Reason (Enforcer × EnforcementPlan × EnforcementPlan) := do
  let policies := effectivePoliciesAsLegacy envelope.effectivePolicies
  let detected : List DetectedPeripheral := []
  let detectedReady := decide (envelope.phase = enforcePhase)
  let results ← if envelope.phase = enforcePhase then
      -- the devices stay in this block: its variable shadows the one that the recovery plan is given
      match deps.detect with
      | none => throw .detectionFailed
      | some detected => pure (evaluateEffectiveV2 clock detected policies)
    else pure []
  let e ← deps.enforcer.elim (throw .enforcementFailed) pure
  let recoveryPlan ← (peripheralPolicyV2RecoveryPlan clock current legacy detected detectedReady deps).elim
    (throw .detectionFailed) pure
  return (e, planEnforcement results policies, recoveryPlan)

def persist (envelope : Envelope) (legacy : List Policy) (restoreLastKnownGood : M EnforcementOutcome) (a : StoreAnswers) :
    M Outcome := do
  if ← saveV2State (nextState envelope) a.saveV2 a.reloadV2 then return .applied
  if envelope.phase = clearLegacy then
    let _ ← save legacy a.restoreLegacy
  let _ ← restoreLastKnownGood
  return .rejected .persistenceFailed

def install (e : Enforcer) (classes : List Text) (envelope : Envelope) (legacy : List Policy) (plan recoveryPlan : EnforcementPlan)
    (a : StoreAnswers) : M Outcome := do
  let restoreLastKnownGood := enforce e recoveryPlan classes
  let outcome ← enforce e plan classes
  if countUnverified outcome ≠ 0 then
    let _ ← restoreLastKnownGood
    return .rejected .enforcementFailed
  if envelope.phase = clearLegacy then
    if !(← save [] a.clearLegacy) then
      let _ ← restoreLastKnownGood
      return .rejected .persistenceFailed
    if (← load a.reloadLegacy) ≠ some [] then
      let _ ← save legacy a.restoreLegacy
      let _ ← restoreLastKnownGood
      return .rejected .persistenceFailed
  persist envelope legacy restoreLastKnownGood a

def applyPeripheralPolicyV2 (sha256 : Bytes → Sum) (clock : Clock) (envelope : Envelope) (localIdentity : Identity)
    (deps : PolicyV2Dependencies) (a : StoreAnswers) : M Result := do
  match validateEnvelopeV2 sha256 envelope localIdentity with
  | some reason => return rejectV2 envelope reason
  | none =>
  match ← loadV2State a.loadV2 with
  | none => return rejectV2 envelope .invalidPayload
  | some current =>
  match checkCurrent sha256 envelope localIdentity current with
  | some outcome => return result envelope outcome
  | none =>
  match ← (if envelope.phase = clearLegacy then load a.loadLegacy else pure (some [])) with
  | none => return rejectV2 envelope .persistenceFailed
  | some legacy =>
  match plansV2 clock envelope current legacy deps with
  | .error reason => return rejectV2 envelope reason
  | .ok (e, plan, recoveryPlan) =>
  let outcome ← install e (deps.classes.getD enforceableClasses) envelope legacy plan recoveryPlan a
  return result envelope outcome

end ApplyV2

end Breeze.Peripheral.Apply
