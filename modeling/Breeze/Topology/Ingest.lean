import Breeze.Lib.LoggedRun
import Breeze.Topology.Absence

/-! Admission of reports from one physical collection source: full reads, unchanged confirmations, capacity gaps. -/

namespace Breeze.Topology.Ingest

open Breeze.Lib Absence

/-- A section that passed `physicalSourceSectionSchema`; physical families withdraw by row key. -/
structure PhysicalSection where
  outcome : CollectionOutcome
  rowKeys : List RowKey
  distinct : rowKeys.Nodup
  empty : outcomeHasPositives outcome = false → rowKeys = []
  deriving DecidableEq

def topologyPositiveKeys (content : PhysicalSection) : List RowKey :=
  content.rowKeys

structure Producer where
  producerEpoch : String
  configurationRevision : String
  deriving DecidableEq, Repr

structure Capture where
  producerEpoch : String
  snapshotId : String
  sequence : Nat
  capturedAt : String
  captureAgeAtSendMs : Option Int
  expectedIntervalSeconds : Int
  contentDigest : String
  deriving DecidableEq, Repr

structure Snapshot extends Capture where
  content : PhysicalSection
  deriving DecidableEq

structure Confirmation extends Capture where
  baseSnapshotId : String
  deriving DecidableEq, Repr

structure LastCapture where
  snapshotId : String
  capturedAt : String
  deriving DecidableEq, Repr

structure Baseline where
  snapshot : Snapshot
  knownKeys : Option (List RowKey)
  lastCapture : Option LastCapture
  deriving DecidableEq

structure Source where
  producerEpoch : String
  configurationRevision : String
  revoked : Bool := false
  acceptedSequence : Nat := 0
  confirmedSequence : Nat := 0
  contentDigest : Option String := none
  baseSnapshotId : Option String := none
  currentBaseline : Option Baseline := none
  pendingMisses : TopologyAbsenceState := {}
  lastOutcome : CollectionOutcome := .notAttempted
  confirmedThroughAt : Option Int := none
  freshUntil : Option Int := none
  quotaRejectedCount : Nat := 0
  deriving DecidableEq

/-- What one ingestion reads besides the source row: its clocks, the published rows and their support,
the runs table, the quota counters, and what `planConfirmedRevivals` found. -/
structure Surroundings where
  admittedAt : Int
  confirmedAt : Int
  prunedAt : Int
  generation : String
  rowRelationships : Option (RowKey → List String)
  support : String → Option Support
  snapshotSeen : Bool
  withinBudget : Bool
  inputRevision : Nat
  revivals : List PendingTopologyLifecycle

structure StoredBytes where
  snapshot : Snapshot → Nat
  baseline : Snapshot → List RowKey → Nat
  key : RowKey → Nat
  pendingMisses : TopologyAbsenceState → Nat

inductive Rejection
  | staleSequence
  | fullSnapshotRequired
  | snapshotBudgetExceeded
  | invalidCaptureTime
  | snapshotConflict
  | sourceRevoked
  deriving DecidableEq, Repr

structure Read where
  changed : Bool
  epoch : String
  sequence : Nat
  outcome : CollectionOutcome
  effectiveAt : Int
  positives : List RowKey
  pruned : List RowKey
  queued : List PendingTopologyMiss
  deriving DecidableEq, Repr

inductive Answer
  | accepted (read : Read)
  | replayed
  | rejected (reason : Rejection)
  | threw
  | silent
  deriving DecidableEq, Repr

def topologyBaselineMaxBytes : Nat := 1048576

def topologyPendingMissesMaxBytes : Nat := 524288

def assessTopologyRetainedCapacity (bytes : StoredBytes) (snapshot : Snapshot) (knownKeys : List RowKey)
    (pendingMisses : TopologyAbsenceState) (newTransitions : Nat) : Bool :=
  let keyBytes := (knownKeys.map fun key => bytes.key key + 2).sum
  decide (bytes.snapshot snapshot ≤ topologyBaselineMaxBytes) &&
  decide (bytes.baseline snapshot knownKeys + 512 ≤ topologyBaselineMaxBytes) &&
  decide (bytes.snapshot snapshot + 24 + keyBytes + knownKeys.length * (2 + 40 + 2) ≤ topologyBaselineMaxBytes) &&
  decide (bytes.pendingMisses pendingMisses + newTransitions * 48 ≤ topologyPendingMissesMaxBytes)

def lastCapture (source : Source) : Option LastCapture :=
  source.currentBaseline.map fun baseline =>
    baseline.lastCapture.getD ⟨baseline.snapshot.snapshotId, baseline.snapshot.capturedAt⟩

def sectionKeys (source : Source) : List RowKey :=
  match source.currentBaseline with
  | some baseline => topologyPositiveKeys baseline.snapshot.content
  | none => []

def knownKeys (source : Source) : List RowKey :=
  (source.currentBaseline.bind (·.knownKeys)).getD (sectionKeys source)

def stamp (revision : Nat) (miss : PendingTopologyMiss) : PendingTopologyMiss :=
  { miss with inputRevision := some revision }

def stampNew (revision : Nat) (before : TopologyAbsenceState)
    (absence : TopologyAbsenceState × List PendingTopologyMiss) : TopologyAbsenceState :=
  { absence.1 with transitions := before.transitions ++ absence.2.map (stamp revision) }

section

variable (dateParse : String → Option Int)

def captureTime (input : Capture) (now : Int) : TopologyCaptureTime :=
  effectiveTopologyCapture dateParse input.capturedAt input.captureAgeAtSendMs input.expectedIntervalSeconds now

def confirmInput (source : Source) (input : Capture) (effectiveAt : Int) (env : Surroundings) : AbsenceInput where
  sequence := input.sequence
  digest := input.contentDigest
  effectiveAt := some effectiveAt
  outcome := source.lastOutcome
  positiveKeys := sectionKeys source
  previousKeys := []
  generation := env.generation

def confirmAccepted (source : Source) (input : Capture) (effectiveAt : Int) (freshUntil : Option Int)
    (env : Surroundings) : Source × Answer :=
  let absence := advanceTopologyAbsence source.pendingMisses (confirmInput source input effectiveAt env)
  let pendingMisses := stampNew env.inputRevision source.pendingMisses absence
  let revivals := env.revivals.map ({ · with inputRevision := env.inputRevision })
  ({ source with
      acceptedSequence := input.sequence
      confirmedSequence := input.sequence
      confirmedThroughAt :=
        if outcomeHasPositives source.lastOutcome then some effectiveAt else source.confirmedThroughAt
      freshUntil := if outcomeHasPositives source.lastOutcome then freshUntil else source.freshUntil
      currentBaseline := source.currentBaseline.map fun baseline =>
        { baseline with
          lastCapture := some ⟨input.snapshotId, input.capturedAt⟩
          knownKeys := baseline.knownKeys.map fun keys => (retainTopologyKnownKeys keys [] absence.2).keys }
      pendingMisses := { pendingMisses with lifecycle := pendingMisses.lifecycle ++ revivals } },
    .accepted
      { changed := false
        epoch := source.producerEpoch
        sequence := input.sequence
        outcome := source.lastOutcome
        effectiveAt := effectiveAt
        positives := sectionKeys source
        pruned := []
        queued := absence.2.map (stamp env.inputRevision) })

def confirm (source : Source) (input : Capture) (env : Surroundings) : Source × Answer :=
  if input.sequence < source.acceptedSequence then (source, .rejected .staleSequence)
  else if input.sequence = source.acceptedSequence then
    if lastCapture source = some ⟨input.snapshotId, input.capturedAt⟩ ∧
        source.contentDigest = some input.contentDigest then
      (source, .replayed)
    else (source, .rejected .snapshotConflict)
  else if (lastCapture source).any fun last =>
      last.snapshotId == input.snapshotId || last.capturedAt == input.capturedAt then
    (source, .rejected .snapshotConflict)
  else
    let timing := captureTime dateParse input env.confirmedAt
    match timing.effectiveAt with
    | none => (source, .rejected .invalidCaptureTime)
    | some effectiveAt => confirmAccepted source input effectiveAt timing.freshUntil env

def rejectForCapacity (source : Source) : Source × Answer :=
  ({ source with
      quotaRejectedCount := source.quotaRejectedCount + 1
      pendingMisses := { source.pendingMisses with active := [] } },
    .rejected .snapshotBudgetExceeded)

def prunedKeys (source : Source) (positives : List RowKey) (env : Surroundings) : List RowKey :=
  match env.rowRelationships with
  | none => []
  | some rows =>
    prunableTopologyKnownKeys (knownKeys source) positives rows env.support source.pendingMisses env.prunedAt

def pruneArchivedPhysicalKeys (source : Source) (positives : List RowKey) (env : Surroundings) : List RowKey :=
  (knownKeys source).filter (!(prunedKeys source positives env).contains ·)

def admitInput (source : Source) (snapshot : Snapshot) (effectiveAt : Int) (env : Surroundings) : AbsenceInput where
  sequence := snapshot.sequence
  digest := snapshot.contentDigest
  effectiveAt := some effectiveAt
  outcome := snapshot.content.outcome
  positiveKeys :=
    if outcomeHasPositives snapshot.content.outcome then topologyPositiveKeys snapshot.content else []
  previousKeys := pruneArchivedPhysicalKeys source (topologyPositiveKeys snapshot.content) env
  generation := env.generation

def admitAbsence (source : Source) (snapshot : Snapshot) (effectiveAt : Int) (env : Surroundings) :
    TopologyAbsenceState × List PendingTopologyMiss :=
  advanceTopologyAbsence source.pendingMisses (admitInput source snapshot effectiveAt env)

def admitRetained (source : Source) (snapshot : Snapshot) (effectiveAt : Int) (env : Surroundings) :
    TopologyKnownKeyRetention :=
  retainTopologyKnownKeys (pruneArchivedPhysicalKeys source (topologyPositiveKeys snapshot.content) env)
    (topologyPositiveKeys snapshot.content) (admitAbsence source snapshot effectiveAt env).2

def admitAccepted (source : Source) (snapshot : Snapshot) (effectiveAt : Int) (freshUntil : Option Int)
    (env : Surroundings) : Source × Answer :=
  let absence := admitAbsence source snapshot effectiveAt env
  ({ source with
      acceptedSequence := snapshot.sequence
      confirmedSequence := snapshot.sequence
      contentDigest := some snapshot.contentDigest
      baseSnapshotId := some snapshot.snapshotId
      currentBaseline := some
        { snapshot, knownKeys := some (admitRetained source snapshot effectiveAt env).keys, lastCapture := none }
      pendingMisses := stampNew env.inputRevision source.pendingMisses absence
      lastOutcome := snapshot.content.outcome
      confirmedThroughAt :=
        if outcomeHasPositives snapshot.content.outcome then some effectiveAt else source.confirmedThroughAt
      freshUntil := if outcomeHasPositives snapshot.content.outcome then freshUntil else source.freshUntil },
    .accepted
      { changed := true
        epoch := source.producerEpoch
        sequence := snapshot.sequence
        outcome := snapshot.content.outcome
        effectiveAt := effectiveAt
        positives := topologyPositiveKeys snapshot.content
        pruned := prunedKeys source (topologyPositiveKeys snapshot.content) env
        queued := absence.2.map (stamp env.inputRevision) })

variable (bytes : StoredBytes)

def admitChanged (source : Source) (snapshot : Snapshot) (effectiveAt : Int) (freshUntil : Option Int)
    (env : Surroundings) : Source × Answer :=
  let absence := admitAbsence source snapshot effectiveAt env
  let retained := admitRetained source snapshot effectiveAt env
  if retained.exceeded then rejectForCapacity source
  else if !assessTopologyRetainedCapacity bytes snapshot retained.keys absence.1 absence.2.length then
    rejectForCapacity source
  else if !env.withinBudget then rejectForCapacity source
  else admitAccepted source snapshot effectiveAt freshUntil env

def admitCurrent (source : Source) (snapshot : Snapshot) (env : Surroundings) : Source × Answer :=
  let timing := captureTime dateParse snapshot.toCapture env.admittedAt
  match timing.effectiveAt with
  | none => (source, .rejected .invalidCaptureTime)
  | some effectiveAt =>
    if source.contentDigest = some snapshot.contentDigest then confirm dateParse source snapshot.toCapture env
    else if snapshot.sequence ≤ source.acceptedSequence ∧ source.contentDigest.isSome then
      (source, .rejected .staleSequence)
    else if env.snapshotSeen then (source, .rejected .snapshotConflict)
    else admitChanged bytes source snapshot effectiveAt timing.freshUntil env

def rebaseline (source : Source) (p : Producer) : Source :=
  { producerEpoch := p.producerEpoch
    configurationRevision := p.configurationRevision
    lastOutcome := source.lastOutcome
    quotaRejectedCount := source.quotaRejectedCount }

def admitReport (row : Option Source) (p : Producer) (snapshot : Snapshot) (env : Surroundings) : Source × Answer :=
  let source := row.getD { producerEpoch := p.producerEpoch, configurationRevision := p.configurationRevision }
  if source.revoked ∧ source.producerEpoch = p.producerEpoch then (source, .rejected .sourceRevoked)
  else if source.producerEpoch ≠ p.producerEpoch ∨ source.revoked then
    admitCurrent dateParse bytes (rebaseline source p) snapshot env
  else admitCurrent dateParse bytes source snapshot env

def confirmSource (source : Source) (p : Producer) (confirmation : Confirmation) (env : Surroundings) :
    Source × Answer :=
  if source.revoked then (source, .rejected .sourceRevoked)
  else if confirmation.producerEpoch ≠ p.producerEpoch ∨ source.producerEpoch ≠ p.producerEpoch ∨
      source.configurationRevision ≠ p.configurationRevision ∨
      source.baseSnapshotId ≠ some confirmation.baseSnapshotId ∨
      source.contentDigest ≠ some confirmation.contentDigest then
    (source, .rejected .fullSnapshotRequired)
  else confirm dateParse source confirmation.toCapture env

inductive Event
  | full (p : Producer) (snapshot : Snapshot) (env : Surroundings)
  | unchanged (p : Producer) (confirmation : Confirmation) (env : Surroundings)
  | revoke
  | age (changes : List PendingTopologyLifecycle)
  | publish (consumed : List String) (remap : String → String)

def revokeSource (source : Source) : Source :=
  if source.revoked then source else { source with revoked := true, pendingMisses := {} }

def queueAging (source : Source) (changes : List PendingTopologyLifecycle) : Source :=
  if source.revoked then source
  else { source with pendingMisses :=
    { source.pendingMisses with lifecycle := source.pendingMisses.lifecycle ++ changes } }

def publishMisses (source : Source) (consumed : List String) (remap : String → String) : Source :=
  let state := source.pendingMisses
  { source with pendingMisses :=
    { state with
      transitions := state.transitions.filter (!consumed.contains ·.generation)
      lifecycle := (state.lifecycle.filter (!consumed.contains ·.generation)).map fun change =>
        { change with relationshipId := remap change.relationshipId } } }

def step (row : Option Source) (event : Event) : Option Source × Answer :=
  match event with
  | .full p snapshot env =>
    if snapshot.producerEpoch ≠ p.producerEpoch then (row, .threw)
    else
      let result := admitReport dateParse bytes row p snapshot env
      (some result.1, result.2)
  | .unchanged p confirmation env =>
    match row with
    | none => (none, .rejected .fullSnapshotRequired)
    | some source =>
      let result := confirmSource dateParse source p confirmation env
      (some result.1, result.2)
  | .revoke => (row.map revokeSource, .silent)
  | .age changes => (row.map (queueAging · changes), .silent)
  | .publish consumed remap => (row.map (publishMisses · consumed remap), .silent)

abbrev exec := LoggedRun.exec (step dateParse bytes)

abbrev log := LoggedRun.log (step dateParse bytes)

end

end Breeze.Topology.Ingest
