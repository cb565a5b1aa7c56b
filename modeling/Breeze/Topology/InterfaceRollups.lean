import Breeze.Lib.Consecutive
import Breeze.Lib.KeyedFold
import Breeze.Topology.InterfaceRates

/-! Raw interface samples rolled up into five-minute and hourly rows, from a dirty mark on. -/

namespace Breeze.Topology.InterfaceRollups

open Breeze.Lib InterfaceRates
open Breeze.Lib.Consecutive (consecutive withPrevious)

def fiveMinutesMs : Int := 300000

def hourMs : Int := 3600000

def topologyRollupReachMs : Int := interfaceWindowMaxGapCadences * 300000

def topologyRollupCloseGraceMs : Int := 60000

def floorTo (ms size : Int) : Int := ms / size * size

structure SeriesAggregate where
  min : ℚ
  max : ℚ
  mean : ℚ
  validMs : Int
  deriving DecidableEq

inductive Resolution
  | fiveMinutes
  | hour
  deriving DecidableEq, Repr

def Resolution.bucketMs : Resolution → Int
  | .fiveMinutes => fiveMinutesMs
  | .hour => hourMs

structure InterfaceBucketAggregate where
  resolution : Resolution
  bucketStart : Int
  group : Group
  sourceSequence : Nat
  validDurationMs : Int
  sampleCount : Nat
  gapDurationMs : Int
  series : Series → Option SeriesAggregate
  capacityBps : Option Nat
  adminStatus : Option AdminStatus
  operStatus : Option OperStatus
  stateChanges : Nat
  invalid : InvalidReason → Int

structure SeriesSum where
  min : ℚ
  max : ℚ
  weighted : ℚ
  validMs : Int
  deriving DecidableEq

structure Accumulator where
  bucketStart : Int
  sampleCount : Nat := 0
  validMs : Int := 0
  sequence : Nat := 0
  stateChanges : Nat := 0
  sums : Series → Option SeriesSum := fun _ => none
  invalid : InvalidReason → Int := fun _ => 0
  last : Option Sample := none

def addSeries (current : Option SeriesSum) (value min max : ℚ) (weight : Int) : SeriesSum :=
  match current with
  | some current =>
    { min := Min.min current.min min, max := Max.max current.max max
      weighted := current.weighted + value * weight, validMs := current.validMs + weight }
  | none => { min, max, weighted := value * weight, validMs := weight }

structure BucketState where
  capacityBps : Option Nat
  adminStatus : Option AdminStatus
  operStatus : Option OperStatus

def finish (resolution : Resolution) (group : Group) (acc : Accumulator) (extra : BucketState) :
    InterfaceBucketAggregate :=
  let validDurationMs := min acc.validMs resolution.bucketMs
  { resolution, bucketStart := acc.bucketStart, group, sourceSequence := acc.sequence, validDurationMs
    sampleCount := acc.sampleCount, gapDurationMs := resolution.bucketMs - validDurationMs
    series := fun name => (acc.sums name).bind fun s =>
      if s.validMs > 0 then some { min := s.min, max := s.max, mean := s.weighted / s.validMs, validMs := s.validMs }
      else none
    capacityBps := extra.capacityBps, adminStatus := extra.adminStatus, operStatus := extra.operStatus
    stateChanges := acc.stateChanges, invalid := acc.invalid }

def byTime (a b : Sample) : Bool :=
  decide (a.sampledAt < b.sampledAt) || (a.sampledAt == b.sampledAt && decide (a.sourceSequence ≤ b.sourceSequence))

structure Range where
  fromMs : Int
  toMs : Int

def Range.contains (range : Range) (start : Int) : Bool :=
  decide (floorTo range.fromMs fiveMinutesMs ≤ start) && decide (start < range.toMs)

def countSample (previous : Option Sample) (sample : Sample) (acc : Accumulator) : Accumulator :=
  { acc with
    sampleCount := acc.sampleCount + 1
    sequence := max acc.sequence sample.sourceSequence
    last := match acc.last with
      | none => some sample
      | some last => if byTime last sample then some sample else some last
    stateChanges := match previous with
      | some previous => if previous.operStatus ≠ sample.operStatus ∨ previous.adminStatus ≠ sample.adminStatus then
          acc.stateChanges + 1 else acc.stateChanges
      | none => acc.stateChanges }

def addWindow (window : InterfaceWindow) (current : Sample) (overlap : Int) (acc : Accumulator) : Accumulator :=
  let acc := { acc with sequence := max acc.sequence current.sourceSequence }
  match window.invalid with
  | reason :: _ => { acc with invalid := Function.update acc.invalid reason (acc.invalid reason + overlap) }
  | [] =>
    { acc with
      validMs := acc.validMs + overlap
      sums := fun name => match window.series name with
        | .ok value => some (addSeries (acc.sums name) value value value overlap)
        | .error _ => acc.sums name }

def sampleStep (range : Range) (pair : Option Sample × Sample) : Option (Int × (Accumulator → Accumulator)) :=
  let start := floorTo pair.2.sampledAt fiveMinutesMs
  if range.contains start then some (start, countSample pair.1 pair.2) else none

def bucketStarts (fromMs toMs : Int) : List Int :=
  let first := floorTo fromMs fiveMinutesMs
  (List.range ((toMs - first + (fiveMinutesMs - 1)) / fiveMinutesMs).toNat).map fun i : Nat => first + (i : Int) * fiveMinutesMs

def overlapMs (fromMs toMs start : Int) : Int :=
  min toMs (start + fiveMinutesMs) - max fromMs start

def windowSteps (range : Range) (pair : Sample × Sample) : List (Int × (Accumulator → Accumulator)) :=
  let window := calculateInterfaceWindow (some pair.1) pair.2
  if window.toMs ≤ window.fromMs then []
  else (bucketStarts window.fromMs window.toMs).filterMap fun start =>
    if !range.contains start then none
    else
      let overlap := overlapMs window.fromMs window.toMs start
      if overlap ≤ 0 then none else some (start, addWindow window pair.2 overlap)

def bucketSteps (range : Range) (ordered : List Sample) : List (Int × (Accumulator → Accumulator)) :=
  (withPrevious ordered).filterMap (sampleStep range) ++ (consecutive ordered).flatMap (windowSteps range)

def bucketState (ordered : List Sample) (acc : Accumulator) : BucketState :=
  let state := acc.last <|> ordered.reverse.find? fun s => decide (s.sampledAt < acc.bucketStart + fiveMinutesMs)
  { capacityBps := state.bind (·.capacityBps), adminStatus := state.map (·.adminStatus)
    operStatus := state.map (·.operStatus) }

def aggregateGroup (range : Range) (group : Group) (members : List Sample) : List InterfaceBucketAggregate :=
  let ordered := members.mergeSort byTime
  (KeyedFold.touchAll (fun start => { bucketStart := start }) (bucketSteps range ordered)).map fun bucket =>
    finish .fiveMinutes group bucket.2 (bucketState ordered bucket.2)

def membersOf (samples : List Sample) (group : Group) : List Sample :=
  samples.filter (·.group == group)

def aggregateFiveMinuteBuckets (samples : List Sample) (range : Range) : List InterfaceBucketAggregate :=
  (samples.map (·.group)).eraseDups.flatMap fun group => aggregateGroup range group (membersOf samples group)

structure HourEntry where
  acc : Accumulator
  latest : Option InterfaceBucketAggregate := none

def addFiveMinutes (row : InterfaceBucketAggregate) (entry : HourEntry) : HourEntry :=
  let acc := entry.acc
  { acc :=
      { acc with
        sampleCount := acc.sampleCount + row.sampleCount
        validMs := acc.validMs + row.validDurationMs
        stateChanges := acc.stateChanges + row.stateChanges
        sequence := max acc.sequence row.sourceSequence
        invalid := fun reason => acc.invalid reason + row.invalid reason
        sums := fun name => match row.series name with
          | some s => if s.validMs > 0 then some (addSeries (acc.sums name) s.mean s.min s.max s.validMs)
            else acc.sums name
          | none => acc.sums name }
    latest := some row }

def aggregateHourlyBuckets (fiveMinute : List InterfaceBucketAggregate) (range : Range) :
    List InterfaceBucketAggregate :=
  let rows := fiveMinute.mergeSort fun a b => decide (a.bucketStart ≤ b.bucketStart)
  let steps := rows.filterMap fun row =>
    let start := floorTo row.bucketStart hourMs
    if row.resolution = .fiveMinutes ∧ floorTo range.fromMs hourMs ≤ start ∧ start < range.toMs then
      some ((row.group, start), addFiveMinutes row)
    else none
  (KeyedFold.touchAll (fun key => { acc := { bucketStart := key.2 } }) steps).map fun entry =>
    finish .hour entry.1.1 entry.2.acc
      { capacityBps := entry.2.latest.bind (·.capacityBps), adminStatus := entry.2.latest.bind (·.adminStatus)
        operStatus := entry.2.latest.bind (·.operStatus) }

structure Store where
  raw : List Sample := []
  dirtyFrom : Option Int := none
  fiveMinute : List InterfaceBucketAggregate := []
  hourly : List InterfaceBucketAggregate := []

structure Batch where
  samples : List Sample
  distinct : (samples.map (·.group.interfaceId)).Nodup

def sameIdentity (a b : Sample) : Bool :=
  a.group == b.group && a.sampledAt == b.sampledAt

def least (a b : Option Int) : Option Int :=
  match a, b with
  | some a, some b => some (min a b)
  | none, b => b
  | a, none => a

def persistTopologyInterfaceSamples (store : Store) (batch : Batch) : Store :=
  let written := batch.samples.filter fun sample => !store.raw.any (sameIdentity · sample)
  let skipped := batch.samples.filter fun sample => store.raw.any (sameIdentity · sample)
  if skipped.any fun sample => !store.raw.any fun row =>
      sameIdentity row sample && row.toReadings == sample.toReadings then store
  else
    { store with
      raw := store.raw ++ written
      dirtyFrom := least store.dirtyFrom (written.map (·.sampledAt)).min? }

def closedThrough (through : Int) : Int := floorTo (through - topologyRollupCloseGraceMs) fiveMinutesMs

def rangeStart (dirtyFrom : Int) : Int := floorTo (dirtyFrom - topologyRollupReachMs) fiveMinutesMs

def rawSlice (raw : List Sample) (fromMs toMs : Int) : List Sample :=
  raw.filter (Consecutive.within Sample.sampledAt (fromMs - topologyRollupReachMs) (toMs + topologyRollupReachMs))

def replaceRows (rows fresh : List InterfaceBucketAggregate) (fromMs toMs : Int) : List InterfaceBucketAggregate :=
  rows.filter (fun row => !(decide (fromMs ≤ row.bucketStart) && decide (row.bucketStart < toMs))) ++ fresh

def rollupTopologyInterfaceSource (store : Store) (through : Int) : Store :=
  match store.dirtyFrom with
  | none => store
  | some dirtyFrom =>
    let closed := closedThrough through
    let start := rangeStart dirtyFrom
    -- everything dirty is still in an open bucket
    if start ≥ closed then store
    else
      let rows := aggregateFiveMinuteBuckets (rawSlice store.raw start closed) ⟨start, closed⟩
      let fiveMinute := replaceRows store.fiveMinute rows start closed
      let hourFrom := floorTo start hourMs
      let hourTo := floorTo (closed - 1) hourMs + hourMs
      let stored := fiveMinute.filter fun row => decide (hourFrom ≤ row.bucketStart) && decide (row.bucketStart < hourTo)
      { store with
        fiveMinute
        hourly := replaceRows store.hourly (aggregateHourlyBuckets stored ⟨hourFrom, hourTo⟩) hourFrom hourTo
        dirtyFrom := ((store.raw.filter fun s => decide (closed ≤ s.sampledAt)).map (·.sampledAt)).min? }

inductive Event
  | batch (batch : Batch)
  | run (through : Int)
  | busy (through : Int)

def step (store : Store) : Event → Store
  | .batch batch => persistTopologyInterfaceSamples store batch
  | .run through => rollupTopologyInterfaceSource store through
  | .busy _ => store

def exec (store : Store) (events : List Event) : Store :=
  events.foldl step store

def runTimes (events : List Event) : List Int :=
  events.filterMap fun event => match event with
    | .run through | .busy through => some through
    | .batch _ => none

end Breeze.Topology.InterfaceRollups
