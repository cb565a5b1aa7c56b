import Mathlib.Tactic

/-! Counter windows between two raw samples of an interface: continuity first, then exact rates. -/

namespace Breeze.Topology.InterfaceRates

inductive AdminStatus
  | up
  | down
  | testing
  | unknown
  deriving DecidableEq, Repr

inductive OperStatus
  | up
  | down
  | testing
  | unknown
  | dormant
  | notPresent
  | lowerLayerDown
  deriving DecidableEq, Repr

inductive CounterWidth
  | bits32
  | bits64
  deriving DecidableEq, Repr

structure Group where
  interfaceId : String
  interfaceEpoch : String
  sourceId : String
  producerEpoch : String
  deriving DecidableEq, Repr

structure Readings where
  expectedIntervalSeconds : Nat
  counterWidth : Option CounterWidth
  inOctets : Option Nat
  outOctets : Option Nat
  inErrors : Option Nat
  outErrors : Option Nat
  inDiscards : Option Nat
  outDiscards : Option Nat
  capacityBps : Option Nat
  discontinuityTicks : Option Nat
  deviceUptimeTicks : Option Nat
  adminStatus : AdminStatus
  operStatus : OperStatus
  cadence : expectedIntervalSeconds ≤ 300
  deriving DecidableEq

structure Sample extends Readings where
  group : Group
  sampledAt : Int
  sourceSequence : Nat
  deriving DecidableEq

inductive Series
  | inBps
  | outBps
  | inUtilizationPct
  | outUtilizationPct
  | inErrorsPerSecond
  | outErrorsPerSecond
  | inDiscardsPerSecond
  | outDiscardsPerSecond
  deriving DecidableEq, Repr

inductive InvalidReason
  | firstSample
  | nonIncreasingTime
  | interfaceGenerationChanged
  | sourceChanged
  | deviceRestarted
  | counterDiscontinuity
  | gap
  | counterWidthChanged
  deriving DecidableEq, Repr

def InvalidReason.text : InvalidReason → String
  | .firstSample => "first_sample"
  | .nonIncreasingTime => "non_increasing_time"
  | .interfaceGenerationChanged => "interface_generation_changed"
  | .sourceChanged => "source_changed"
  | .deviceRestarted => "device_restarted"
  | .counterDiscontinuity => "counter_discontinuity"
  | .gap => "gap"
  | .counterWidthChanged => "counter_width_changed"

structure InterfaceWindow where
  group : Group
  fromMs : Int
  toMs : Int
  elapsedMs : Int
  validDurationMs : Int
  series : Series → Except String ℚ
  invalid : List InvalidReason
  anomalies : List String

def interfaceWindowMaxGapCadences : Int := 3

def octetDelta (prev curr : Option Nat) (width : Option CounterWidth) (capacityBps : Option Nat) (elapsedMs : Int) :
    Except String Int :=
  match prev, curr, width with
  | some a, some b, some .bits64 => if b ≥ a then .ok ((b : Int) - a) else .error "counter_decreased"
  | some a, some b, some .bits32 =>
    let modulus : Int := 4294967296
    match capacityBps with
    | none | some 0 => .error "ambiguous_wrap"
    | some capacity =>
      let delta : Int := if b ≥ a then (b : Int) - a else modulus - a + b
      let maxDelta := (capacity : Int) * elapsedMs / 8000
      if delta ≤ maxDelta ∧ delta + modulus > maxDelta then .ok delta else .error "ambiguous_wrap"
  | _, _, _ => .error "not_reported"

def eventDelta (prev curr : Option Nat) : Except String Int :=
  match prev, curr with
  | some a, some b => if b ≥ a then .ok ((b : Int) - a) else .error "counter_decreased"
  | _, _ => .error "not_reported"

section

variable (previous current : Sample)

def elapsed : Int := current.sampledAt - previous.sampledAt

def capacityStable : Bool :=
  match previous.capacityBps, current.capacityBps with
  | some a, some b => a == b && decide (b > 0)
  | _, _ => false

def capacityBound : Option Nat :=
  match previous.capacityBps, current.capacityBps with
  | some a, some b => some (if a > b then a else b)
  | _, _ => none

def bps (prev curr : Option Nat) : Except String ℚ :=
  (octetDelta prev curr current.counterWidth (capacityBound previous current) (elapsed previous current)).map
    fun delta => ((delta * 8000 : Int) : ℚ) / (elapsed previous current : ℚ)

def utilization (prev curr : Option Nat) : Except String ℚ :=
  match bps previous current prev curr with
  | .error reason => .error reason
  | .ok rate =>
    if capacityStable previous current then .ok (rate / (current.capacityBps.getD 0 : ℚ) * 100)
    else if previous.capacityBps.isSome && current.capacityBps.isSome && previous.capacityBps != current.capacityBps then
      .error "capacity_changed"
    else .error "capacity_unknown"

def perSecond (prev curr : Option Nat) : Except String ℚ :=
  (eventDelta prev curr).map fun delta => ((delta * 1000 : Int) : ℚ) / (elapsed previous current : ℚ)

def seriesValue : Series → Except String ℚ
  | .inBps => bps previous current previous.inOctets current.inOctets
  | .outBps => bps previous current previous.outOctets current.outOctets
  | .inUtilizationPct => utilization previous current previous.inOctets current.inOctets
  | .outUtilizationPct => utilization previous current previous.outOctets current.outOctets
  | .inErrorsPerSecond => perSecond previous current previous.inErrors current.inErrors
  | .outErrorsPerSecond => perSecond previous current previous.outErrors current.outErrors
  | .inDiscardsPerSecond => perSecond previous current previous.inDiscards current.inDiscards
  | .outDiscardsPerSecond => perSecond previous current previous.outDiscards current.outDiscards

def exceeds (rate : Except String ℚ) (name : String) : List String :=
  match rate, current.capacityBps with
  | .ok rate, some capacity => if capacity > 0 ∧ rate > (capacity : ℚ) then [name] else []
  | _, _ => []

def continuityFailures : List InvalidReason :=
  let generation := if previous.group.interfaceId ≠ current.group.interfaceId ∨
      previous.group.interfaceEpoch ≠ current.group.interfaceEpoch then [.interfaceGenerationChanged] else []
  let source := if previous.group.sourceId ≠ current.group.sourceId ∨
      previous.group.producerEpoch ≠ current.group.producerEpoch then [.sourceChanged] else []
  let time := if elapsed previous current ≤ 0 then [.nonIncreasingTime] else []
  let gap := if elapsed previous current > interfaceWindowMaxGapCadences * current.expectedIntervalSeconds * 1000 then
    [.gap] else []
  let restart := match previous.deviceUptimeTicks, current.deviceUptimeTicks with
    | some upA, some upB => if upB < upA then [.deviceRestarted] else []
    | _, _ => []
  let discontinuity := if previous.discontinuityTicks ≠ current.discontinuityTicks then [.counterDiscontinuity] else []
  let width := if previous.counterWidth ≠ current.counterWidth then [.counterWidthChanged] else []
  generation ++ source ++ time ++ gap ++ restart ++ discontinuity ++ width

end

def calculateInterfaceWindow (previous : Option Sample) (current : Sample) : InterfaceWindow :=
  match previous with
  | none =>
    { group := current.group, fromMs := current.sampledAt, toMs := current.sampledAt, elapsedMs := 0
      validDurationMs := 0, series := fun _ => .error InvalidReason.firstSample.text, invalid := [.firstSample]
      anomalies := [] }
  | some previous =>
    let window : InterfaceWindow :=
      { group := current.group, fromMs := previous.sampledAt, toMs := current.sampledAt
        elapsedMs := max 0 (elapsed previous current), validDurationMs := 0
        series := fun _ => .error "", invalid := continuityFailures previous current, anomalies := [] }
    match continuityFailures previous current with
    | reason :: _ => { window with series := fun _ => .error reason.text }
    | [] =>
      { window with
        validDurationMs := elapsed previous current
        series := seriesValue previous current
        anomalies := exceeds current (seriesValue previous current .inBps) "in_exceeds_capacity" ++
          exceeds current (seriesValue previous current .outBps) "out_exceeds_capacity" }

section

variable {previous current : Sample}

@[simp] lemma window_fromMs : (calculateInterfaceWindow (some previous) current).fromMs = previous.sampledAt := by
  simp only [calculateInterfaceWindow]
  split <;> rfl

@[simp] lemma window_toMs : (calculateInterfaceWindow (some previous) current).toMs = current.sampledAt := by
  simp only [calculateInterfaceWindow]
  split <;> rfl

@[simp] lemma window_invalid :
    (calculateInterfaceWindow (some previous) current).invalid = continuityFailures previous current := by
  simp only [calculateInterfaceWindow]
  split <;> rfl

lemma elapsed_le_of_continuous (h : continuityFailures previous current = []) : elapsed previous current ≤ 900000 := by
  simp only [continuityFailures, List.append_eq_nil_iff] at h
  obtain ⟨⟨⟨-, hgap⟩, -⟩, -⟩ := h.1
  have hcadence := current.cadence
  have hle : ¬ elapsed previous current > interfaceWindowMaxGapCadences * current.expectedIntervalSeconds * 1000 := by
    intro hlong
    simp [hlong] at hgap
  simp only [interfaceWindowMaxGapCadences] at hle
  omega

lemma gap_first (hgroup : previous.group = current.group) (hlong : 900000 < elapsed previous current) :
    (continuityFailures previous current).head? = some .gap := by
  have hcadence := current.cadence
  have hgap : elapsed previous current > interfaceWindowMaxGapCadences * current.expectedIntervalSeconds * 1000 := by
    simp only [interfaceWindowMaxGapCadences]
    omega
  have hpos : ¬ elapsed previous current ≤ 0 := by omega
  simp [continuityFailures, hgroup, hgap, hpos]

end

section Increments

inductive Direction
  | inward
  | outward

def Direction.bps : Direction → Series
  | .inward => .inBps
  | .outward => .outBps

def Direction.octets : Direction → Sample → Option Nat
  | .inward, sample => sample.inOctets
  | .outward, sample => sample.outOctets

def usedDelta (previous current : Sample) (dir : Direction) : Except String Int :=
  octetDelta (dir.octets previous) (dir.octets current) current.counterWidth (capacityBound previous current)
    (elapsed previous current)

def reported (previous current : Sample) (dir : Direction) : Except String ℚ :=
  (calculateInterfaceWindow (some previous) current).series dir.bps

def wrapped (a b : Nat) : Int := if b ≥ a then (b : Int) - a else 4294967296 - a + b

/-- The counter can have gone from `a` to `b` by this increment, at the speed of the link. -/
def Possible (a b capacity : Nat) (elapsedMs : Int) (increment : Nat) : Prop :=
  b = (a + increment) % 2 ^ 32 ∧ (increment : Int) ≤ capacity * elapsedMs / 8000

variable {previous current : Sample} {a b capacity : Nat} {elapsedMs : Int}

lemma reported_eq (h : continuityFailures previous current = []) (dir : Direction) :
    reported previous current dir =
      (usedDelta previous current dir).map fun delta => ((delta * 8000 : Int) : ℚ) / (elapsed previous current : ℚ) := by
  simp only [reported, calculateInterfaceWindow, h]
  cases dir <;> rfl

lemma octetDelta_bits32 (hpos : 0 < capacity) : octetDelta (some a) (some b) (some .bits32) (some capacity) elapsedMs =
      if wrapped a b ≤ capacity * elapsedMs / 8000 ∧ wrapped a b + 4294967296 > capacity * elapsedMs / 8000 then
        .ok (wrapped a b)
      else .error "ambiguous_wrap" := by
  cases capacity with
  | zero => cases hpos
  | succ capacity => rfl

lemma wrapped_spec (ha : a < 2 ^ 32) (hb : b < 2 ^ 32) :
    ∃ delta : Nat, wrapped a b = delta ∧ delta < 2 ^ 32 ∧ b = (a + delta) % 2 ^ 32 := by
  rw [wrapped]
  split_ifs
  · exact ⟨b - a, by omega, by omega, by omega⟩
  · exact ⟨4294967296 - a + b, by omega, by omega, by omega⟩

/-- A 32-bit delta is taken if and only if it is the one possible increment. -/
lemma octetDelta_spec (ha : a < 2 ^ 32) (hb : b < 2 ^ 32) (hpos : 0 < capacity) :
    (∃ D : Nat, octetDelta (some a) (some b) (some .bits32) (some capacity) elapsedMs = .ok (D : Int) ∧
        ∀ D', Possible a b capacity elapsedMs D' ↔ D' = D) ∨
      octetDelta (some a) (some b) (some .bits32) (some capacity) elapsedMs = .error "ambiguous_wrap" ∧
        ∀ D, Possible a b capacity elapsedMs D → ∃ D', D' ≠ D ∧ Possible a b capacity elapsedMs D' := by
  rw [octetDelta_bits32 hpos]
  simp only [Possible]
  generalize (capacity : Int) * elapsedMs / 8000 = bound
  obtain ⟨delta, hdelta, hsmall, hlt⟩ := wrapped_spec ha hb
  rw [hdelta]
  split_ifs with hfits
  · refine Or.inl ⟨delta, rfl, fun D' => ⟨fun h => by omega, ?_⟩⟩
    rintro rfl
    exact ⟨hlt, hfits.1⟩
  · refine Or.inr ⟨rfl, fun D hD => ?_⟩
    by_cases hfirst : D = delta
    · exact ⟨delta + 4294967296, by omega, by omega, by omega⟩
    · exact ⟨delta, fun h => hfirst h.symm, hlt, by omega⟩

lemma octetDelta_nonneg {prev curr : Option Nat} {width : Option CounterWidth} {bound : Option Nat} {delta : Int}
    (hsmall : width = some .bits32 → ∀ a, prev = some a → a < 2 ^ 32)
    (h : octetDelta prev curr width bound elapsedMs = .ok delta) : 0 ≤ delta := by
  rcases prev with _ | a
  · cases h
  rcases curr with _ | b
  · cases h
  rcases width with _ | _ | _
  · cases h
  · have ha := hsmall rfl a rfl
    rcases bound with _ | _ | capacity
    · cases h
    · cases h
    · rw [octetDelta_bits32 (Nat.succ_pos capacity), wrapped] at h
      split_ifs at h <;> cases h <;> omega
  · simp only [octetDelta] at h
    split_ifs at h
    cases h
    omega

lemma eventDelta_nonneg {prev curr : Option Nat} {delta : Int} (h : eventDelta prev curr = .ok delta) : 0 ≤ delta := by
  simp only [eventDelta] at h
  split at h
  · split_ifs at h
    cases h
    omega
  · cases h

theorem interface_rate_unique (hvalid : (calculateInterfaceWindow (some previous) current).invalid = []) (dir : Direction)
    {a b : Nat} (ha : dir.octets previous = some a) (hb : dir.octets current = some b) :
    (current.counterWidth = some .bits32 → a < 2 ^ 32 → b < 2 ^ 32 → ∀ c c', previous.capacityBps = some c →
      current.capacityBps = some c' → 0 < c → 0 < c' →
      (∀ D, Possible a b (max c c') (elapsed previous current) D →
        ((∃ rate, reported previous current dir = .ok rate) ↔
          ∀ D', Possible a b (max c c') (elapsed previous current) D' → D' = D) ∧
        ((∃ rate, reported previous current dir = .ok rate) → usedDelta previous current dir = .ok (D : Int) ∧
          reported previous current dir = .ok (((D : Int) * 8000 : Int) / (elapsed previous current : ℚ)))) ∧
      ((¬ ∃! D, Possible a b (max c c') (elapsed previous current) D) →
        reported previous current dir = .error "ambiguous_wrap")) ∧
    (current.counterWidth = some .bits64 → ((∃ rate, reported previous current dir = .ok rate) ↔ a ≤ b)) ∧
    (∀ delta, (current.counterWidth = some .bits32 → a < 2 ^ 32) → usedDelta previous current dir = .ok delta → 0 ≤ delta) ∧
    ∀ prev curr delta, eventDelta prev curr = .ok delta → 0 ≤ delta := by
  rw [window_invalid] at hvalid
  rw [reported_eq hvalid]
  refine ⟨fun hwidth hlow hhigh c c' hc hc' hpos _ => ?_, fun hwidth => ?_, fun delta hsmall h => ?_,
    fun prev curr delta => eventDelta_nonneg⟩
  · have hbound : capacityBound previous current = some (max c c') := by
      simp only [capacityBound, hc, hc', Option.some.injEq]
      split_ifs <;> omega
    have hused : usedDelta previous current dir =
        octetDelta (some a) (some b) (some .bits32) (some (max c c')) (elapsed previous current) := by
      rw [usedDelta, ha, hb, hwidth, hbound]
    rw [hused]
    rcases octetDelta_spec hlow hhigh (Nat.lt_of_lt_of_le hpos (Nat.le_max_left c c')) with ⟨D, hD, hunique⟩ | ⟨herror, htwo⟩
    · rw [hD]
      refine ⟨fun D' hD' => ?_, fun hno => absurd ⟨D, (hunique D).mpr rfl, fun D' => (hunique D').mp⟩ hno⟩
      obtain rfl := (hunique D').mp hD'
      exact ⟨⟨fun _ D'' => (hunique D'').mp, fun _ => ⟨_, rfl⟩⟩, fun _ => ⟨rfl, rfl⟩⟩
    · rw [herror]
      refine ⟨fun D hD => ⟨⟨nofun, fun hall => ?_⟩, nofun⟩, fun _ => rfl⟩
      obtain ⟨D', hne, hD'⟩ := htwo D hD
      exact absurd (hall D' hD') hne
  · rw [usedDelta, ha, hb, hwidth]
    simp only [octetDelta]
    split_ifs with hle
    · exact ⟨fun _ => hle, fun _ => ⟨_, rfl⟩⟩
    · exact ⟨nofun, fun h => absurd h hle⟩
  · refine octetDelta_nonneg (fun hwidth a' ha' => ?_) h
    rw [ha] at ha'
    cases ha'
    exact hsmall hwidth

def wrapping (sampledAt : Int) (octets : Nat) : Sample where
  expectedIntervalSeconds := 60
  counterWidth := some .bits32
  inOctets := some octets
  outOctets := none
  inErrors := none
  outErrors := none
  inDiscards := none
  outDiscards := none
  capacityBps := some 1000
  discontinuityTicks := none
  deviceUptimeTicks := none
  adminStatus := .up
  operStatus := .up
  cadence := by decide
  group := ⟨"eth0", "1", "agent", "1"⟩
  sampledAt := sampledAt
  sourceSequence := 0

theorem interface_rate_unique_wrapped :
    usedDelta (wrapping 0 4294967290) (wrapping 60000 10) .inward = .ok 16 := by
  have hvalid : (calculateInterfaceWindow (some (wrapping 0 4294967290)) (wrapping 60000 10)).invalid = [] := by decide
  have hwindow := interface_rate_unique hvalid .inward rfl rfl
  have hrate := hwindow.1 rfl (by decide) (by decide) 1000 1000 rfl rfl (by decide) (by decide)
  refine ((hrate.1 16 ⟨by decide, by decide⟩).2 ?_).1
  exact ⟨_, rfl⟩

end Increments

end Breeze.Topology.InterfaceRates
