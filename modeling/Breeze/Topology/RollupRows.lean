import Breeze.Topology.InterfaceRollups

/-! What a five-minute row depends on: the samples and windows near its bucket. -/

namespace Breeze.Topology.RollupRows

open Breeze.Lib Breeze.Lib.Consecutive InterfaceRates InterfaceRollups List

section Buckets

def Aligned (s : Int) : Prop := floorTo s fiveMinutesMs = s

lemma floorTo_aligned (ms : Int) : Aligned (floorTo ms fiveMinutesMs) := by
  simp only [Aligned, floorTo, fiveMinutesMs]
  omega

lemma floorTo_eq_iff {ms s : Int} (hs : Aligned s) :
    floorTo ms fiveMinutesMs = s ↔ s ≤ ms ∧ ms < s + 300000 := by
  simp only [Aligned, floorTo, fiveMinutesMs] at hs ⊢
  omega

lemma mem_bucketStarts {fromMs toMs s : Int} :
    s ∈ bucketStarts fromMs toMs ↔ Aligned s ∧ floorTo fromMs fiveMinutesMs ≤ s ∧ s < toMs := by
  simp only [bucketStarts, mem_map, mem_range, Aligned, floorTo, fiveMinutesMs]
  constructor
  · rintro ⟨i, hi, rfl⟩
    omega
  · rintro ⟨hs, hlow, hhigh⟩
    exact ⟨(s / 300000 - fromMs / 300000).toNat, by omega, by omega⟩

lemma bucketStarts_nodup (fromMs toMs : Int) : (bucketStarts fromMs toMs).Nodup := by
  refine List.Nodup.map (fun i j h => ?_) nodup_range
  simp only [fiveMinutesMs] at h
  omega

lemma overlapMs_pos {fromMs toMs s : Int} :
    0 < overlapMs fromMs toMs s ↔ fromMs < toMs ∧ fromMs < s + 300000 ∧ s < toMs := by
  simp only [overlapMs, fiveMinutesMs]
  omega

end Buckets

section Steps

def countSteps (ordered : List Sample) (s : Int) : List (Accumulator → Accumulator) :=
  ((withPrevious ordered).filter fun p => decide (floorTo p.2.sampledAt fiveMinutesMs = s)).map fun p =>
    countSample p.1 p.2

def overlapping (ordered : List Sample) (s : Int) : List (Sample × Sample) :=
  (consecutive ordered).filter fun p => decide (0 < overlapMs p.1.sampledAt p.2.sampledAt s)

def overlapStep (s : Int) (p : Sample × Sample) : Accumulator → Accumulator :=
  addWindow (calculateInterfaceWindow (some p.1) p.2) p.2 (overlapMs p.1.sampledAt p.2.sampledAt s)

def rowSteps (ordered : List Sample) (s : Int) : List (Accumulator → Accumulator) :=
  countSteps ordered s ++ (overlapping ordered s).map (overlapStep s)

variable {range : Range} {s : Int}

lemma stepsAt_windowSteps (hs : Aligned s) (p : Sample × Sample) : KeyedFold.stepsAt (windowSteps range p) s =
      if range.contains s then if 0 < overlapMs p.1.sampledAt p.2.sampledAt s then [overlapStep s p] else [] else [] := by
  have hsteps : windowSteps range p =
      if p.2.sampledAt ≤ p.1.sampledAt then []
      else (bucketStarts p.1.sampledAt p.2.sampledAt).filterMap fun start =>
        if range.contains start && decide (0 < overlapMs p.1.sampledAt p.2.sampledAt start) then
          some (start, overlapStep start p) else none := by
    simp only [windowSteps, window_fromMs, window_toMs, overlapStep]
    refine if_congr Iff.rfl rfl (congrArg (List.filterMap · _) ?_)
    funext start
    by_cases hrange : range.contains start <;>
      by_cases hoverlap : 0 < overlapMs p.1.sampledAt p.2.sampledAt start <;>
        simp [hrange, hoverlap, not_lt.mp, not_le.mpr]
  rw [hsteps]
  by_cases hempty : p.2.sampledAt ≤ p.1.sampledAt
  · have hoverlap : ¬ 0 < overlapMs p.1.sampledAt p.2.sampledAt s := fun h => by
      have := (overlapMs_pos.mp h).1
      omega
    simp [hempty, hoverlap, KeyedFold.stepsAt]
  · rw [if_neg hempty, KeyedFold.stepsAt_keys (bucketStarts_nodup _ _), ← ite_and]
    refine if_congr ?_ rfl rfl
    simp only [Bool.and_eq_true, decide_eq_true_eq]
    constructor
    · exact fun h => h.2
    · rintro ⟨hrange, hoverlap⟩
      obtain ⟨hlt, hfrom, hto⟩ := overlapMs_pos.mp hoverlap
      refine ⟨mem_bucketStarts.mpr ⟨hs, ?_, hto⟩, hrange, hoverlap⟩
      simp only [Aligned, floorTo, fiveMinutesMs] at hs ⊢
      omega

lemma stepsAt_flatMap {l : List (Sample × Sample)} (hs : Aligned s) : KeyedFold.stepsAt (l.flatMap (windowSteps range)) s =
      if range.contains s then (l.filter fun p => decide (0 < overlapMs p.1.sampledAt p.2.sampledAt s)).map (overlapStep s)
      else [] := by
  induction l with
  | nil => simp [KeyedFold.stepsAt]
  | cons p l ih =>
    rw [flatMap_cons, KeyedFold.stepsAt_append, stepsAt_windowSteps hs, ih]
    by_cases hoverlap : 0 < overlapMs p.1.sampledAt p.2.sampledAt s <;>
      by_cases hrange : range.contains s <;> simp [hrange, hoverlap]

lemma stepsAt_bucketSteps (hs : Aligned s) (ordered : List Sample) :
    KeyedFold.stepsAt (bucketSteps range ordered) s = if range.contains s then rowSteps ordered s else [] := by
  rw [bucketSteps, KeyedFold.stepsAt_append, stepsAt_flatMap hs]
  have hcount : KeyedFold.stepsAt ((withPrevious ordered).filterMap (sampleStep range)) s =
      if range.contains s then countSteps ordered s else [] :=
    KeyedFold.stepsAt_filterMap (withPrevious ordered) (fun p => floorTo p.2.sampledAt fiveMinutesMs)
      (fun p => countSample p.1 p.2) range.contains s
  rw [hcount]
  split_ifs <;> rfl

lemma stepsAt_unaligned (hs : ¬ Aligned s) (ordered : List Sample) : KeyedFold.stepsAt (bucketSteps range ordered) s = [] := by
  have hkeys : ∀ step ∈ bucketSteps range ordered, Aligned step.1 := by
    intro step hstep
    rw [bucketSteps, mem_append] at hstep
    obtain hstep | hstep := hstep
    · obtain ⟨p, -, hp⟩ := List.mem_filterMap.mp hstep
      simp only [sampleStep] at hp
      split_ifs at hp
      cases hp
      exact floorTo_aligned _
    · obtain ⟨p, -, hp⟩ := List.mem_flatMap.mp hstep
      simp only [windowSteps] at hp
      split_ifs at hp
      · cases hp
      · obtain ⟨start, hstart, hp⟩ := List.mem_filterMap.mp hp
        split_ifs at hp
        cases hp
        exact (mem_bucketStarts.mp hstart).1
  simp only [KeyedFold.stepsAt, map_eq_nil_iff, filter_eq_nil_iff, beq_iff_eq]
  rintro step hstep rfl
  exact hs (hkeys step hstep)

end Steps

section Rows

def orderedOf (samples : List Sample) (g : Group) : List Sample :=
  (membersOf samples g).mergeSort byTime

def rowAcc (ordered : List Sample) (s : Int) : Accumulator :=
  (rowSteps ordered s).foldl (fun acc f => f acc) { bucketStart := s }

def rowOf (samples : List Sample) (g : Group) (s : Int) : Option InterfaceBucketAggregate :=
  let ordered := orderedOf samples g
  if (rowSteps ordered s).isEmpty then none
  else some (finish .fiveMinutes g (rowAcc ordered s) (bucketState ordered (rowAcc ordered s)))

def lookup (rows : List InterfaceBucketAggregate) (g : Group) (s : Int) : Option InterfaceBucketAggregate :=
  rows.find? fun row => row.group == g && row.bucketStart == s

variable {samples : List Sample} {range : Range} {g : Group} {s : Int} {row : InterfaceBucketAggregate}
  {rows : List InterfaceBucketAggregate}

lemma mem_orderedOf {x : Sample} : x ∈ orderedOf samples g ↔ x ∈ samples ∧ x.group = g := by
  simp [orderedOf, mem_mergeSort, membersOf]

lemma rowSteps_bucketStart (ordered : List Sample) (s : Int) :
    ∀ f ∈ rowSteps ordered s, ∀ acc, (f acc).bucketStart = acc.bucketStart := by
  intro f hf acc
  rw [rowSteps, mem_append] at hf
  obtain hf | hf := hf
  · obtain ⟨p, -, rfl⟩ := List.mem_map.mp hf
    rfl
  · obtain ⟨p, -, rfl⟩ := List.mem_map.mp hf
    simp only [overlapStep, addWindow]
    split <;> rfl

lemma rowAcc_bucketStart (ordered : List Sample) (s : Int) : (rowAcc ordered s).bucketStart = s := by
  have h : ∀ (steps : List (Accumulator → Accumulator)) (acc : Accumulator),
      (∀ f ∈ steps, ∀ acc, (f acc).bucketStart = acc.bucketStart) →
      (steps.foldl (fun acc f => f acc) acc).bucketStart = acc.bucketStart := by
    intro steps
    induction steps with
    | nil => exact fun _ _ => rfl
    | cons f steps ih =>
      intro acc hsteps
      rw [foldl_cons, ih _ fun f hf => hsteps f (mem_cons_of_mem _ hf)]
      exact hsteps f mem_cons_self acc
  exact h _ _ (rowSteps_bucketStart ordered s)

lemma rowOf_bucketStart (h : rowOf samples g s = some row) : row.group = g ∧ row.bucketStart = s := by
  simp only [rowOf] at h
  split_ifs at h
  cases h
  exact ⟨rfl, rowAcc_bucketStart _ _⟩

lemma mem_buckets {ordered : List Sample} {acc : Accumulator} :
    (s, acc) ∈ KeyedFold.touchAll (fun start => { bucketStart := start }) (bucketSteps range ordered) ↔
      Aligned s ∧ range.contains s = true ∧ rowSteps ordered s ≠ [] ∧ acc = rowAcc ordered s := by
  rw [KeyedFold.mem_touchAll, KeyedFold.folded]
  by_cases hs : Aligned s
  · rw [stepsAt_bucketSteps hs]
    by_cases hrange : range.contains s = true <;> simp [hs, hrange, rowAcc]
  · simp [stepsAt_unaligned hs, hs]

lemma mem_aggregate :
    row ∈ aggregateFiveMinuteBuckets samples range ↔
      Aligned row.bucketStart ∧ range.contains row.bucketStart = true ∧
        rowOf samples row.group row.bucketStart = some row := by
  simp only [aggregateFiveMinuteBuckets, aggregateGroup, mem_flatMap, mem_eraseDups, mem_map, Prod.exists]
  constructor
  · rintro ⟨g, -, s, acc, hmem, rfl⟩
    change (s, acc) ∈ KeyedFold.touchAll _ (bucketSteps range (orderedOf samples g)) at hmem
    obtain ⟨hs, hrange, hne, rfl⟩ := mem_buckets.mp hmem
    have hrow : rowOf samples g s = some (finish .fiveMinutes g (rowAcc (orderedOf samples g) s)
        (bucketState (orderedOf samples g) (rowAcc (orderedOf samples g) s))) := by
      rw [rowOf, if_neg (by simpa using hne)]
    obtain ⟨hg, hstart⟩ := rowOf_bucketStart hrow
    change _ = some (finish .fiveMinutes g (rowAcc (orderedOf samples g) s) _) at hrow
    change Aligned (rowAcc (orderedOf samples g) s).bucketStart ∧
      range.contains (rowAcc (orderedOf samples g) s).bucketStart = true ∧
      rowOf samples g (rowAcc (orderedOf samples g) s).bucketStart = _
    rw [rowAcc_bucketStart]
    exact ⟨hs, hrange, hrow⟩
  · rintro ⟨hs, hrange, hrow⟩
    simp only [rowOf] at hrow
    split_ifs at hrow with hne
    have hmember : ∃ x, x ∈ orderedOf samples row.group := by
      by_contra hnone
      have hnil : orderedOf samples row.group = [] := List.eq_nil_iff_forall_not_mem.mpr (not_exists.mp hnone)
      simp [hnil, show rowSteps [] row.bucketStart = [] from rfl] at hne
    obtain ⟨x, hx⟩ := hmember
    obtain ⟨hx, hgroup⟩ := mem_orderedOf.mp hx
    have hne : rowSteps (orderedOf samples row.group) row.bucketStart ≠ [] := by simpa using hne
    exact ⟨row.group, ⟨x, hx, hgroup⟩, row.bucketStart, _, mem_buckets.mpr ⟨hs, hrange, hne, rfl⟩,
      Option.some.inj hrow⟩

def UniqueRows (rows : List InterfaceBucketAggregate) : Prop :=
  ∀ row ∈ rows, ∀ other ∈ rows, row.group = other.group → row.bucketStart = other.bucketStart → row = other

lemma mem_of_lookup (h : lookup rows g s = some row) : row ∈ rows ∧ row.group = g ∧ row.bucketStart = s := by
  refine ⟨List.mem_of_find?_eq_some h, ?_⟩
  simpa using List.find?_some h

lemma lookup_eq_some (hunique : UniqueRows rows) (hmem : row ∈ rows) (hg : row.group = g) (hs : row.bucketStart = s) :
    lookup rows g s = some row := by
  cases h : lookup rows g s with
  | none =>
    have := List.find?_eq_none.mp h row hmem
    simp [hg, hs] at this
  | some other =>
    obtain ⟨hother, hg', hs'⟩ := mem_of_lookup h
    rw [hunique row hmem other hother (hg.trans hg'.symm) (hs.trans hs'.symm)]

lemma aggregate_unique (samples : List Sample) (range : Range) : UniqueRows (aggregateFiveMinuteBuckets samples range) := by
  intro row hrow other hother hg hs
  have h := (mem_aggregate.mp hrow).2.2
  rw [hg, hs, (mem_aggregate.mp hother).2.2] at h
  exact (Option.some.inj h).symm

lemma lookup_aggregate (hs : Aligned s) (hrange : range.contains s = true) :
    lookup (aggregateFiveMinuteBuckets samples range) g s = rowOf samples g s := by
  cases hrow : rowOf samples g s with
  | some row =>
    obtain ⟨hg, hstart⟩ := rowOf_bucketStart hrow
    subst hg hstart
    exact lookup_eq_some (aggregate_unique _ _) (mem_aggregate.mpr ⟨hs, hrange, hrow⟩) rfl rfl
  | none =>
    refine List.find?_eq_none.mpr fun row hmem hkey => ?_
    simp only [Bool.and_eq_true, beq_iff_eq] at hkey
    have h := (mem_aggregate.mp hmem).2.2
    rw [hkey.1, hkey.2, hrow] at h
    cases h

end Rows

section Order

def Distinct (samples : List Sample) : Prop :=
  samples.Pairwise fun a b => ¬ (a.group = b.group ∧ a.sampledAt = b.sampledAt)

variable {samples others : List Sample} {g : Group}

lemma byTime_total (a b : Sample) : (byTime a b || byTime b a) = true := by
  simp only [byTime, Bool.or_eq_true, Bool.and_eq_true, decide_eq_true_eq, beq_iff_eq]
  omega

lemma byTime_trans (a b c : Sample) (hab : byTime a b = true) (hbc : byTime b c = true) : byTime a c = true := by
  simp only [byTime, Bool.or_eq_true, Bool.and_eq_true, decide_eq_true_eq, beq_iff_eq] at *
  omega

lemma orderedOf_increasing (h : Distinct samples) (g : Group) : Increasing Sample.sampledAt (orderedOf samples g) := by
  have hsorted : (orderedOf samples g).Pairwise fun a b => byTime a b = true :=
    pairwise_mergeSort byTime_trans byTime_total _
  have hmembers : (membersOf samples g).Pairwise fun a b => a.sampledAt ≠ b.sampledAt := by
    have hp := (List.Pairwise.filter (fun x : Sample => x.group == g) h).imp_of_mem
      (S := fun a b => a.sampledAt ≠ b.sampledAt) fun {a b} ha hb hab htime => by
        simp only [mem_filter, beq_iff_eq] at ha hb
        exact hab ⟨ha.2.trans hb.2.symm, htime⟩
    exact hp
  have hdistinct : (orderedOf samples g).Pairwise fun a b => a.sampledAt ≠ b.sampledAt :=
    ((mergeSort_perm (membersOf samples g) byTime).pairwise_iff (fun h => Ne.symm h)).mpr hmembers
  refine (hsorted.and hdistinct).imp fun {a b} hab => ?_
  simp only [byTime, Bool.or_eq_true, Bool.and_eq_true, decide_eq_true_eq, beq_iff_eq] at hab
  omega

lemma orderedOf_agree (h : Distinct samples) (h' : Distinct others) {p : Sample → Bool}
    (hagree : ∀ x, p x = true → (x ∈ samples ↔ x ∈ others)) :
    (orderedOf samples g).filter p = (orderedOf others g).filter p := by
  refine Increasing.ext (orderedOf_increasing h g).filter (orderedOf_increasing h' g).filter fun x => ?_
  simp only [mem_filter, mem_orderedOf]
  constructor
  · exact fun hx => ⟨⟨(hagree x hx.2).mp hx.1.1, hx.1.2⟩, hx.2⟩
  · exact fun hx => ⟨⟨(hagree x hx.2).mpr hx.1.1, hx.1.2⟩, hx.2⟩

lemma orderedOf_filter (h : Distinct samples) (p : Sample → Bool) :
    orderedOf (samples.filter p) g = (orderedOf samples g).filter p := by
  refine Increasing.ext (orderedOf_increasing (List.Pairwise.filter p h) g) (orderedOf_increasing h g).filter
    fun x => ?_
  simp only [mem_filter, mem_orderedOf]
  tauto

end Order

section Measures

def measures : Option InterfaceBucketAggregate → Nat × Int × (Series → Option SeriesAggregate)
  | none => (0, 0, fun _ => none)
  | some row => (row.sampleCount, row.validDurationMs, row.series)

def isContinuous (p : Sample × Sample) : Bool := (continuityFailures p.1 p.2).isEmpty

def SameValues (a b : Accumulator) : Prop := a.validMs = b.validMs ∧ a.sums = b.sums

lemma overlapStep_sampleCount (s : Int) (p : Sample × Sample) (acc : Accumulator) :
    (overlapStep s p acc).sampleCount = acc.sampleCount := by
  simp only [overlapStep, addWindow]
  split <;> rfl

lemma overlapStep_broken {s : Int} {p : Sample × Sample} (h : isContinuous p = false) (acc : Accumulator) :
    SameValues (overlapStep s p acc) acc := by
  simp only [overlapStep, addWindow, window_invalid]
  split
  · exact ⟨rfl, rfl⟩
  · simp_all [isContinuous]

lemma overlapStep_same {s : Int} (p : Sample × Sample) {a b : Accumulator} (h : SameValues a b) :
    SameValues (overlapStep s p a) (overlapStep s p b) := by
  obtain ⟨hvalid, hsums⟩ := h
  simp only [overlapStep, addWindow]
  split
  · exact ⟨hvalid, hsums⟩
  · exact ⟨by simp [hvalid], by simp [hsums]⟩

def foldOverlaps (s : Int) (pairs : List (Sample × Sample)) (acc : Accumulator) : Accumulator :=
  (pairs.map (overlapStep s)).foldl (fun acc f => f acc) acc

lemma foldOverlaps_sampleCount (s : Int) (pairs : List (Sample × Sample)) (acc : Accumulator) :
    (foldOverlaps s pairs acc).sampleCount = acc.sampleCount := by
  induction pairs generalizing acc with
  | nil => rfl
  | cons p pairs ih => exact (ih (overlapStep s p acc)).trans (overlapStep_sampleCount s p acc)

lemma foldOverlaps_continuous (s : Int) (pairs : List (Sample × Sample)) {a b : Accumulator} (h : SameValues a b) :
    SameValues (foldOverlaps s pairs a) (foldOverlaps s (pairs.filter isContinuous) b) := by
  induction pairs generalizing a b with
  | nil => exact h
  | cons p pairs ih =>
    cases hp : isContinuous p with
    | true =>
      rw [filter_cons_of_pos hp]
      exact ih (overlapStep_same p h)
    | false =>
      rw [filter_cons_of_neg (by simp [hp])]
      obtain ⟨hvalid, hsums⟩ := overlapStep_broken (s := s) hp a
      exact ih ⟨hvalid.trans h.1, hsums.trans h.2⟩

lemma foldCounts (steps : List (Option Sample × Sample)) (acc : Accumulator) :
    ((steps.map fun p => countSample p.1 p.2).foldl (fun acc f => f acc) acc).sampleCount =
        acc.sampleCount + steps.length ∧
      SameValues ((steps.map fun p => countSample p.1 p.2).foldl (fun acc f => f acc) acc) acc := by
  induction steps generalizing acc with
  | nil => exact ⟨rfl, rfl, rfl⟩
  | cons p steps ih =>
    obtain ⟨hcount, hvalid, hsums⟩ := ih (countSample p.1 p.2 acc)
    refine ⟨?_, hvalid, hsums⟩
    rw [map_cons, foldl_cons, hcount]
    simp only [countSample, length_cons]
    omega

def inBucket (s : Int) (x : Sample) : Bool := decide (floorTo x.sampledAt fiveMinutesMs = s)

lemma countSteps_length (ordered : List Sample) (s : Int) :
    (countSteps ordered s).length = (ordered.filter (inBucket s)).length := by
  have hsnd : ordered = (withPrevious ordered).map (·.2) := by
    rw [withPrevious, map_snd_zip]
    simp
  nth_rewrite 2 [hsnd]
  rw [countSteps, length_map, filter_map, length_map]
  rfl

def measuresFrom (count : Nat) (pairs : List (Sample × Sample)) (s : Int) :
    Nat × Int × (Series → Option SeriesAggregate) :=
  let acc := foldOverlaps s pairs { bucketStart := s }
  let row := finish .fiveMinutes ⟨"", "", "", ""⟩ acc ⟨none, none, none⟩
  (count, row.validDurationMs, row.series)

lemma measures_rowOf (samples : List Sample) (g : Group) (s : Int) :
    measures (rowOf samples g s) =
      measuresFrom ((orderedOf samples g).filter (inBucket s)).length
        ((overlapping (orderedOf samples g) s).filter isContinuous) s := by
  have hacc : (rowAcc (orderedOf samples g) s).sampleCount = ((orderedOf samples g).filter (inBucket s)).length ∧
      SameValues (rowAcc (orderedOf samples g) s)
        (foldOverlaps s ((overlapping (orderedOf samples g) s).filter isContinuous) { bucketStart := s }) := by
    rw [rowAcc, rowSteps, foldl_append]
    obtain ⟨hcount, hsame⟩ := foldCounts ((withPrevious (orderedOf samples g)).filter fun p =>
      decide (floorTo p.2.sampledAt fiveMinutesMs = s)) { bucketStart := s }
    refine ⟨?_, foldOverlaps_continuous s _ hsame⟩
    refine (foldOverlaps_sampleCount s _ _).trans (hcount.trans ?_)
    rw [← countSteps_length, countSteps, length_map]
    exact Nat.zero_add _
  obtain ⟨hcount, hvalid, hsums⟩ := hacc
  by_cases hnone : (rowSteps (orderedOf samples g) s).isEmpty = true
  · have hinit : rowAcc (orderedOf samples g) s = { bucketStart := s } := by
      rw [rowAcc, List.isEmpty_iff.mp hnone]
      rfl
    rw [rowOf, if_pos hnone]
    simp only [measures, measuresFrom, finish, ← hcount, ← hvalid, ← hsums, hinit]
    simp [Resolution.bucketMs, fiveMinutesMs]
  · rw [rowOf, if_neg hnone]
    simp only [measures, measuresFrom, finish, hcount, hvalid, hsums]

end Measures

section Locality

def isNear (s : Int) : Sample → Bool :=
  within Sample.sampledAt (s - topologyRollupReachMs) (s + fiveMinutesMs + topologyRollupReachMs)

lemma isNear_iff {s : Int} {x : Sample} :
    isNear s x = true ↔ s - 900000 ≤ x.sampledAt ∧ x.sampledAt < s + 1200000 := by
  rw [isNear, within, Bool.and_eq_true, decide_eq_true_eq, decide_eq_true_eq]
  simp only [topologyRollupReachMs, interfaceWindowMaxGapCadences, fiveMinutesMs]
  omega

variable {samples others ordered : List Sample} {g : Group} {s : Int}

lemma bucket_near (hs : Aligned s) {x : Sample} (hx : inBucket s x = true) : isNear s x = true := by
  rw [inBucket, decide_eq_true_eq, floorTo_eq_iff hs] at hx
  rw [isNear_iff]
  omega

lemma filter_bucket_near (hs : Aligned s) (ordered : List Sample) :
    (ordered.filter (isNear s)).filter (inBucket s) = ordered.filter (inBucket s) := by
  rw [filter_filter]
  refine filter_congr fun x _ => ?_
  cases hx : inBucket s x with
  | false => rfl
  | true => simp [bucket_near hs hx]

lemma valid_overlap_near (hordered : Increasing Sample.sampledAt ordered) :
    (overlapping (ordered.filter (isNear s)) s).filter isContinuous =
      (overlapping ordered s).filter isContinuous := by
  rw [overlapping, overlapping, isNear, consecutive_within hordered, filter_filter, filter_filter,
    filter_filter]
  refine filter_congr fun p _ => ?_
  cases hp : isContinuous p with
  | false => simp
  | true =>
    cases hover : decide (0 < overlapMs p.1.sampledAt p.2.sampledAt s) with
    | false => simp
    | true =>
      have helapsed := elapsed_le_of_continuous (List.isEmpty_iff.mp hp)
      obtain ⟨hlt, hfrom, hto⟩ := overlapMs_pos.mp (of_decide_eq_true hover)
      simp only [elapsed] at helapsed
      have h₁ : isNear s p.1 = true := isNear_iff.mpr (by omega)
      have h₂ : isNear s p.2 = true := isNear_iff.mpr (by omega)
      simp only [isNear] at h₁ h₂
      simp [h₁, h₂]

lemma measures_local (hs : Aligned s) (h : Distinct samples) (h' : Distinct others)
    (hagree : ∀ x, isNear s x = true → (x ∈ samples ↔ x ∈ others)) :
    measures (rowOf samples g s) = measures (rowOf others g s) := by
  have hnear := orderedOf_agree (g := g) h h' hagree
  rw [measures_rowOf, measures_rowOf, ← filter_bucket_near hs (orderedOf samples g),
    ← filter_bucket_near hs (orderedOf others g), ← valid_overlap_near (orderedOf_increasing h g),
    ← valid_overlap_near (orderedOf_increasing h' g), hnear]

def touches (s : Int) (p : Sample × Sample) : Prop :=
  p.1.sampledAt < s + 300000 ∧ s ≤ p.2.sampledAt

lemma overlapping_near (hordered : Increasing Sample.sampledAt ordered)
    (htouch : ∀ p ∈ consecutive ordered, touches s p → isNear s p.1 = true ∧ isNear s p.2 = true) :
    overlapping (ordered.filter (isNear s)) s = overlapping ordered s := by
  rw [overlapping, overlapping, isNear, consecutive_within hordered, filter_filter]
  refine filter_congr fun p hp => ?_
  cases hover : decide (0 < overlapMs p.1.sampledAt p.2.sampledAt s) with
  | false => simp
  | true =>
    obtain ⟨hlt, hfrom, hto⟩ := overlapMs_pos.mp (of_decide_eq_true hover)
    obtain ⟨h₁, h₂⟩ := htouch p hp ⟨hfrom, hto.le⟩
    simp only [isNear] at h₁ h₂
    simp [h₁, h₂]

lemma counted_cons (a : Sample) (l : List Sample) (s : Int) :
    countSteps (a :: l) s =
      (if inBucket s a then [countSample none a] else []) ++
        ((consecutive (a :: l)).filter fun p => inBucket s p.2).map fun p => countSample (some p.1) p.2 := by
  rw [countSteps, withPrevious_cons, filter_cons, filter_map]
  cases ha : inBucket s a <;> simp_all [inBucket, Function.comp_def]

section

variable (hs : Aligned s) (hordered : Increasing Sample.sampledAt ordered) (htouch : ∀ p ∈ consecutive ordered, touches s p → isNear s p.1 = true ∧ isNear s p.2 = true)

include hs hordered htouch

lemma countSteps_near :
    countSteps (ordered.filter (isNear s)) s = countSteps ordered s := by
  have hbucket : ∀ p ∈ consecutive ordered, inBucket s p.2 = true → touches s p := by
    intro p hp hin
    rw [inBucket, decide_eq_true_eq, floorTo_eq_iff hs] at hin
    obtain ⟨-, -, hlt, -⟩ := consecutive_mem hordered hp
    exact ⟨by omega, hin.1⟩
  have hpairs : (consecutive (ordered.filter (isNear s))).filter (fun p => inBucket s p.2) =
      (consecutive ordered).filter fun p => inBucket s p.2 := by
    rw [isNear, consecutive_within hordered, filter_filter]
    refine filter_congr fun p hp => ?_
    cases hin : inBucket s p.2 with
    | false => rfl
    | true =>
      obtain ⟨h₁, h₂⟩ := htouch p hp (hbucket p hp hin)
      simp only [isNear] at h₁ h₂
      simp [h₁, h₂]
  cases ordered with
  | nil => rfl
  | cons a l =>
    cases ha : isNear s a with
    | true =>
      rw [filter_cons_of_pos ha] at hpairs ⊢
      rw [counted_cons, counted_cons, hpairs]
    | false =>
      have hout : inBucket s a = false := by
        by_contra hin
        simp [bucket_near hs (by simpa using hin)] at ha
      rw [filter_cons_of_neg (by simp [ha])] at hpairs ⊢
      rw [counted_cons a, hout, ← hpairs]
      cases hrest : l.filter (isNear s) with
      | nil => rfl
      | cons a' l' =>
        have hmem : a' ∈ l ∧ isNear s a' = true := by
          rw [← mem_filter, hrest]
          exact mem_cons_self
        -- the first near sample is not in the bucket: the one before it would be near too
        have hout' : inBucket s a' = false := by
          by_contra hin
          have hlt : a.sampledAt < a'.sampledAt := (List.pairwise_cons.mp hordered).1 a' hmem.1
          obtain ⟨b, hb⟩ := exists_before hordered (mem_cons_of_mem _ hmem.1) mem_cons_self hlt
          have hnear := (htouch _ hb (hbucket _ hb (by simpa using hin))).1
          obtain ⟨hbmem, -, hba, -⟩ := consecutive_mem hordered hb
          have hbfilter : b ∈ a' :: l' := by
            rw [← hrest, mem_filter]
            obtain rfl | hbl := List.mem_cons.mp hbmem
            · simp [ha] at hnear
            · exact ⟨hbl, hnear⟩
          have hinc : Increasing Sample.sampledAt (a' :: l') :=
            hrest ▸ (List.pairwise_cons.mp hordered).2.filter _
          obtain rfl | hbl' := List.mem_cons.mp hbfilter
          · exact lt_irrefl _ hba
          · exact absurd ((List.pairwise_cons.mp hinc).1 b hbl') hba.not_gt
        simp only [counted_cons, hout', Bool.false_eq_true, if_false]

lemma rowSteps_near :
    rowSteps (ordered.filter (isNear s)) s = rowSteps ordered s := by
  rw [rowSteps, rowSteps, countSteps_near hs hordered htouch, overlapping_near hordered htouch]

end

end Locality

section Accounting

def accounting (row : Option InterfaceBucketAggregate) : Option (Nat × (InvalidReason → Int)) :=
  row.map fun row => (row.stateChanges, row.invalid)

def NoLongSilence (samples : List Sample) (g : Group) : Prop :=
  ∀ p ∈ consecutive (orderedOf samples g), rangeStart p.2.sampledAt ≤ floorTo p.1.sampledAt fiveMinutesMs

variable {samples others : List Sample} {g : Group} {s : Int}

lemma touching_near (hs : Aligned s) (hquiet : NoLongSilence samples g) {p : Sample × Sample}
    (hp : p ∈ consecutive (orderedOf samples g)) (htouch : touches s p) :
    isNear s p.1 = true ∧ isNear s p.2 = true := by
  have hreach := hquiet p hp
  simp only [touches] at htouch
  simp only [rangeStart, floorTo, fiveMinutesMs, topologyRollupReachMs, interfaceWindowMaxGapCadences, Aligned]
    at hreach hs
  rw [isNear_iff, isNear_iff]
  omega

section

variable (hs : Aligned s) (hquiet : NoLongSilence samples g) (h : Distinct samples) (h' : Distinct others) (hsub : ∀ x ∈ others, x ∈ samples) (hnear : ∀ x ∈ samples, isNear s x = true → x ∈ others)

include hs hquiet h h' hsub hnear

lemma part_touching_near
    {p : Sample × Sample} (hp : p ∈ consecutive (orderedOf others g)) (htouch : touches s p) :
    isNear s p.1 = true ∧ isNear s p.2 = true := by
  obtain ⟨a, b⟩ := p
  have hinc := orderedOf_increasing h g
  have hinc' := orderedOf_increasing h' g
  have hmem : ∀ {x}, x ∈ orderedOf others g → x ∈ orderedOf samples g := fun hx => by
    rw [mem_orderedOf] at hx ⊢
    exact ⟨hsub _ hx.1, hx.2⟩
  obtain ⟨ha, hb, hab, hbetween⟩ := consecutive_mem hinc' hp
  simp only [touches] at htouch
  -- the neighbours of the whole history on either side of `a`, or of the bucket's start when `a` is before it
  obtain ⟨c, d, hcd, hc, hd⟩ := exists_crossing (u := max s (a.sampledAt + 1)) hinc (hmem ha) (hmem hb)
    (by omega) (by omega)
  have htouch' : touches s (c, d) := by
    simp only [touches]
    omega
  obtain ⟨hcn, hdn⟩ := touching_near hs hquiet hcd htouch'
  obtain ⟨hcmem, hdmem, -, hbetween'⟩ := consecutive_mem hinc hcd
  rw [mem_orderedOf] at hcmem hdmem
  have hc' : c ∈ orderedOf others g := mem_orderedOf.mpr ⟨hnear c hcmem.1 hcn, hcmem.2⟩
  have hd' : d ∈ orderedOf others g := mem_orderedOf.mpr ⟨hnear d hdmem.1 hdn, hdmem.2⟩
  have h₁ := hbetween c hc'
  have h₂ := hbetween d hd'
  have h₃ := hbetween' a (hmem ha)
  have h₄ := hbetween' b (hmem hb)
  rw [isNear_iff] at hcn hdn ⊢
  rw [isNear_iff]
  dsimp only at *
  omega

lemma accounting_local :
    accounting (rowOf others g s) = accounting (rowOf samples g s) := by
  have hagree : (orderedOf others g).filter (isNear s) = (orderedOf samples g).filter (isNear s) :=
    orderedOf_agree h' h fun x hx => ⟨fun hx' => hsub x hx', fun hx' => hnear x hx' hx⟩
  have hsteps : rowSteps (orderedOf others g) s = rowSteps (orderedOf samples g) s := by
    rw [← rowSteps_near hs (orderedOf_increasing h' g) fun p hp => part_touching_near hs hquiet h h' hsub hnear hp,
      ← rowSteps_near hs (orderedOf_increasing h g) fun p hp => touching_near hs hquiet hp, hagree]
  simp only [accounting, rowOf, rowAcc, hsteps]
  split_ifs <;> rfl

end

end Accounting

end Breeze.Topology.RollupRows
