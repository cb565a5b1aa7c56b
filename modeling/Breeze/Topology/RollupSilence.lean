import Breeze.Topology.RollupSchedules

/-! Gap time and state changes in rollups: they depend on when runs come exactly when a silence outlasts the reach. -/

namespace Breeze.Topology.RollupSilence

open Breeze.Lib Breeze.Lib.Consecutive InterfaceRates InterfaceRollups RollupRows RollupSchedules List

section BrokenTime

def brokenTime (reason : InvalidReason) (s : Int) (pairs : List (Sample × Sample)) : Int :=
  ((pairs.filter fun p => decide ((continuityFailures p.1 p.2).head? = some reason)).map fun p =>
    overlapMs p.1.sampledAt p.2.sampledAt s).sum

section

variable (reason : InvalidReason) (s : Int)

lemma brokenTime_append (pairs others : List (Sample × Sample)) :
    brokenTime reason s (pairs ++ others) = brokenTime reason s pairs + brokenTime reason s others := by
  simp [brokenTime]

lemma overlapStep_invalid (p : Sample × Sample) (acc : Accumulator) :
    (overlapStep s p acc).invalid reason = acc.invalid reason + brokenTime reason s [p] := by
  simp only [overlapStep, addWindow, window_invalid, brokenTime]
  cases h : continuityFailures p.1 p.2 with
  | nil => simp [h]
  | cons first rest =>
    by_cases hreason : first = reason
    · simp [h, hreason]
    · simp [h, hreason, Function.update_of_ne (Ne.symm hreason)]

lemma foldOverlaps_invalid (pairs : List (Sample × Sample)) (acc : Accumulator) :
    (foldOverlaps s pairs acc).invalid reason = acc.invalid reason + brokenTime reason s pairs := by
  induction pairs generalizing acc with
  | nil => simp [foldOverlaps, brokenTime]
  | cons p pairs ih =>
    have h := ih (overlapStep s p acc)
    rw [overlapStep_invalid, Int.add_assoc, ← brokenTime_append] at h
    exact h

end

lemma foldCounts_invalid (steps : List (Option Sample × Sample)) (acc : Accumulator) :
    ((steps.map fun p => countSample p.1 p.2).foldl (fun acc f => f acc) acc).invalid = acc.invalid := by
  induction steps generalizing acc with
  | nil => rfl
  | cons p steps ih => exact ih (countSample p.1 p.2 acc)

lemma rowAcc_invalid (reason : InvalidReason) (ordered : List Sample) (s : Int) :
    (rowAcc ordered s).invalid reason = brokenTime reason s (overlapping ordered s) := by
  rw [rowAcc, rowSteps, foldl_append, countSteps]
  refine (foldOverlaps_invalid reason s _ _).trans ?_
  rw [foldCounts_invalid]
  exact Int.zero_add _

variable {samples : List Sample} {g : Group} {s : Int}

lemma accounting_rowOf {x : Sample} (hx : x ∈ orderedOf samples g) (hin : inBucket s x = true) :
    ∃ changes, accounting (rowOf samples g s) =
      some (changes, fun reason => brokenTime reason s (overlapping (orderedOf samples g) s)) := by
  have hsteps : ¬ (rowSteps (orderedOf samples g) s).isEmpty = true := by
    intro hempty
    have hcount : (countSteps (orderedOf samples g) s).length = 0 := by
      rw [List.isEmpty_iff, rowSteps, append_eq_nil_iff] at hempty
      rw [hempty.1, length_nil]
    rw [countSteps_length, length_eq_zero_iff, filter_eq_nil_iff] at hcount
    exact hcount x hx hin
  refine ⟨(rowAcc (orderedOf samples g) s).stateChanges, ?_⟩
  rw [rowOf, if_neg hsteps]
  simp only [accounting, Option.map_some, finish, Option.some.injEq, Prod.mk.injEq, true_and]
  funext reason
  exact rowAcc_invalid reason _ s

end BrokenTime

section Cut

variable {samples : List Sample} {g : Group} {a b : Sample}

lemma filter_upto {l₁ l₂ : List Sample} (h : Increasing Sample.sampledAt (l₁ ++ a :: b :: l₂)) :
    (l₁ ++ a :: b :: l₂).filter (fun x => decide (x.sampledAt ≤ a.sampledAt)) = l₁ ++ [a] := by
  obtain ⟨-, h₂, hbefore⟩ := List.pairwise_append.mp h
  obtain ⟨hafter, -⟩ := List.pairwise_cons.mp h₂
  rw [filter_append, filter_cons_of_pos (by simp)]
  congr 1
  · rw [filter_eq_self]
    intro x hx
    exact decide_eq_true (hbefore x hx a mem_cons_self).le
  · congr 1
    rw [filter_eq_nil_iff]
    intro x hx hle
    have := hafter x hx
    have := of_decide_eq_true hle
    omega

section

variable (hdistinct : Distinct samples) (hab : (a, b) ∈ consecutive (orderedOf samples g)) (hlong : floorTo a.sampledAt fiveMinutesMs + 1200000 ≤ b.sampledAt)

include hdistinct hab hlong

lemma overlapping_cut :
    overlapping (orderedOf samples g) (floorTo a.sampledAt fiveMinutesMs) =
      overlapping (orderedOf (samples.filter fun x => decide (x.sampledAt ≤ a.sampledAt)) g)
        (floorTo a.sampledAt fiveMinutesMs) ++ [(a, b)] := by
  have hinc := orderedOf_increasing hdistinct g
  obtain ⟨l₁, l₂, hl⟩ := consecutive_split hab
  rw [orderedOf_filter hdistinct, hl]
  rw [hl] at hinc
  rw [filter_upto hinc, overlapping, consecutive_append, filter_append, overlapping]
  congr 1
  have hlater : ∀ p ∈ consecutive (b :: l₂), b.sampledAt ≤ p.1.sampledAt := by
    intro p hp
    have htail : Increasing Sample.sampledAt (b :: l₂) := (List.pairwise_cons.mp (List.pairwise_append.mp hinc).2.1).2
    obtain ⟨hmem, -⟩ := consecutive_mem htail hp
    obtain heq | hmem := List.mem_cons.mp hmem
    · rw [heq]
    · exact ((List.pairwise_cons.mp htail).1 _ hmem).le
  have hfloor := (floorTo_eq_iff (floorTo_aligned a.sampledAt)).mp rfl
  have hpos : 0 < overlapMs a.sampledAt b.sampledAt (floorTo a.sampledAt fiveMinutesMs) := overlapMs_pos.mpr (by omega)
  rw [consecutive_cons_cons, filter_cons, if_pos (decide_eq_true hpos)]
  congr 1
  rw [filter_eq_nil_iff]
  intro p hp hover
  have := hlater p hp
  have := overlapMs_pos.mp (of_decide_eq_true hover)
  omega

lemma accounting_cut :
    accounting (rowOf samples g (floorTo a.sampledAt fiveMinutesMs)) ≠
      accounting (rowOf (samples.filter fun x => decide (x.sampledAt ≤ a.sampledAt)) g
        (floorTo a.sampledAt fiveMinutesMs)) := by
  have hinc := orderedOf_increasing hdistinct g
  obtain ⟨ha, hb, -, -⟩ := consecutive_mem hinc hab
  have hfloor := (floorTo_eq_iff (floorTo_aligned a.sampledAt)).mp rfl
  have hcut : a ∈ orderedOf (samples.filter fun x => decide (x.sampledAt ≤ a.sampledAt)) g := by
    rw [orderedOf_filter hdistinct]
    exact List.mem_filter.mpr ⟨ha, decide_eq_true le_rfl⟩
  have hin : inBucket (floorTo a.sampledAt fiveMinutesMs) a = true := decide_eq_true rfl
  obtain ⟨changes, hwhole⟩ := accounting_rowOf ha hin
  obtain ⟨changes', hpart⟩ := accounting_rowOf hcut hin
  rw [hwhole, hpart]
  intro heq
  have hgap := congrFun (Prod.mk.inj (Option.some.inj heq)).2 InvalidReason.gap
  rw [overlapping_cut hdistinct hab hlong, brokenTime_append] at hgap
  have hgroup : a.group = b.group := (mem_orderedOf.mp ha).2.trans (mem_orderedOf.mp hb).2.symm
  have hfirst := gap_first hgroup (by simp only [elapsed]; omega)
  have hlost : brokenTime .gap (floorTo a.sampledAt fiveMinutesMs) [(a, b)] =
      overlapMs a.sampledAt b.sampledAt (floorTo a.sampledAt fiveMinutesMs) := by
    simp [brokenTime, hfirst]
  have hpos : 0 < overlapMs a.sampledAt b.sampledAt (floorTo a.sampledAt fiveMinutesMs) := overlapMs_pos.mpr (by omega)
  omega

end

end Cut

section Schedules

def arrivals (samples : List Sample) : List Event := samples.map fun x => .batch (single x)

def atOnce (samples : List Sample) (through : Int) : List Event := arrivals samples ++ [.run through]

def inTwo (samples : List Sample) (t through : Int) : List Event :=
  arrivals (samples.filter fun x => decide (x.sampledAt ≤ t)) ++ [.run through] ++
    (arrivals (samples.filter fun x => !decide (x.sampledAt ≤ t)) ++ [.run through])

lemma runTimes_arrivals (samples : List Sample) : runTimes (arrivals samples) = [] := by
  rw [runTimes, arrivals, filterMap_map, filterMap_eq_nil_iff]
  exact fun _ _ => rfl

lemma persist_single {store : Store} {x : Sample} (hnew : ∀ y ∈ store.raw, sameIdentity y x = false) :
    persistTopologyInterfaceSamples store (single x) =
      { store with raw := store.raw ++ [x], dirtyFrom := least store.dirtyFrom (some x.sampledAt) } := by
  have hany : store.raw.any (sameIdentity · x) = false := by
    rw [any_eq_false]
    exact fun y hy => by simp [hnew y hy]
  simp [persistTopologyInterfaceSamples, single, hany]

lemma least_min (a : Option Int) (t : Int) (times : List Int) :
    least (least a (some t)) times.min? = least a (t :: times).min? := by
  rw [List.min?_cons]
  cases a <;> cases times.min? <;> simp [least, min_assoc]

lemma exec_arrivals (store : Store) (samples : List Sample) (h : Distinct (store.raw ++ samples)) :
    exec store (arrivals samples) =
      { store with
        raw := store.raw ++ samples, dirtyFrom := least store.dirtyFrom (samples.map (·.sampledAt)).min? } := by
  induction samples generalizing store with
  | nil => cases store with | mk raw dirtyFrom _ _ => cases dirtyFrom <;> simp [arrivals, exec, least]
  | cons x samples ih =>
    have hnew : ∀ y ∈ store.raw, sameIdentity y x = false := by
      intro y hy
      have := (List.pairwise_append.mp h).2.2 y hy x mem_cons_self
      simpa [sameIdentity] using this
    have hstep : exec store (arrivals (x :: samples)) =
        exec (persistTopologyInterfaceSamples store (single x)) (arrivals samples) := rfl
    rw [hstep, persist_single hnew, ih _ (by simpa using h)]
    simp only [map_cons, least_min, append_assoc, cons_append, nil_append]

variable {samples : List Sample} {g : Group} {through : Int}

lemma slice_whole {d : Int} (hdirty : ∀ x ∈ samples, d ≤ x.sampledAt) (hclosed : ∀ x ∈ samples, x.sampledAt < closedThrough through) :
    rawSlice samples (rangeStart d) (closedThrough through) = samples := by
  refine List.filter_eq_self.mpr fun x hx => ?_
  have h₁ := hdirty x hx
  have h₂ := hclosed x hx
  rw [within, Bool.and_eq_true, decide_eq_true_eq, decide_eq_true_eq]
  simp only [rangeStart, floorTo, topologyRollupReachMs, interfaceWindowMaxGapCadences, fiveMinutesMs]
  omega

lemma run_clean (store : Store) (hclosed : ∀ x ∈ store.raw, x.sampledAt < closedThrough through) {x : Sample}
    (hx : x ∈ store.raw) (hdirty : store.dirtyFrom = some x.sampledAt) :
    (rollupTopologyInterfaceSource store through).dirtyFrom = none ∧
      (rollupTopologyInterfaceSource store through).fiveMinute =
        replaceRows store.fiveMinute
          (aggregateFiveMinuteBuckets (rawSlice store.raw (rangeStart x.sampledAt) (closedThrough through))
            ⟨rangeStart x.sampledAt, closedThrough through⟩) (rangeStart x.sampledAt) (closedThrough through) := by
  have hx' := hclosed x hx
  have hreach : rangeStart x.sampledAt ≤ x.sampledAt := by
    simp only [rangeStart, floorTo, topologyRollupReachMs, interfaceWindowMaxGapCadences, fiveMinutesMs]
    omega
  obtain ⟨-, hopen⟩ | ⟨d, hd, -, -, hmark, hrows⟩ := rollup_cases store through
  · have := hopen _ hdirty
    omega
  · rw [hdirty] at hd
    cases hd
    refine ⟨?_, hrows⟩
    rw [hmark, List.min?_eq_none_iff, map_eq_nil_iff, filter_eq_nil_iff]
    intro y hy hlate
    have := hclosed y hy
    have := of_decide_eq_true hlate
    omega

lemma exists_first {x : Sample} (hx : x ∈ samples) :
    ∃ first ∈ samples, (samples.map (·.sampledAt)).min? = some first.sampledAt ∧ ∀ y ∈ samples, first.sampledAt ≤ y.sampledAt := by
  obtain ⟨m, hm, -⟩ := min_exists (mem_map_of_mem (f := Sample.sampledAt) hx)
  obtain ⟨hmem, hle⟩ := List.min?_eq_some_iff.mp hm
  obtain ⟨first, hfirst, rfl⟩ := List.mem_map.mp hmem
  exact ⟨first, hfirst, hm, fun y hy => hle _ (mem_map_of_mem hy)⟩

lemma exec_atOnce (hdistinct : Distinct samples) (hclosed : ∀ x ∈ samples, x.sampledAt < closedThrough through)
    {x : Sample} (hx : x ∈ samples) :
    (exec {} (atOnce samples through)).raw = samples ∧ (exec {} (atOnce samples through)).dirtyFrom = none ∧
      lookup (exec {} (atOnce samples through)).fiveMinute g (floorTo x.sampledAt fiveMinutesMs) =
        rowOf samples g (floorTo x.sampledAt fiveMinutesMs) := by
  obtain ⟨first, hfirst, hmin, hle⟩ := exists_first hx
  rw [atOnce, exec_concat, exec_arrivals {} samples hdistinct, step, rollup_raw]
  have hmark : least none (samples.map (·.sampledAt)).min? = some first.sampledAt := hmin
  obtain ⟨hclean, hrows⟩ := run_clean { raw := samples, dirtyFrom := least none (samples.map (·.sampledAt)).min? }
    hclosed hfirst hmark
  refine ⟨rfl, hclean, ?_⟩
  rw [nil_append, hrows, slice_whole hle hclosed]
  have h₁ := hle x hx
  have h₂ := hclosed x hx
  have hstart : rangeStart first.sampledAt ≤ floorTo x.sampledAt fiveMinutesMs := by
    simp only [rangeStart, floorTo, topologyRollupReachMs, interfaceWindowMaxGapCadences, fiveMinutesMs]
    omega
  have hend : floorTo x.sampledAt fiveMinutesMs < closedThrough through := by
    have := ((floorTo_eq_iff (floorTo_aligned x.sampledAt)).mp rfl).1
    omega
  rw [lookup_replace_inside hstart hend, lookup_aggregate (floorTo_aligned _) (contains_iff.mpr ⟨hstart, hend⟩)]

lemma exec_inTwo {a b : Sample} (hdistinct : Distinct samples) (hclosed : ∀ x ∈ samples, x.sampledAt < closedThrough through)
    (ha : a ∈ samples) (hb : b ∈ samples) (hab : a.sampledAt < b.sampledAt)
    (hnext : ∀ x ∈ samples, x.sampledAt ≤ a.sampledAt ∨ b.sampledAt ≤ x.sampledAt)
    (hlong : floorTo a.sampledAt fiveMinutesMs < rangeStart b.sampledAt) :
    (∀ x, x ∈ (exec {} (inTwo samples a.sampledAt through)).raw ↔ x ∈ samples) ∧
      (exec {} (inTwo samples a.sampledAt through)).dirtyFrom = none ∧
      lookup (exec {} (inTwo samples a.sampledAt through)).fiveMinute g (floorTo a.sampledAt fiveMinutesMs) =
        rowOf (samples.filter fun x => decide (x.sampledAt ≤ a.sampledAt)) g (floorTo a.sampledAt fiveMinutesMs) := by
  set early := samples.filter fun x => decide (x.sampledAt ≤ a.sampledAt) with hearly
  set late := samples.filter fun x => !decide (x.sampledAt ≤ a.sampledAt) with hlate
  have hmem : ∀ x, x ∈ early ++ late ↔ x ∈ samples := fun x => by
    simp only [hearly, hlate, mem_append, mem_filter, Bool.not_eq_true', decide_eq_true_eq, decide_eq_false_iff_not]
    tauto
  have hboth : Distinct (early ++ late) :=
    ((filter_append_perm _ samples).pairwise_iff fun h h' => h ⟨h'.1.symm, h'.2.symm⟩).mpr hdistinct
  obtain ⟨hraw, hclean, hrow⟩ := exec_atOnce (g := g) (List.Pairwise.filter _ hdistinct)
    (fun x hx => hclosed x (List.mem_filter.mp hx).1) (List.mem_filter.mpr ⟨ha, decide_eq_true le_rfl⟩ : a ∈ early)
  rw [← hearly] at hraw hclean hrow
  have hbmem : b ∈ late := List.mem_filter.mpr ⟨hb, by simpa using hab⟩
  obtain ⟨first, hfirst, hmin, -⟩ := exists_first hbmem
  have hstart : b.sampledAt ≤ first.sampledAt := by
    obtain ⟨hmem, hafter⟩ := List.mem_filter.mp hfirst
    have := hnext first hmem
    simp only [Bool.not_eq_true', decide_eq_false_iff_not] at hafter
    omega
  have hsplit : inTwo samples a.sampledAt through = atOnce early through ++ (arrivals late ++ [.run through]) := rfl
  rw [hsplit, show exec _ (_ ++ _) = exec (exec _ _) _ from foldl_append, exec_concat, exec_arrivals _ late (by rwa [hraw]), step, rollup_raw, hraw, hclean]
  set store : Store := { exec {} (atOnce early through) with
    raw := early ++ late, dirtyFrom := least none (late.map (·.sampledAt)).min? } with hstore
  obtain ⟨hclean', hrows⟩ := run_clean store (fun x hx => hclosed x ((hmem x).mp hx))
    (mem_append_right _ hfirst) hmin
  refine ⟨hmem, hclean', ?_⟩
  rw [hrows, lookup_replace_outside fresh_inside (.inl ?_)]
  · exact hrow
  · have hreach : rangeStart b.sampledAt ≤ rangeStart first.sampledAt := by
      simp only [rangeStart, floorTo, topologyRollupReachMs, interfaceWindowMaxGapCadences, fiveMinutesMs]
      omega
    omega

end Schedules

section Agreement

variable {history : List Sample} {g : Group}

lemma clean_settled {β : Type*} {obs : Option InterfaceBucketAggregate → β} (hlocal : Local obs history g)
    (hdistinct : Distinct history) {events : List Event} (hsorted : (runTimes events).Pairwise (· ≤ ·))
    (hraw : ∀ x, x ∈ (exec {} events).raw ↔ x ∈ history) (hclean : (exec {} events).dirtyFrom = none) {s : Int}
    (hs : Aligned s) : obs (lookup (exec {} events).fiveMinute g s) = obs (rowOf history g s) := by
  obtain ⟨closed, pending, h, -⟩ := exec_settled hlocal hdistinct events hsorted fun x hx => (hraw x).mp hx
  by_cases hopen : ∃ c, closed = some c ∧ s < c
  · obtain ⟨c, hc, hsc⟩ := hopen
    refine h.settled s c hs hc hsc (fun m hm => ?_) fun x hx hout => absurd ((hraw x).mpr hx) hout
    obtain ⟨d, hd, -⟩ := h.pending_dirty m hm
    rw [hclean] at hd
    cases hd
  · have hpast : ∀ c, closed = some c → c ≤ s := fun c hc => by
      by_contra hlt
      exact hopen ⟨c, hc, by omega⟩
    rw [h.lookup_none hpast, rowOf_none hs hdistinct fun x hx => ?_]
    by_contra hlate
    obtain ⟨d, hd, -⟩ := h.open_dirty x ((hraw x).mpr hx) fun c hc => (hpast c hc).trans (not_lt.mp hlate)
    rw [hclean] at hd
    cases hd

lemma exists_closing (samples : List Sample) : ∃ through, ∀ x ∈ samples, x.sampledAt < closedThrough through := by
  induction samples with
  | nil => exact ⟨0, by simp⟩
  | cons x samples ih =>
    obtain ⟨through, hthrough⟩ := ih
    refine ⟨max through (x.sampledAt + 660000), fun y hy => ?_⟩
    obtain rfl | hy := List.mem_cons.mp hy
    · simp only [closedThrough, floorTo, topologyRollupCloseGraceMs, fiveMinutesMs]
      omega
    · exact (hthrough y hy).trans_le (closedThrough_mono (le_max_left _ _))

def SchedulesAgree (history : List Sample) (g : Group) : Prop :=
  ∀ events others : List Event, (runTimes events).Pairwise (· ≤ ·) → (runTimes others).Pairwise (· ≤ ·) →
    (∀ x, x ∈ (exec {} events).raw ↔ x ∈ history) → (∀ x, x ∈ (exec {} others).raw ↔ x ∈ history) →
    (exec {} events).dirtyFrom = none → (exec {} others).dirtyFrom = none →
    ∀ s, Aligned s → accounting (lookup (exec {} events).fiveMinute g s) = accounting (lookup (exec {} others).fiveMinute g s)

lemma runTimes_atOnce (samples : List Sample) (through : Int) : runTimes (atOnce samples through) = [through] := by
  rw [atOnce, runTimes_concat, runTimes_arrivals]
  rfl

lemma runTimes_inTwo (samples : List Sample) (t through : Int) : runTimes (inTwo samples t through) = [through, through] := by
  rw [inTwo, runTimes, filterMap_append, filterMap_append, filterMap_append]
  change (runTimes (arrivals _) ++ [through]) ++ (runTimes (arrivals _) ++ [through]) = _
  rw [runTimes_arrivals, runTimes_arrivals]
  rfl

lemma silence_disagrees (hdistinct : Distinct history) (hgroup : ∀ x ∈ history, x.group = g) {a b : Sample}
    (hab : (a, b) ∈ consecutive (orderedOf history g))
    (hlong : floorTo a.sampledAt fiveMinutesMs < rangeStart b.sampledAt) : ¬ SchedulesAgree history g := by
  intro hagree
  obtain ⟨through, hclosed⟩ := exists_closing history
  obtain ⟨ha, hb, hlt, hnext⟩ := consecutive_mem (orderedOf_increasing hdistinct g) hab
  have ha := (mem_orderedOf.mp ha).1
  have hb := (mem_orderedOf.mp hb).1
  obtain ⟨hraw, hclean, hrow⟩ := exec_atOnce (g := g) hdistinct hclosed ha
  obtain ⟨hraw', hclean', hrow'⟩ := exec_inTwo (g := g) hdistinct hclosed ha hb hlt
    (fun x hx => hnext x (mem_orderedOf.mpr ⟨hx, hgroup x hx⟩)) hlong
  refine accounting_cut hdistinct hab (beyond_reach (floorTo_aligned _) hlong) ?_
  rw [← hrow, ← hrow']
  refine hagree _ _ ?_ ?_ (fun x => by rw [hraw]) hraw' hclean hclean' _ (floorTo_aligned _)
  · rw [runTimes_atOnce]
    exact pairwise_singleton _ _
  · rw [runTimes_inTwo]
    simp

theorem schedules_agree_iff (history : List Sample) (g : Group) (hdistinct : Distinct history)
    (hgroup : ∀ x ∈ history, x.group = g) : SchedulesAgree history g ↔ NoLongSilence history g := by
  constructor
  · intro hagree p hp
    by_contra hlong
    exact silence_disagrees hdistinct hgroup hp (not_le.mp hlong) hagree
  · intro hquiet events others hsorted hsorted' hraw hraw' hclean hclean' s hs
    have hlocal : Local accounting history g := fun _ hs _ hpart hsub hnear => accounting_local hs hquiet hdistinct hpart hsub hnear
    rw [clean_settled hlocal hdistinct hsorted hraw hclean hs, clean_settled hlocal hdistinct hsorted' hraw' hclean' hs]

lemma orderedOf_pair (a b : Sample) (hb : b.group = a.group) (hab : a.sampledAt < b.sampledAt) :
    orderedOf [a, b] a.group = [a, b] := by
  have hinc : Increasing Sample.sampledAt [a, b] := List.pairwise_pair.mpr hab
  have hdistinct : Distinct [a, b] := List.pairwise_pair.mpr fun h => hab.ne h.2
  refine Increasing.ext (orderedOf_increasing hdistinct a.group) hinc fun x => ?_
  rw [mem_orderedOf, and_iff_left_iff_imp]
  intro hx
  obtain rfl | hx := List.mem_cons.mp hx
  · rfl
  · rwa [List.mem_singleton.mp hx]

theorem quarter_hour_agrees : SchedulesAgree [reading 0 1 1000 .up, reading 900000 2 2000 .down] port := by
  have hordered := orderedOf_pair (reading 0 1 1000 .up) (reading 900000 2 2000 .down) rfl (by decide)
  refine (schedules_agree_iff _ port (by simp [Distinct, reading]) (by simp [reading])).mpr fun p hp => ?_
  change p ∈ consecutive (orderedOf _ (reading 0 1 1000 .up).group) at hp
  rw [hordered, consecutive_cons_cons, consecutive_singleton, mem_singleton] at hp
  rw [hp]
  decide

/-- The port goes down within two hours of silence. -/
theorem silent_hours_disagree : ¬ SchedulesAgree [reading 0 1 1000 .up, reading 7200000 2 2000 .down] port := by
  have hordered := orderedOf_pair (reading 0 1 1000 .up) (reading 7200000 2 2000 .down) rfl (by decide)
  refine silence_disagrees (a := reading 0 1 1000 .up) (b := reading 7200000 2 2000 .down) (by simp [Distinct, reading])
    (by simp [reading]) ?_ (by decide)
  change _ ∈ consecutive (orderedOf _ (reading 0 1 1000 .up).group)
  rw [hordered]
  exact mem_cons_self

end Agreement

end Breeze.Topology.RollupSilence
