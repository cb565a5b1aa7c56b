import Breeze.Topology.RollupRows

/-! Rollups along every schedule of batches and runs: what the stored rows agree with, and when it matters when runs come. -/

namespace Breeze.Topology.RollupSchedules

open Breeze.Lib Breeze.Lib.Consecutive InterfaceRates InterfaceRollups RollupRows

section Marks

variable {a b : Option Int} {n s : Int}

lemma le_of_least {m : Int} (h : least a b = some m) (hn : a = some n ∨ b = some n) : m ≤ n := by
  cases a <;> cases b <;> simp_all [least]
  omega

lemma least_exists (hn : a = some n ∨ b = some n) : ∃ m, least a b = some m ∧ m ≤ n := by
  cases h : least a b with
  | none => cases a <;> cases b <;> simp_all [least]
  | some m => exact ⟨m, rfl, le_of_least h hn⟩

lemma eq_of_least {m : Int} (h : least a b = some m) : a = some m ∨ b = some m := by
  cases a <;> cases b <;> simp_all [least]
  omega

lemma min_exists {times : List Int} {t : Int} (ht : t ∈ times) : ∃ m, times.min? = some m ∧ m ≤ t := by
  cases h : times.min? with
  | none => simp_all [List.min?_eq_none_iff]
  | some m => exact ⟨m, rfl, (List.min?_eq_some_iff.mp h).2 t ht⟩

lemma closedThrough_mono {a b : Int} (h : a ≤ b) : closedThrough a ≤ closedThrough b := by
  simp only [closedThrough, floorTo, topologyRollupCloseGraceMs, fiveMinutesMs]
  omega

lemma beyond_reach {d : Int} (hs : Aligned s) (h : s < rangeStart d) : s + 1200000 ≤ d := by
  simp only [Aligned, rangeStart, floorTo, topologyRollupReachMs, interfaceWindowMaxGapCadences, fiveMinutesMs] at hs h
  omega

lemma aligned_succ {c : Int} (hs : Aligned s) (hc : Aligned c) (h : s < c) : s + 300000 ≤ c := by
  simp only [Aligned, floorTo, fiveMinutesMs] at hs hc
  omega

end Marks

section Replace

variable {rows fresh : List InterfaceBucketAggregate} {g : Group} {s fromMs toMs : Int}

lemma lookup_replace_inside (h : fromMs ≤ s) (h' : s < toMs) : lookup (replaceRows rows fresh fromMs toMs) g s = lookup fresh g s := by
  have hnone : (rows.filter fun row => !(decide (fromMs ≤ row.bucketStart) && decide (row.bucketStart < toMs))).find?
      (fun row => row.group == g && row.bucketStart == s) = none := by
    rw [List.find?_eq_none]
    intro row hrow hkey
    simp only [Bool.and_eq_true, beq_iff_eq] at hkey
    rw [List.mem_filter, hkey.2] at hrow
    simp [h, h'] at hrow
  rw [lookup, replaceRows, List.find?_append, hnone]
  rfl

lemma lookup_replace_outside (hfresh : ∀ row ∈ fresh, fromMs ≤ row.bucketStart ∧ row.bucketStart < toMs)
    (h : s < fromMs ∨ toMs ≤ s) : lookup (replaceRows rows fresh fromMs toMs) g s = lookup rows g s := by
  have hnone : fresh.find? (fun row => row.group == g && row.bucketStart == s) = none := by
    rw [List.find?_eq_none]
    intro row hrow hkey
    simp only [Bool.and_eq_true, beq_iff_eq] at hkey
    have := hfresh row hrow
    omega
  rw [lookup, replaceRows, List.find?_append, hnone, Option.or_none, List.find?_filter, lookup]
  congr 1
  funext row
  by_cases hs : row.bucketStart = s
  · have hout : (decide (fromMs ≤ s) && decide (s < toMs)) = false := by
      simp only [Bool.and_eq_false_iff, decide_eq_false_iff_not]
      omega
    simp [hs, hout, beq_eq_decide]
  · simp [hs]

lemma replace_unique (hrows : UniqueRows rows) (hfresh : UniqueRows fresh)
    (hrange : ∀ row ∈ fresh, fromMs ≤ row.bucketStart ∧ row.bucketStart < toMs) :
    UniqueRows (replaceRows rows fresh fromMs toMs) := by
  intro row hrow other hother hg hs
  have hkept : ∀ r, r ∈ rows.filter (fun row => !(decide (fromMs ≤ row.bucketStart) && decide (row.bucketStart < toMs))) →
      r ∈ rows ∧ ¬ (fromMs ≤ r.bucketStart ∧ r.bucketStart < toMs) := by
    intro r hr
    rw [List.mem_filter] at hr
    refine ⟨hr.1, fun hin => ?_⟩
    simp [hin.1, hin.2] at hr
  rw [replaceRows, List.mem_append] at hrow hother
  obtain hrow | hrow := hrow <;> obtain hother | hother := hother
  · exact hrows _ (hkept _ hrow).1 _ (hkept _ hother).1 hg hs
  · exact absurd (hs ▸ hrange _ hother) (hkept _ hrow).2
  · exact absurd (hs ▸ hrange _ hrow) (hkept _ hother).2
  · exact hfresh _ hrow _ hother hg hs

end Replace

section Settling

variable {β : Type*} (obs : Option InterfaceBucketAggregate → β) (history : List Sample) (g : Group)

def Local : Prop :=
  ∀ s, Aligned s → ∀ part, Distinct part → (∀ x ∈ part, x ∈ history) →
    (∀ x ∈ history, isNear s x = true → x ∈ part) → obs (rowOf part g s) = obs (rowOf history g s)

/-- Between two steps of a schedule whose samples are all of `history` in the end: buckets from `closed` on have
no rows, `pending` is the first sample since the last recompute, and the row of a closed bucket is right unless a
pending or coming sample is near it. -/
structure Settled (closed pending : Option Int) (store : Store) : Prop where
  part : ∀ x ∈ store.raw, x ∈ history
  distinct : Distinct store.raw
  unique : UniqueRows store.fiveMinute
  below : ∀ row ∈ store.fiveMinute, ∃ c, closed = some c ∧ row.bucketStart < c
  open_dirty : ∀ x ∈ store.raw, (∀ c, closed = some c → c ≤ x.sampledAt) →
    ∃ d, store.dirtyFrom = some d ∧ d ≤ x.sampledAt
  pending_dirty : ∀ m, pending = some m → ∃ d, store.dirtyFrom = some d ∧ d ≤ m
  settled : ∀ s c, Aligned s → closed = some c → s < c → (∀ m, pending = some m → s + 1200000 ≤ m) →
    (∀ x ∈ history, x ∉ store.raw → s + 1200000 ≤ x.sampledAt) →
    obs (lookup store.fiveMinute g s) = obs (rowOf history g s)

variable {obs history g} {closed pending : Option Int} {store : Store}

lemma rowOf_none {samples : List Sample} {s : Int} (hs : Aligned s) (hdistinct : Distinct samples)
    (h : ∀ x ∈ samples, x.sampledAt < s) : rowOf samples g s = none := by
  have hordered : ∀ x ∈ orderedOf samples g, x.sampledAt < s := fun x hx => h x (mem_orderedOf.mp hx).1
  have hcount : countSteps (orderedOf samples g) s = [] := by
    rw [← List.length_eq_zero_iff, countSteps_length, List.length_eq_zero_iff, List.filter_eq_nil_iff]
    intro x hx hin
    rw [inBucket, decide_eq_true_eq, floorTo_eq_iff hs] at hin
    have := hordered x hx
    omega
  have hoverlap : overlapping (orderedOf samples g) s = [] := by
    rw [overlapping, List.filter_eq_nil_iff]
    intro p hp hover
    have hto := (overlapMs_pos.mp (of_decide_eq_true hover)).2.2
    have := hordered p.2 (consecutive_mem (orderedOf_increasing hdistinct g) hp).2.1
    omega
  simp [rowOf, rowSteps, hcount, hoverlap]

lemma Local.silent (hlocal : Local obs history g) (hdistinct : Distinct history) {s : Int} (hs : Aligned s)
    (h : ∀ x ∈ history, x.sampledAt < s ∨ s + 1200000 ≤ x.sampledAt) : obs (rowOf history g s) = obs none := by
  have hfilter : Distinct (history.filter (isNear s)) := List.Pairwise.filter _ hdistinct
  rw [← hlocal s hs (history.filter (isNear s)) hfilter (fun x hx => (List.mem_filter.mp hx).1)
    fun x hx hnear => List.mem_filter.mpr ⟨hx, hnear⟩]
  rw [rowOf_none hs hfilter fun x hx => ?_]
  obtain ⟨hx, hnear⟩ := List.mem_filter.mp hx
  rw [isNear_iff] at hnear
  have := h x hx
  omega

lemma Settled.lookup_none (h : Settled obs history g closed pending store) {s : Int}
    (hs : ∀ c, closed = some c → c ≤ s) : lookup store.fiveMinute g s = none := by
  rw [lookup, List.find?_eq_none]
  intro row hrow hkey
  simp only [Bool.and_eq_true, beq_iff_eq] at hkey
  obtain ⟨c, hc, hlt⟩ := h.below row hrow
  have := hs c hc
  omega

lemma Settled.before (h : Settled obs history g closed pending store) (hlocal : Local obs history g)
    (hdistinct : Distinct history) {s : Int} (hs : Aligned s) (hdirty : ∀ d, store.dirtyFrom = some d → s + 1200000 ≤ d)
    (hcoming : ∀ x ∈ history, x ∉ store.raw → s + 1200000 ≤ x.sampledAt) :
    obs (lookup store.fiveMinute g s) = obs (rowOf history g s) := by
  by_cases hclosed : ∃ c, closed = some c ∧ s < c
  · obtain ⟨c, hc, hsc⟩ := hclosed
    refine h.settled s c hs hc hsc (fun m hm => ?_) hcoming
    obtain ⟨d, hd, hdm⟩ := h.pending_dirty m hm
    exact (hdirty d hd).trans hdm
  · have hopen : ∀ c, closed = some c → c ≤ s := fun c hc => by
      by_contra hlt
      exact hclosed ⟨c, hc, by omega⟩
    rw [h.lookup_none hopen, hlocal.silent hdistinct hs]
    intro x hx
    by_cases hraw : x ∈ store.raw
    · by_cases hlate : ∀ c, closed = some c → c ≤ x.sampledAt
      · obtain ⟨d, hd, hdx⟩ := h.open_dirty x hraw hlate
        exact .inr ((hdirty d hd).trans hdx)
      · push Not at hlate
        obtain ⟨c, hc, hlt⟩ := hlate
        exact .inl (hlt.trans_le (hopen c hc))
    · exact .inr (hcoming x hx hraw)

lemma settled_initial : Settled obs history g none none {} := by
  constructor
  case distinct => exact List.Pairwise.nil
  case settled =>
    intro s c _ hc
    cases hc
  all_goals simp [UniqueRows]

end Settling

section Steps

variable {β : Type*} {obs : Option InterfaceBucketAggregate → β} {history : List Sample} {g : Group}
  {closed pending : Option Int} {store : Store}

lemma persist_cases (store : Store) (batch : Batch) :
    persistTopologyInterfaceSamples store batch = store ∨
      persistTopologyInterfaceSamples store batch =
        { store with
          raw := store.raw ++ batch.samples.filter fun sample => !store.raw.any (sameIdentity · sample)
          dirtyFrom := least store.dirtyFrom
            ((batch.samples.filter fun sample => !store.raw.any (sameIdentity · sample)).map (·.sampledAt)).min? } := by
  simp only [persistTopologyInterfaceSamples]
  split_ifs
  · exact .inl rfl
  · exact .inr rfl

lemma written_distinct {batch : Batch} (h : Distinct store.raw) :
    Distinct (store.raw ++ batch.samples.filter fun sample => !store.raw.any (sameIdentity · sample)) := by
  refine List.pairwise_append.mpr ⟨h, ?_, ?_⟩
  · refine List.Pairwise.filter _ ?_
    have hids := List.pairwise_map.mp batch.distinct
    exact hids.imp fun hne hsame => hne (by rw [hsame.1])
  · intro a ha b hb hsame
    have hnew := (List.mem_filter.mp hb).2
    simp only [Bool.not_eq_true', List.any_eq_false] at hnew
    exact hnew a ha (by simp [sameIdentity, hsame.1, hsame.2])

lemma Settled.persist (h : Settled obs history g closed pending store) (batch : Batch)
    (hpart : ∀ x ∈ (persistTopologyInterfaceSamples store batch).raw, x ∈ history) :
    ∃ pending, Settled obs history g closed pending (persistTopologyInterfaceSamples store batch) := by
  obtain hsame | hwritten := persist_cases store batch
  · exact ⟨pending, by rwa [hsame]⟩
  · rw [hwritten] at hpart ⊢
    set written := batch.samples.filter fun sample => !store.raw.any (sameIdentity · sample) with hdef
    refine ⟨least pending (written.map (·.sampledAt)).min?, ?_⟩
    constructor
    case part => exact hpart
    case distinct => exact written_distinct h.distinct
    case unique => exact h.unique
    case below => exact h.below
    case open_dirty =>
      intro x hx hopen
      obtain hx | hx := List.mem_append.mp hx
      · obtain ⟨d, hd, hdx⟩ := h.open_dirty x hx hopen
        obtain ⟨m, hm, hmd⟩ := least_exists (b := (written.map (·.sampledAt)).min?) (.inl hd)
        exact ⟨m, hm, hmd.trans hdx⟩
      · obtain ⟨d, hd, hdx⟩ := min_exists (List.mem_map_of_mem (f := Sample.sampledAt) hx)
        obtain ⟨m, hm, hmd⟩ := least_exists (a := store.dirtyFrom) (.inr hd)
        exact ⟨m, hm, hmd.trans hdx⟩
    case pending_dirty =>
      intro m hm
      obtain hm | hm := eq_of_least hm
      · obtain ⟨d, hd, hdm⟩ := h.pending_dirty m hm
        obtain ⟨n, hn, hnd⟩ := least_exists (b := (written.map (·.sampledAt)).min?) (.inl hd)
        exact ⟨n, hn, hnd.trans hdm⟩
      · exact least_exists (a := store.dirtyFrom) (.inr hm)
    case settled =>
      intro s c hs hc hsc hpending hcoming
      refine h.settled s c hs hc hsc (fun m hm => ?_) fun x hx hraw => ?_
      · obtain ⟨n, hn, hnm⟩ := least_exists (b := (written.map (·.sampledAt)).min?) (.inl hm)
        exact (hpending n hn).trans hnm
      · by_cases hx' : x ∈ written
        · obtain ⟨d, hd, hdx⟩ := min_exists (List.mem_map_of_mem (f := Sample.sampledAt) hx')
          obtain ⟨n, hn, hnd⟩ := least_exists (a := pending) (.inr hd)
          exact (hpending n hn).trans (hnd.trans hdx)
        · exact hcoming x hx fun hmem => (List.mem_append.mp hmem).elim hraw hx'

lemma rollup_cases (store : Store) (through : Int) :
    (rollupTopologyInterfaceSource store through = store ∧
        ∀ d, store.dirtyFrom = some d → closedThrough through ≤ rangeStart d) ∨
      ∃ d, store.dirtyFrom = some d ∧ rangeStart d < closedThrough through ∧
        (rollupTopologyInterfaceSource store through).raw = store.raw ∧
        (rollupTopologyInterfaceSource store through).dirtyFrom =
          ((store.raw.filter fun x => decide (closedThrough through ≤ x.sampledAt)).map (·.sampledAt)).min? ∧
        (rollupTopologyInterfaceSource store through).fiveMinute =
          replaceRows store.fiveMinute
            (aggregateFiveMinuteBuckets (rawSlice store.raw (rangeStart d) (closedThrough through))
              ⟨rangeStart d, closedThrough through⟩) (rangeStart d) (closedThrough through) := by
  cases hd : store.dirtyFrom with
  | none =>
    refine .inl ⟨?_, fun d h => by cases h⟩
    simp only [rollupTopologyInterfaceSource, hd]
  | some d =>
    simp only [rollupTopologyInterfaceSource, hd]
    by_cases hopen : rangeStart d ≥ closedThrough through
    · refine .inl ⟨if_pos hopen, fun d' h => ?_⟩
      cases h
      exact hopen
    · refine .inr ⟨d, rfl, by omega, ?_⟩
      rw [if_neg hopen]
      exact ⟨rfl, rfl, rfl⟩

lemma contains_iff {d closed s : Int} :
    Range.contains ⟨rangeStart d, closed⟩ s = true ↔ rangeStart d ≤ s ∧ s < closed := by
  have h : floorTo (rangeStart d) fiveMinutesMs = rangeStart d := floorTo_aligned _
  simp only [Range.contains, h, Bool.and_eq_true, decide_eq_true_eq]

lemma fresh_inside {samples : List Sample} {d closed : Int} :
    ∀ row ∈ aggregateFiveMinuteBuckets samples ⟨rangeStart d, closed⟩, rangeStart d ≤ row.bucketStart ∧ row.bucketStart < closed :=
  fun _ hrow => contains_iff.mp (mem_aggregate.mp hrow).2.1

lemma slice_near {raw : List Sample} {s start closed : Int} (hs : Aligned s) (hclosed : Aligned closed) (hstart : start ≤ s)
    (hsc : s < closed) {x : Sample} (hx : x ∈ raw) (hnear : isNear s x = true) : x ∈ rawSlice raw start closed := by
  have hnext := aligned_succ hs hclosed hsc
  rw [isNear_iff] at hnear
  refine List.mem_filter.mpr ⟨hx, ?_⟩
  rw [within, Bool.and_eq_true, decide_eq_true_eq, decide_eq_true_eq]
  simp only [topologyRollupReachMs, interfaceWindowMaxGapCadences]
  omega

lemma Settled.rollup (h : Settled obs history g closed pending store) (hlocal : Local obs history g)
    (hdistinct : Distinct history) {through : Int} (hmono : ∀ c, closed = some c → c ≤ closedThrough through) :
    ∃ pending, Settled obs history g (some (closedThrough through)) pending (rollupTopologyInterfaceSource store through) ∧
      ∀ s, Aligned s → s < closedThrough through → ∀ m, pending = some m → s + 1200000 ≤ m := by
  have hlate : ∀ x : Sample, (∀ c, some (closedThrough through) = some c → c ≤ x.sampledAt) →
      ∀ c, closed = some c → c ≤ x.sampledAt := fun x hx c hc => (hmono c hc).trans (hx _ rfl)
  obtain ⟨hsame, hopen⟩ | ⟨d, hd, hrange, hraw, hdirty, hrows⟩ := rollup_cases store through
  · have hreach : ∀ s, Aligned s → s < closedThrough through → ∀ d, store.dirtyFrom = some d → s + 1200000 ≤ d :=
      fun s hs hsc d hd => beyond_reach hs (hsc.trans_le (hopen d hd))
    refine ⟨pending, ?_, fun s hs hsc m hm => ?_⟩
    · rw [hsame]
      refine ⟨h.part, h.distinct, h.unique, fun row hrow => ?_, fun x hx hx' => h.open_dirty x hx (hlate x hx'),
        h.pending_dirty, fun s c hs hc hsc _ hcoming => ?_⟩
      · obtain ⟨c, hc, hlt⟩ := h.below row hrow
        exact ⟨_, rfl, hlt.trans_le (hmono c hc)⟩
      · cases hc
        exact h.before hlocal hdistinct hs (hreach s hs hsc) hcoming
    · obtain ⟨d, hd, hdm⟩ := h.pending_dirty m hm
      exact (hreach s hs hsc d hd).trans hdm
  · refine ⟨none, ?_, fun _ _ _ m hm => by cases hm⟩
    constructor
    case part => rw [hraw]; exact h.part
    case distinct => rw [hraw]; exact h.distinct
    case unique => rw [hrows]; exact replace_unique h.unique (aggregate_unique _ _) fresh_inside
    case below =>
      rw [hrows]
      intro row hrow
      refine ⟨_, rfl, ?_⟩
      obtain hrow | hrow := List.mem_append.mp hrow
      · obtain ⟨c, hc, hlt⟩ := h.below row (List.mem_filter.mp hrow).1
        exact hlt.trans_le (hmono c hc)
      · exact (fresh_inside row hrow).2
    case open_dirty =>
      rw [hraw, hdirty]
      intro x hx hx'
      refine min_exists (List.mem_map_of_mem (List.mem_filter.mpr ⟨hx, ?_⟩))
      exact decide_eq_true (hx' _ rfl)
    case pending_dirty =>
      intro m hm
      cases hm
    case settled =>
      rw [hraw, hrows]
      intro s c hs hc hsc _ hcoming
      cases hc
      by_cases hstart : rangeStart d ≤ s
      · rw [lookup_replace_inside hstart hsc, lookup_aggregate hs (contains_iff.mpr ⟨hstart, hsc⟩)]
        refine hlocal s hs _ (List.Pairwise.filter _ h.distinct) (fun x hx => h.part x (List.mem_filter.mp hx).1) ?_
        intro x hx hnear
        have hmem : x ∈ store.raw := by
          by_contra hout
          have := hcoming x hx hout
          rw [isNear_iff] at hnear
          omega
        exact slice_near hs (floorTo_aligned _) hstart hsc hmem hnear
      · rw [lookup_replace_outside fresh_inside (.inl (not_le.mp hstart))]
        refine h.before hlocal hdistinct hs (fun d' hd' => ?_) hcoming
        rw [hd] at hd'
        cases hd'
        exact beyond_reach hs (not_le.mp hstart)

end Steps

section Runs

variable {β : Type*} {obs : Option InterfaceBucketAggregate → β} {history : List Sample} {g : Group}

def single (sample : Sample) : Batch := ⟨[sample], List.nodup_singleton _⟩

lemma exec_concat (store : Store) (events : List Event) (event : Event) :
    exec store (events ++ [event]) = step (exec store events) event := by
  rw [exec, List.foldl_append]
  rfl

lemma runTimes_concat (events : List Event) (event : Event) :
    runTimes (events ++ [event]) = runTimes events ++ runTimes [event] := List.filterMap_append

lemma step_raw {store : Store} {x : Sample} (hx : x ∈ store.raw) (event : Event) : x ∈ (step store event).raw := by
  cases event with
  | batch batch =>
    obtain h | h := persist_cases store batch
    · rwa [step, h]
    · rw [step, h]
      exact List.mem_append_left _ hx
  | run through =>
    obtain ⟨h, -⟩ | ⟨d, -, -, h, -⟩ := rollup_cases store through
    · rwa [step, h]
    · rwa [step, h]
  | busy through => exact hx

lemma le_of_runTimes {events : List Event} {event : Event} {through : Int} (hevent : runTimes [event] = [through])
    (h : (runTimes (events ++ [event])).Pairwise (· ≤ ·)) : ∀ t ∈ runTimes events, t ≤ through := by
  rw [runTimes_concat, hevent, List.pairwise_append] at h
  exact fun t ht => h.2.2 t ht through List.mem_cons_self

lemma exec_settled (hlocal : Local obs history g) (hdistinct : Distinct history) (events : List Event)
    (hsorted : (runTimes events).Pairwise (· ≤ ·)) (hpart : ∀ x ∈ (exec {} events).raw, x ∈ history) :
    ∃ closed pending, Settled obs history g closed pending (exec {} events) ∧
      ∀ through, (∀ t ∈ runTimes events, t ≤ through) → ∀ c, closed = some c → c ≤ closedThrough through := by
  induction events using List.reverseRecOn with
  | nil => exact ⟨none, none, settled_initial, fun _ _ c hc => by cases hc⟩
  | append_singleton events event ih =>
    rw [exec_concat] at hpart ⊢
    obtain ⟨closed, pending, h, hclosed⟩ := ih
      (by rw [runTimes_concat] at hsorted; exact (List.pairwise_append.mp hsorted).1) fun x hx => hpart x (step_raw hx event)
    have hearlier : ∀ through, (∀ t ∈ runTimes (events ++ [event]), t ≤ through) → ∀ t ∈ runTimes events, t ≤ through := by
      intro through hle t ht
      rw [runTimes_concat] at hle
      exact hle t (List.mem_append_left _ ht)
    cases event with
    | batch batch =>
      obtain ⟨pending, h⟩ := h.persist batch hpart
      exact ⟨closed, pending, h, fun through hle => hclosed through (hearlier through hle)⟩
    | run through =>
      have hlast : ∀ c, closed = some c → c ≤ closedThrough through := hclosed through (le_of_runTimes rfl hsorted)
      obtain ⟨pending, h, -⟩ := h.rollup hlocal hdistinct hlast
      refine ⟨_, pending, h, fun later hle c hc => ?_⟩
      cases hc
      refine closedThrough_mono (hle through ?_)
      rw [runTimes_concat]
      exact List.mem_append_right _ List.mem_cons_self
    | busy through => exact ⟨closed, pending, h, fun later hle => hclosed later (hearlier later hle)⟩

lemma rollup_raw (store : Store) (through : Int) : (rollupTopologyInterfaceSource store through).raw = store.raw := by
  obtain ⟨h, -⟩ | ⟨d, -, -, h, -⟩ := rollup_cases store through
  · rw [h]
  · exact h

lemma exec_distinct (events : List Event) : Distinct (exec {} events).raw := by
  induction events using List.reverseRecOn with
  | nil => exact List.Pairwise.nil
  | append_singleton events event ih =>
    rw [exec_concat]
    cases event with
    | batch batch =>
      obtain h | h := persist_cases (exec {} events) batch
      · rwa [step, h]
      · rw [step, h]
        exact written_distinct ih
    | run through => rwa [step, rollup_raw]
    | busy through => exact ih

lemma settled_after_run {events : List Event} {through : Int}
    (hsorted : (runTimes (events ++ [.run through])).Pairwise (· ≤ ·)) (hlocal : Local obs (exec {} events).raw g)
    {s : Int} (hs : Aligned s) (hclosed : s < closedThrough through) :
    obs (lookup (exec {} (events ++ [.run through])).fiveMinute g s) = obs (rowOf (exec {} events).raw g s) := by
  have hdistinct := exec_distinct events
  have hbefore : (runTimes events).Pairwise (· ≤ ·) := by
    rw [runTimes_concat] at hsorted
    exact (List.pairwise_append.mp hsorted).1
  obtain ⟨closed, pending, h, hmono⟩ := exec_settled hlocal hdistinct events hbefore fun _ hx => hx
  rw [exec_concat, step]
  obtain ⟨pending, h, hpending⟩ := h.rollup hlocal hdistinct (hmono through (le_of_runTimes rfl hsorted))
  refine h.settled s _ hs rfl hclosed (hpending s hs hclosed) fun x hx hout => ?_
  rw [rollup_raw] at hout
  exact absurd hx hout

end Runs

section Measures

variable {g : Group} {s : Int}

def Measured (row : InterfaceBucketAggregate) : Prop := 0 < row.sampleCount ∨ 0 < row.validDurationMs

lemma measured_iff {rows others : List InterfaceBucketAggregate} (hrows : UniqueRows rows)
    (h : measures (lookup rows g s) = measures (lookup others g s)) :
    (∃ row ∈ rows, row.group = g ∧ row.bucketStart = s ∧ Measured row) →
      ∃ row ∈ others, row.group = g ∧ row.bucketStart = s ∧ Measured row := by
  rintro ⟨row, hrow, hg, hs, hmeasured⟩
  rw [lookup_eq_some hrows hrow hg hs] at h
  cases hother : lookup others g s with
  | none =>
    rw [hother] at h
    simp only [measures, Prod.mk.injEq] at h
    simp only [Measured] at hmeasured
    omega
  | some other =>
    rw [hother] at h
    simp only [measures, Prod.mk.injEq] at h
    obtain ⟨hmem, hg', hs'⟩ := mem_of_lookup hother
    refine ⟨other, hmem, hg', hs', ?_⟩
    rwa [Measured, ← h.1, ← h.2.1]

theorem incremental_eq_batch (events : List Event) (through : Int)
    (hsorted : (runTimes (events ++ [.run through])).Pairwise (· ≤ ·)) (g : Group) (s : Int) (hs : Aligned s)
    (hclosed : s < closedThrough through) (range : Range) (hrange : range.contains s = true) :
    let store := exec {} (events ++ [.run through])
    let batch := aggregateFiveMinuteBuckets store.raw range
    (∀ row ∈ store.fiveMinute, ∀ other ∈ batch, row.group = g → row.bucketStart = s → other.group = g →
      other.bucketStart = s → row.series = other.series ∧ row.validDurationMs = other.validDurationMs ∧
        row.sampleCount = other.sampleCount) ∧
      ((∃ row ∈ store.fiveMinute, row.group = g ∧ row.bucketStart = s ∧ Measured row) ↔
        ∃ row ∈ batch, row.group = g ∧ row.bucketStart = s ∧ Measured row) := by
  intro store batch
  have hraw : store.raw = (exec {} events).raw := by
    simp only [store]
    rw [exec_concat, step, rollup_raw]
  have hlocal : Local measures (exec {} events).raw g :=
    fun _ hs _ hpart hsub hnear => measures_local hs hpart (exec_distinct events) fun x hx => ⟨hsub x, fun h => hnear x h hx⟩
  have hunique : UniqueRows store.fiveMinute := by
    obtain ⟨_, _, h, -⟩ := exec_settled hlocal (exec_distinct events) _ hsorted fun x (hx : x ∈ store.raw) => hraw ▸ hx
    exact h.unique
  have hbatch : UniqueRows batch := aggregate_unique _ _
  have hsame : measures (lookup store.fiveMinute g s) = measures (lookup batch g s) := by
    rw [settled_after_run hsorted hlocal hs hclosed, lookup_aggregate hs hrange, hraw]
  refine ⟨?_, measured_iff hunique hsame, measured_iff hbatch hsame.symm⟩
  intro row hrow other hother hg hs hg' hs'
  rw [lookup_eq_some hunique hrow hg hs, lookup_eq_some hbatch hother hg' hs'] at hsame
  simp only [measures, Prod.mk.injEq] at hsame
  exact ⟨hsame.2.2, hsame.2.1, hsame.1⟩

def port : Group := ⟨"if-7", "generation-1", "snmp-core", "epoch-1"⟩

def reading (sampledAt : Int) (sourceSequence inOctets : Nat) (operStatus : OperStatus) : Sample :=
  { expectedIntervalSeconds := 60, counterWidth := some .bits64, inOctets := some inOctets, outOctets := some 0
    inErrors := some 0, outErrors := some 0, inDiscards := some 0, outDiscards := some 0
    capacityBps := some 1000000000, discontinuityTicks := some 0, deviceUptimeTicks := some 0
    adminStatus := .up, operStatus, cadence := (wrapping 0 0).cadence, group := port, sampledAt, sourceSequence }

theorem late_sample_recomputed :
    let events : List Event := [.batch (single (reading 0 1 1000 .up)), .batch (single (reading 120000 3 5000 .up)),
      .run 400000, .batch (single (reading 60000 2 4000 .up))]
    let store := exec {} (events ++ [.run 700000])
    let batch := aggregateFiveMinuteBuckets store.raw ⟨0, 600000⟩
    (∀ row ∈ store.fiveMinute, ∀ other ∈ batch, row.group = port → row.bucketStart = 0 → other.group = port →
      other.bucketStart = 0 → row.series = other.series ∧ row.validDurationMs = other.validDurationMs ∧
        row.sampleCount = other.sampleCount) ∧
      ((∃ row ∈ store.fiveMinute, row.group = port ∧ row.bucketStart = 0 ∧ Measured row) ↔
        ∃ row ∈ batch, row.group = port ∧ row.bucketStart = 0 ∧ Measured row) :=
  incremental_eq_batch _ 700000 (by decide) port 0 (by rfl) (by decide) ⟨0, 600000⟩ (by decide)

end Measures

end Breeze.Topology.RollupSchedules
