import Mathlib.Tactic

/-! Missing rows of a collection source: the streaks that wait for a second miss, and the keys a source may still withdraw. -/

namespace Breeze.Topology.Absence

open List

abbrev RowKey := String

inductive CollectionOutcome
  | complete
  | partialRows
  | failed
  | unsupported
  | notAttempted
  deriving DecidableEq, Repr

def outcomeHasPositives : CollectionOutcome → Bool
  | .complete | .partialRows => true
  | _ => false

structure TopologyCaptureTime where
  effectiveAt : Option Int
  freshUntil : Option Int
  deriving DecidableEq, Repr

/-- Times are milliseconds; `dateParse` is `Date.parse`, with `none` for an invalid date. -/
def effectiveTopologyCapture (dateParse : String → Option Int) (capturedAt : String) (ageMs : Option Int)
    (cadence : Int) (receivedAt : Int) : TopologyCaptureTime :=
  match ageMs, dateParse capturedAt with
  | some age, some captured =>
    if captured > receivedAt + 300000 then ⟨none, none⟩
    else
      let effectiveAt := min captured (receivedAt - age)
      ⟨some effectiveAt, some (effectiveAt + max (3 * cadence) 900 * 1000)⟩
  | _, _ => ⟨none, none⟩

structure PendingTopologyMiss where
  generation : String
  firstSequence : Nat
  firstEffectiveAt : Int
  digest : String
  rowKeys : List RowKey
  qualifyingSequence : Option Nat := none
  qualifyingEffectiveAt : Option Int := none
  inputRevision : Option Nat := none
  deriving DecidableEq, Repr

structure PendingTopologyLifecycle where
  generation : String
  relationshipId : String
  inputRevision : Nat
  deriving DecidableEq, Repr

structure TopologyAbsenceState where
  active : List PendingTopologyMiss := []
  transitions : List PendingTopologyMiss := []
  lifecycle : List PendingTopologyLifecycle := []
  deriving DecidableEq, Repr

structure AbsenceInput where
  sequence : Nat
  digest : String
  effectiveAt : Option Int
  outcome : CollectionOutcome
  positiveKeys : List RowKey
  previousKeys : List RowKey
  generation : String

def qualifyTopologyMiss (pending : PendingTopologyMiss) (input : AbsenceInput) : PendingTopologyMiss :=
  match input.effectiveAt with
  | none => pending
  | some effectiveAt =>
    if pending.qualifyingSequence.isSome ∨ input.outcome ≠ .complete ∨ pending.digest ≠ input.digest ∨
        input.sequence ≤ pending.firstSequence ∨ effectiveAt - pending.firstEffectiveAt < 300000 then
      pending
    else
      { pending with qualifyingSequence := some input.sequence, qualifyingEffectiveAt := some effectiveAt }

def keysOf (groups : List PendingTopologyMiss) : List RowKey :=
  groups.flatMap (·.rowKeys)

def withoutPositives (active : List PendingTopologyMiss) (positive : List RowKey) : List PendingTopologyMiss :=
  (active.map fun group => { group with rowKeys := group.rowKeys.filter (!positive.contains ·) }).filter
    (!·.rowKeys.isEmpty)

def missingKeys (active : List PendingTopologyMiss) (input : AbsenceInput) : List RowKey :=
  input.previousKeys.filter fun key => !input.positiveKeys.contains key && !(keysOf active).contains key

def withMissing (active : List PendingTopologyMiss) (input : AbsenceInput) (effectiveAt : Int) :
    List PendingTopologyMiss :=
  match missingKeys active input with
  | [] => active
  | missing => active ++
    [{ generation := input.generation, firstSequence := input.sequence, firstEffectiveAt := effectiveAt
       digest := input.digest, rowKeys := missing }]

def requalify (input : AbsenceInput) (group : PendingTopologyMiss) : PendingTopologyMiss :=
  qualifyTopologyMiss { group with digest := input.digest } input

def advanceTopologyAbsence (state : TopologyAbsenceState) (input : AbsenceInput) :
    TopologyAbsenceState × List PendingTopologyMiss :=
  let active := withoutPositives state.active input.positiveKeys
  match input.outcome, input.effectiveAt with
  | .complete, some effectiveAt =>
    let active := withMissing active input effectiveAt
    let newTransitions := (active.filter fun group =>
      (requalify input group).qualifyingSequence.isSome && group.qualifyingSequence.isNone).map (requalify input)
    -- a queued withdrawal is owned by `transitions`, so its streak is not kept
    let active := (active.map (requalify input)).filter (·.qualifyingSequence.isNone)
    ({ state with active, transitions := state.transitions ++ newTransitions }, newTransitions)
  | _, _ => ({ state with active }, [])

def topologyKnownKeyLimit : Nat := 16384

structure TopologyKnownKeyRetention where
  keys : List RowKey
  exceeded : Bool
  required : Nat
  deriving DecidableEq, Repr

def retainTopologyKnownKeys (previous positives : List RowKey) (withdrawn : List PendingTopologyMiss) :
    TopologyKnownKeyRetention :=
  let all := (positives ++ previous).eraseDups.filter (!(keysOf withdrawn).contains ·)
  if all.length > topologyKnownKeyLimit then ⟨all.take topologyKnownKeyLimit, true, all.length⟩
  else ⟨all, false, all.length⟩

structure Support where
  archived : Bool
  freshUntil : Int
  deriving DecidableEq, Repr

def topologyPruneStaleMs : Int := 7 * 86400000

def prunableTopologyKnownKeys (knownKeys positives : List RowKey) (rowRelationships : RowKey → List String)
    (support : String → Option Support) (absence : TopologyAbsenceState) (now : Int) : List RowKey :=
  let pending := keysOf (absence.active ++ absence.transitions)
  let queued := absence.lifecycle.map (·.relationshipId)
  let cutoff := now - topologyPruneStaleMs
  knownKeys.filter fun key =>
    if positives.contains key || pending.contains key then false
    else
      let ids := rowRelationships key
      if ids.any queued.contains then false
      else !ids.isEmpty && ids.all fun id =>
        match support id with
        | some row => row.archived && decide (row.freshUntil < cutoff)
        | none => false

section Keys

variable {active groups : List PendingTopologyMiss} {input : AbsenceInput} {k : RowKey} {t : Int}

@[simp] lemma keysOf_nil : keysOf [] = [] := rfl

@[simp] lemma keysOf_cons (group : PendingTopologyMiss) (groups : List PendingTopologyMiss) :
    keysOf (group :: groups) = group.rowKeys ++ keysOf groups := rfl

lemma mem_keysOf : k ∈ keysOf groups ↔ ∃ g ∈ groups, k ∈ g.rowKeys := mem_flatMap

lemma keysOf_append (groups others : List PendingTopologyMiss) :
    keysOf (groups ++ others) = keysOf groups ++ keysOf others := flatMap_append

lemma keysOf_map {f : PendingTopologyMiss → PendingTopologyMiss} (hf : ∀ g, (f g).rowKeys = g.rowKeys)
    (groups : List PendingTopologyMiss) : keysOf (groups.map f) = keysOf groups := by
  induction groups with
  | nil => rfl
  | cons g groups ih => simp [hf, ih]

lemma keysOf_split (p : PendingTopologyMiss → Bool) (groups : List PendingTopologyMiss) :
    (keysOf (groups.filter p) ++ keysOf (groups.filter (!p ·))).Perm (keysOf groups) := by
  rw [← keysOf_append]
  exact (filter_append_perm p groups).flatMap_right _

lemma keysOf_withoutPositives (active : List PendingTopologyMiss) (positive : List RowKey) :
    keysOf (withoutPositives active positive) = (keysOf active).filter (!positive.contains ·) := by
  induction active with
  | nil => rfl
  | cons g active ih =>
    have hcons : withoutPositives (g :: active) positive =
        withoutPositives [g] positive ++ withoutPositives active positive := by
      simp [withoutPositives, filter_cons]
      split_ifs <;> rfl
    rw [hcons, keysOf_append, ih, keysOf_cons, filter_append]
    congr 1
    simp only [withoutPositives, map_cons, map_nil, filter_cons, filter_nil]
    split_ifs with h
    · simp
    · simp_all

lemma keysOf_withMissing (active : List PendingTopologyMiss) (input : AbsenceInput) (t : Int) :
    keysOf (withMissing active input t) = keysOf active ++ missingKeys active input := by
  unfold withMissing
  split
  · simp_all
  · simp [keysOf_append]

variable {positive : List RowKey}

variable {g : PendingTopologyMiss}

lemma mem_withoutPositives (hg : g ∈ withoutPositives active positive) :
    ∃ h ∈ active, g = { h with rowKeys := h.rowKeys.filter (!positive.contains ·) } := by
  simp only [withoutPositives, mem_filter, mem_map] at hg
  obtain ⟨⟨h, hh, rfl⟩, -⟩ := hg
  exact ⟨h, hh, rfl⟩

lemma withoutPositives_keeps (hg : g ∈ active) (hk : k ∈ g.rowKeys) (hpos : k ∉ positive) :
    ∃ h ∈ withoutPositives active positive, k ∈ h.rowKeys ∧ h.firstEffectiveAt = g.firstEffectiveAt ∧
      h.firstSequence = g.firstSequence := by
  have hmem : k ∈ g.rowKeys.filter (!positive.contains ·) := by simp [hk, hpos]
  refine ⟨{ g with rowKeys := g.rowKeys.filter (!positive.contains ·) }, ?_, hmem, rfl, rfl⟩
  refine List.mem_filter.mpr ⟨mem_map_of_mem hg, ?_⟩
  rw [Bool.not_eq_true', isEmpty_eq_false_iff]
  exact ne_nil_of_mem hmem

lemma mem_withMissing (hg : g ∈ withMissing active input t) :
    g ∈ active ∨ g = { generation := input.generation, firstSequence := input.sequence, firstEffectiveAt := t
                       digest := input.digest, rowKeys := missingKeys active input } := by
  unfold withMissing at hg
  split at hg
  · exact .inl hg
  · simpa using hg

section

variable (input : AbsenceInput) (g : PendingTopologyMiss)

@[simp] lemma requalify_rowKeys :
    (requalify input g).rowKeys = g.rowKeys := by
  simp only [requalify, qualifyTopologyMiss]
  split <;> [rfl; split_ifs <;> rfl]

@[simp] lemma requalify_firstEffectiveAt :
    (requalify input g).firstEffectiveAt = g.firstEffectiveAt := by
  simp only [requalify, qualifyTopologyMiss]
  split <;> [rfl; split_ifs <;> rfl]

@[simp] lemma requalify_firstSequence :
    (requalify input g).firstSequence = g.firstSequence := by
  simp only [requalify, qualifyTopologyMiss]
  split <;> [rfl; split_ifs <;> rfl]

end

def isDue (input : AbsenceInput) (t : Int) (g : PendingTopologyMiss) : Bool :=
  decide (g.firstSequence < input.sequence) && decide (g.firstEffectiveAt + 300000 ≤ t)

lemma requalify_isSome (ht : input.effectiveAt = some t) (hout : input.outcome = .complete)
    (hg : g.qualifyingSequence = none) :
    (requalify input g).qualifyingSequence.isSome = isDue input t g := by
  simp only [requalify, qualifyTopologyMiss, ht, isDue]
  split_ifs with h
  · simp only [hg, Option.isSome_none, Bool.false_eq_true, hout, ne_eq, not_true_eq_false, false_or] at h ⊢
    by_contra hc
    simp at hc
    omega
  · simp only [hg, Option.isSome_none, Bool.false_eq_true, hout, ne_eq, not_true_eq_false, false_or, not_or] at h
    simp
    omega

/-- Neither an open streak nor a queued one is in two places; queued streaks are not kept open. -/
structure Streaks (active : List PendingTopologyMiss) : Prop where
  distinct : (keysOf active).Nodup
  unqualified : ∀ g ∈ active, g.qualifyingSequence = none

lemma Streaks.nil : Streaks [] := ⟨nodup_nil, nofun⟩

def candidates (active : List PendingTopologyMiss) (input : AbsenceInput) (t : Int) : List PendingTopologyMiss :=
  withMissing (withoutPositives active input.positiveKeys) input t

lemma candidates_unqualified (h : Streaks active) : ∀ g ∈ candidates active input t, g.qualifyingSequence = none := by
  intro g hg
  obtain hg | rfl := mem_withMissing hg
  · obtain ⟨h', hh', rfl⟩ := mem_withoutPositives hg
    exact h.unqualified h' hh'
  · rfl

lemma candidates_distinct (h : Streaks active) (hprev : input.previousKeys.Nodup) :
    (keysOf (candidates active input t)).Nodup := by
  rw [candidates, keysOf_withMissing, keysOf_withoutPositives, nodup_append]
  refine ⟨h.distinct.filter _, hprev.filter _, ?_⟩
  rintro a ha b hb rfl
  simp only [missingKeys, keysOf_withoutPositives, mem_filter] at ha hb
  simp_all

variable {state : TopologyAbsenceState}

lemma advance_complete (h : Streaks state.active) (ht : input.effectiveAt = some t) (hout : input.outcome = .complete) :
    advanceTopologyAbsence state input =
      ({ state with
          active := ((candidates state.active input t).filter (!isDue input t ·)).map (requalify input)
          transitions := state.transitions ++
            ((candidates state.active input t).filter (isDue input t)).map (requalify input) },
        ((candidates state.active input t).filter (isDue input t)).map (requalify input)) := by
  have hun : ∀ g ∈ candidates state.active input t, g.qualifyingSequence = none := candidates_unqualified h
  have hnew : ∀ gs : List PendingTopologyMiss, (∀ g ∈ gs, g.qualifyingSequence = none) →
      gs.filter (fun group => (requalify input group).qualifyingSequence.isSome && group.qualifyingSequence.isNone) =
        gs.filter (isDue input t) := by
    intro gs hgs
    refine filter_congr fun g hg => ?_
    rw [requalify_isSome ht hout (hgs g hg), hgs g hg]
    simp
  have hold : ∀ gs : List PendingTopologyMiss, (∀ g ∈ gs, g.qualifyingSequence = none) →
      (gs.map (requalify input)).filter (·.qualifyingSequence.isNone) =
        (gs.filter (!isDue input t ·)).map (requalify input) := by
    intro gs hgs
    rw [filter_map]
    congr 1
    refine filter_congr fun g hg => ?_
    rw [← requalify_isSome ht hout (hgs g hg)]
    simp
  simp only [advanceTopologyAbsence, ht, hout]
  simp only [← candidates.eq_def, hnew _ hun, hold _ hun]

def IsBlind (input : AbsenceInput) : Prop := ∀ t, input.effectiveAt = some t → input.outcome ≠ .complete

lemma blind_or_complete (input : AbsenceInput) :
    IsBlind input ∨ ∃ t, input.effectiveAt = some t ∧ input.outcome = .complete := by
  by_cases h : ∃ t, input.effectiveAt = some t ∧ input.outcome = .complete
  · exact .inr h
  · exact .inl fun t ht hout => h ⟨t, ht, hout⟩

lemma advance_blind (hblind : IsBlind input) :
    advanceTopologyAbsence state input =
      ({ state with active := withoutPositives state.active input.positiveKeys }, []) := by
  unfold advanceTopologyAbsence
  split
  · exact absurd ‹input.outcome = _› (hblind _ ‹_›)
  · rfl

lemma withoutPositives_origin (hg : g ∈ withoutPositives active positive) (hk : k ∈ g.rowKeys) :
    k ∉ positive ∧ ∃ o ∈ active, k ∈ o.rowKeys ∧ o.firstEffectiveAt = g.firstEffectiveAt ∧
      o.firstSequence = g.firstSequence := by
  obtain ⟨o, ho, rfl⟩ := mem_withoutPositives hg
  simp only [mem_filter, Bool.not_eq_true', contains_eq_mem, decide_eq_false_iff_not] at hk
  exact ⟨hk.2, o, ho, hk.1, rfl, rfl⟩

section

variable (h : Streaks state.active)

include h

lemma queued_streak (hk : k ∈ keysOf (advanceTopologyAbsence state input).2) :
    input.outcome = .complete ∧ k ∉ input.positiveKeys ∧
      ∃ t, input.effectiveAt = some t ∧
        ∃ g ∈ state.active, k ∈ g.rowKeys ∧ g.firstEffectiveAt + 300000 ≤ t := by
  obtain hblind | ⟨t, ht, hout⟩ := blind_or_complete input
  · simp [advance_blind hblind] at hk
  · rw [advance_complete h ht hout, keysOf_map (requalify_rowKeys input), mem_keysOf] at hk
    obtain ⟨g, hg, hk⟩ := hk
    obtain ⟨hg, hdue⟩ := List.mem_filter.mp hg
    simp only [isDue, Bool.and_eq_true, decide_eq_true_eq] at hdue
    obtain hg | rfl := mem_withMissing hg
    · obtain ⟨hpos, o, ho, hko, htime, -⟩ := withoutPositives_origin hg hk
      exact ⟨hout, hpos, t, ht, o, ho, hko, by omega⟩
    · -- a streak opened by this very read is not old enough
      simp only at hdue
      omega

lemma active_streak
    (hg : g ∈ (advanceTopologyAbsence state input).1.active) (hk : k ∈ g.rowKeys) :
    k ∉ input.positiveKeys ∧
      ((∃ o ∈ state.active, k ∈ o.rowKeys ∧ o.firstEffectiveAt = g.firstEffectiveAt ∧
          o.firstSequence = g.firstSequence) ∨
        (input.outcome = .complete ∧ input.effectiveAt = some g.firstEffectiveAt ∧
          g.firstSequence = input.sequence ∧ k ∈ input.previousKeys)) := by
  obtain hblind | ⟨t, ht, hout⟩ := blind_or_complete input
  · rw [advance_blind hblind] at hg
    exact (withoutPositives_origin hg hk).imp_right .inl
  · rw [advance_complete h ht hout] at hg
    obtain ⟨o, ho, rfl⟩ := List.mem_map.mp hg
    rw [requalify_rowKeys] at hk
    simp only [requalify_firstEffectiveAt, requalify_firstSequence]
    obtain ho | rfl := mem_withMissing (List.mem_filter.mp ho).1
    · exact (withoutPositives_origin ho hk).imp_right .inl
    · simp only [missingKeys, mem_filter, Bool.and_eq_true, Bool.not_eq_true', contains_eq_mem,
        decide_eq_false_iff_not] at hk
      exact ⟨hk.2.1, .inr ⟨hout, ht, rfl, hk.1⟩⟩

lemma advance_distinct (hprev : input.previousKeys.Nodup) :
    (keysOf (advanceTopologyAbsence state input).2 ++ keysOf (advanceTopologyAbsence state input).1.active).Nodup := by
  have hkept : (keysOf (withoutPositives state.active input.positiveKeys)).Nodup := by
    rw [keysOf_withoutPositives]
    exact h.distinct.filter _
  obtain hblind | ⟨t, ht, hout⟩ := blind_or_complete input
  · simpa [advance_blind hblind] using hkept
  · rw [advance_complete h ht hout]
    simp only [keysOf_map (requalify_rowKeys input)]
    exact (keysOf_split _ _).nodup_iff.mpr (candidates_distinct h hprev)

lemma advance_streaks (hprev : input.previousKeys.Nodup) :
    Streaks (advanceTopologyAbsence state input).1.active := by
  refine ⟨(advance_distinct h hprev).of_append_right, fun g hg => ?_⟩
  have hkept : ∀ g ∈ withoutPositives state.active input.positiveKeys, g.qualifyingSequence = none := by
    intro g hg
    obtain ⟨o, ho, rfl⟩ := mem_withoutPositives hg
    exact h.unqualified o ho
  unfold advanceTopologyAbsence at hg
  split at hg
  · simpa using (List.mem_filter.mp hg).2
  · exact hkept g hg

lemma streak_advances (hg : g ∈ state.active) (hk : k ∈ g.rowKeys)
    (hpos : k ∉ input.positiveKeys) (hseq : g.firstSequence < input.sequence) :
    (∃ o ∈ (advanceTopologyAbsence state input).1.active, k ∈ o.rowKeys ∧
        o.firstEffectiveAt = g.firstEffectiveAt ∧
        ∀ t, input.effectiveAt = some t → input.outcome = .complete → t < g.firstEffectiveAt + 300000) ∨
      k ∈ keysOf (advanceTopologyAbsence state input).2 := by
  obtain ⟨o, ho, hko, htime, hfirst⟩ := withoutPositives_keeps hg hk hpos
  obtain hblind | ⟨t, ht, hout⟩ := blind_or_complete input
  · refine .inl ⟨o, ?_, hko, htime, fun t ht hc => absurd hc (hblind t ht)⟩
    rw [advance_blind hblind]
    exact ho
  · have hc : o ∈ candidates state.active input t := by
      unfold candidates withMissing
      split
      · exact ho
      · exact mem_append_left _ ho
    rw [advance_complete h ht hout]
    by_cases hdue : isDue input t o
    · right
      rw [keysOf_map (requalify_rowKeys input), mem_keysOf]
      exact ⟨o, List.mem_filter.mpr ⟨hc, hdue⟩, hko⟩
    · refine .inl ⟨requalify input o, ?_, by simpa using hko, by simpa using htime, ?_⟩
      · exact mem_map_of_mem (List.mem_filter.mpr ⟨hc, by simpa using hdue⟩)
      · intro t' ht' _
        rw [ht, Option.some.injEq] at ht'
        simp only [isDue, Bool.and_eq_true, decide_eq_true_eq] at hdue
        omega

lemma streak_opens (ht : input.effectiveAt = some t) (hout : input.outcome = .complete)
    (hprev : k ∈ input.previousKeys) (hpos : k ∉ input.positiveKeys) (hfree : k ∉ keysOf state.active) :
    ∃ o ∈ (advanceTopologyAbsence state input).1.active, k ∈ o.rowKeys ∧ o.firstEffectiveAt = t := by
  have hmissing : k ∈ missingKeys (withoutPositives state.active input.positiveKeys) input := by
    simp only [missingKeys, keysOf_withoutPositives, mem_filter]
    simp [hprev, hpos, hfree]
  obtain ⟨o, hc, hkeys, htime, hfirst⟩ : ∃ o ∈ candidates state.active input t,
      o.rowKeys = missingKeys (withoutPositives state.active input.positiveKeys) input ∧
        o.firstEffectiveAt = t ∧ o.firstSequence = input.sequence := by
    unfold candidates withMissing
    split
    · simp_all
    · exact ⟨_, mem_append_right _ mem_cons_self, rfl, rfl, rfl⟩
  rw [advance_complete h ht hout]
  refine ⟨requalify input o, mem_map_of_mem (List.mem_filter.mpr ⟨hc, ?_⟩), ?_, ?_⟩
  · simp [isDue, hfirst]
  · rwa [requalify_rowKeys, hkeys]
  · rwa [requalify_firstEffectiveAt]

end

end Keys

section KnownKeys

variable {previous positives : List RowKey} {withdrawn : List PendingTopologyMiss} {k : RowKey}

lemma nodup_eraseDups (keys : List RowKey) : keys.eraseDups.Nodup := by
  induction h : keys.length using Nat.strongRecOn generalizing keys with
  | _ n ih =>
    cases keys with
    | nil => exact nodup_nil
    | cons key keys =>
      rw [eraseDups_cons, nodup_cons]
      refine ⟨by simp, ih _ ?_ _ rfl⟩
      have := length_filter_le (fun b => !b == key) keys
      simp only [length_cons] at h
      omega

lemma retained_nodup (previous positives : List RowKey) (withdrawn : List PendingTopologyMiss) :
    (retainTopologyKnownKeys previous positives withdrawn).keys.Nodup := by
  have hall : ((positives ++ previous).eraseDups.filter (!(keysOf withdrawn).contains ·)).Nodup :=
    (nodup_eraseDups _).filter _
  unfold retainTopologyKnownKeys
  dsimp only
  split_ifs
  · exact hall.sublist (take_sublist _ _)
  · exact hall

lemma retained_length (previous positives : List RowKey) (withdrawn : List PendingTopologyMiss) :
    (retainTopologyKnownKeys previous positives withdrawn).keys.length ≤ topologyKnownKeyLimit := by
  unfold retainTopologyKnownKeys
  dsimp only
  split_ifs with h
  · exact length_take_le _ _
  · exact Nat.not_lt.mp h

lemma mem_of_retained (hk : k ∈ (retainTopologyKnownKeys previous positives withdrawn).keys) :
    (k ∈ positives ∨ k ∈ previous) ∧ k ∉ keysOf withdrawn := by
  have hall : k ∈ (positives ++ previous).eraseDups.filter (!(keysOf withdrawn).contains ·) := by
    unfold retainTopologyKnownKeys at hk
    dsimp only at hk
    split_ifs at hk
    · exact mem_of_mem_take hk
    · exact hk
  simpa using hall

lemma mem_retained (hfit : (retainTopologyKnownKeys previous positives withdrawn).exceeded = false)
    (hk : k ∈ positives ∨ k ∈ previous) (hgone : k ∉ keysOf withdrawn) :
    k ∈ (retainTopologyKnownKeys previous positives withdrawn).keys := by
  unfold retainTopologyKnownKeys at hfit ⊢
  dsimp only at hfit ⊢
  split_ifs at hfit ⊢
  simpa using ⟨hk, hgone⟩

lemma retained_fits (hlen : previous.length ≤ topologyKnownKeyLimit) :
    (retainTopologyKnownKeys previous [] withdrawn).exceeded = false := by
  have h : (previous.eraseDups.filter (!(keysOf withdrawn).contains ·)).length ≤ previous.length :=
    Nat.le_trans (length_filter_le _ _)
      (subperm_of_subset (nodup_eraseDups previous) fun _ => List.mem_eraseDups.mp).length_le
  unfold retainTopologyKnownKeys
  dsimp only
  rw [if_neg (by simpa using Nat.le_trans h hlen)]

lemma prunable_not_pending {knownKeys : List RowKey} {rows : RowKey → List String} {support : String → Option Support}
    {absence : TopologyAbsenceState} {now : Int}
    (hk : k ∈ prunableTopologyKnownKeys knownKeys positives rows support absence now) :
    k ∉ keysOf absence.active := by
  simp only [prunableTopologyKnownKeys, mem_filter] at hk
  intro hactive
  have : k ∈ keysOf (absence.active ++ absence.transitions) := by
    rw [keysOf_append]
    exact mem_append_left _ hactive
  simp [this] at hk

end KnownKeys

end Breeze.Topology.Absence
