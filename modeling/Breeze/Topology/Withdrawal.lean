import Breeze.Topology.Ingest

/-! Over every history of a physical source: which keys are queued for withdrawal, and which are not missed. -/

namespace Breeze.Topology.Withdrawal

open Breeze.Lib Absence Ingest List

section Steps

def isQuiet : Answer → Bool
  | .accepted _ | .rejected .snapshotBudgetExceeded => false
  | _ => true

inductive Ingested (source : Source) : Source × Answer → Prop
  | refused {answer : Answer} (hquiet : isQuiet answer = true) : Ingested source (source, answer)
  | gap : Ingested source (rejectForCapacity source)
  | confirmed (input : Capture) (t : Int) (fresh : Option Int) (env : Surroundings)
      (hseq : source.acceptedSequence < input.sequence) (hdigest : source.contentDigest = some input.contentDigest) :
      Ingested source (confirmAccepted source input t fresh env)
  | changed (snapshot : Snapshot) (t : Int) (fresh : Option Int) (env : Surroundings)
      (hseq : source.contentDigest.isSome → source.acceptedSequence < snapshot.sequence)
      (hfit : (admitRetained source snapshot t env).exceeded = false) :
      Ingested source (admitAccepted source snapshot t fresh env)

inductive Base (row : Option Source) : Source → Prop
  | stored {source : Source} (hrow : row = some source) (hopen : source.revoked = false) : Base row source
  | fresh {source : Source} (hrow : ∀ s, row = some s → s.producerEpoch ≠ source.producerEpoch)
      (hmisses : source.pendingMisses = {}) (hbaseline : source.currentBaseline = none)
      (hdigest : source.contentDigest = none) : Base row source

structure Tended (s s' : Source) : Prop where
  epoch : s'.producerEpoch = s.producerEpoch
  baseline : s'.currentBaseline = s.currentBaseline
  digest : s'.contentDigest = s.contentDigest
  sequence : s'.acceptedSequence = s.acceptedSequence
  active : (s'.pendingMisses.active = s.pendingMisses.active ∧ s'.revoked = s.revoked) ∨
    (s'.pendingMisses.active = [] ∧ s'.revoked = true)

inductive Moved (row : Option Source) : Option Source × Answer → Prop
  | idle {answer : Answer} (hquiet : isQuiet answer = true) : Moved row (row, answer)
  | tended {s s' : Source} (hrow : row = some s) (h : Tended s s') : Moved row (some s', .silent)
  | ingested {base : Source} {result : Source × Answer} (hbase : Base row base) (h : Ingested base result) :
      Moved row (some result.1, result.2)

variable {dateParse : String → Option Int} {bytes : StoredBytes} {source : Source}

lemma confirm_ingested {input : Capture} (env : Surroundings)
    (hdigest : source.contentDigest = some input.contentDigest) :
    Ingested source (confirm dateParse source input env) := by
  unfold confirm
  dsimp only
  split_ifs with h₁ h₂ h₃ h₄
  · exact .refused rfl
  · exact .refused rfl
  · exact .refused rfl
  · exact .refused rfl
  · split
    · exact .refused rfl
    · exact .confirmed _ _ _ _ (by omega) hdigest

lemma admitChanged_ingested {snapshot : Snapshot} {t : Int} {fresh : Option Int} {env : Surroundings}
    (hseq : source.contentDigest.isSome → source.acceptedSequence < snapshot.sequence) :
    Ingested source (admitChanged bytes source snapshot t fresh env) := by
  unfold admitChanged
  dsimp only
  split_ifs with hfit
  · exact .gap
  · exact .gap
  · exact .gap
  · exact .changed _ _ _ _ hseq (by simpa using hfit)

lemma admitCurrent_ingested (source : Source) (snapshot : Snapshot) (env : Surroundings) :
    Ingested source (admitCurrent dateParse bytes source snapshot env) := by
  unfold admitCurrent
  dsimp only
  split
  · exact .refused rfl
  · split_ifs with hdigest hstale hseen
    · exact confirm_ingested env hdigest
    · exact .refused rfl
    · exact .refused rfl
    · apply admitChanged_ingested
      intro hsome
      by_contra hle
      exact hstale ⟨by omega, hsome⟩

lemma admit_moved (row : Option Source) (p : Producer) (snapshot : Snapshot) (env : Surroundings) :
    Moved row (some (admitReport dateParse bytes row p snapshot env).1, (admitReport dateParse bytes row p snapshot env).2) := by
  unfold admitReport
  cases row with
  | none =>
    simp only [Option.getD_none, Bool.false_eq_true, false_and, if_false, ne_eq, not_true_eq_false, or_false]
    refine .ingested ?_ (admitCurrent_ingested _ _ _)
    exact .fresh (fun s hs => by cases hs) rfl rfl rfl
  | some source =>
    simp only [Option.getD_some]
    split_ifs with hfenced hother
    · exact .idle rfl
    · refine .ingested ?_ (admitCurrent_ingested _ _ _)
      refine .fresh ?_ rfl rfl rfl
      rintro s ⟨⟩
      obtain hepoch | hrevoked := hother
      · exact hepoch
      · exact fun hepoch => hfenced ⟨hrevoked, hepoch⟩
    · refine .ingested ?_ (admitCurrent_ingested _ _ _)
      exact .stored rfl (by simp_all)

lemma step_moved (row : Option Source) (event : Event) : Moved row (step dateParse bytes row event) := by
  cases event with
  | full p snapshot env =>
    simp only [step]
    split_ifs
    · exact .idle rfl
    · exact admit_moved row p snapshot env
  | unchanged p confirmation env =>
    cases row with
    | none => exact .idle rfl
    | some source =>
      simp only [step, confirmSource]
      split_ifs with hrevoked hmatch
      · exact .idle rfl
      · exact .idle rfl
      · push Not at hmatch
        exact .ingested (.stored rfl (by simpa using hrevoked)) (confirm_ingested env hmatch.2.2.2.2)
  | revoke =>
    cases row with
    | none => exact .idle rfl
    | some source =>
      refine .tended rfl ?_
      unfold revokeSource
      split_ifs
      · exact ⟨rfl, rfl, rfl, rfl, .inl ⟨rfl, rfl⟩⟩
      · exact ⟨rfl, rfl, rfl, rfl, .inr ⟨rfl, rfl⟩⟩
  | age changes =>
    cases row with
    | none => exact .idle rfl
    | some source =>
      refine .tended rfl ?_
      simp only [queueAging]
      split_ifs
      · exact ⟨rfl, rfl, rfl, rfl, .inl ⟨rfl, rfl⟩⟩
      · exact ⟨rfl, rfl, rfl, rfl, .inl ⟨rfl, rfl⟩⟩
  | publish consumed remap =>
    cases row with
    | none => exact .idle rfl
    | some source => exact .tended rfl ⟨rfl, rfl, rfl, rfl, .inl ⟨rfl, rfl⟩⟩

end Steps

section Reads

structure Consistent (s : Source) : Prop where
  streaks : Streaks s.pendingMisses.active
  known : keysOf s.pendingMisses.active ⊆ knownKeys s
  distinct : (knownKeys s).Nodup
  bounded : (knownKeys s).length ≤ topologyKnownKeyLimit
  recorded : ∀ b, s.currentBaseline = some b → b.knownKeys.isSome = true
  ordered : ∀ g ∈ s.pendingMisses.active, ∀ k ∈ g.rowKeys, g.firstSequence ≤ s.acceptedSequence
  unread : s.contentDigest = none → s.pendingMisses.active = []

variable {s s' base : Source} {r : Read}

lemma knownKeys_congr (h : s'.currentBaseline = s.currentBaseline) : knownKeys s' = knownKeys s := by
  simp only [knownKeys, sectionKeys, h]

lemma knownKeys_nil (h : s.currentBaseline = none) : knownKeys s = [] := by
  simp [knownKeys, sectionKeys, h]

lemma Consistent.of_same (h : Consistent s) (hbaseline : s'.currentBaseline = s.currentBaseline)
    (hdigest : s'.contentDigest = s.contentDigest) (hseq : s'.acceptedSequence = s.acceptedSequence)
    (hactive : s'.pendingMisses.active = s.pendingMisses.active ∨ s'.pendingMisses.active = []) : Consistent s' := by
  have hknown := knownKeys_congr hbaseline
  obtain hactive | hactive := hactive
  · refine ⟨?_, ?_, ?_, ?_, ?_, ?_, ?_⟩
    · exact hactive ▸ h.streaks
    · exact hactive ▸ hknown ▸ h.known
    · exact hknown ▸ h.distinct
    · exact hknown ▸ h.bounded
    · exact hbaseline ▸ h.recorded
    · exact hactive ▸ hseq ▸ h.ordered
    · exact hactive ▸ hdigest ▸ h.unread
  · refine ⟨?_, ?_, ?_, ?_, ?_, ?_, ?_⟩
    · exact hactive ▸ .nil
    · simp [hactive]
    · exact hknown ▸ h.distinct
    · exact hknown ▸ h.bounded
    · exact hbaseline ▸ h.recorded
    · simp [hactive]
    · exact fun _ => hactive

lemma Base.consistent {row : Option Source} (hbase : Base row base)
    (h : ∀ s, row = some s → Consistent s) : Consistent base := by
  cases hbase with
  | stored hrow _ => exact h base hrow
  | fresh _ hmisses hbaseline hdigest =>
    refine ⟨?_, ?_, ?_, ?_, ?_, ?_, ?_⟩
    · exact hmisses ▸ .nil
    · simp [hmisses]
    · simp [knownKeys_nil hbaseline]
    · simp [knownKeys_nil hbaseline]
    · simp [hbaseline]
    · simp [hmisses]
    · simp [hmisses]

structure Recorded (base s : Source) (r : Read) (input : AbsenceInput) : Prop where
  time : input.effectiveAt = some r.effectiveAt
  outcome : input.outcome = r.outcome
  sequence : input.sequence = r.sequence
  positives : input.positiveKeys = r.positives
  previous : ∀ k ∈ input.previousKeys, k ∈ knownKeys base ∧ k ∉ r.pruned
  previous_distinct : input.previousKeys.Nodup
  previous_changed : r.changed = true → ∀ k ∈ knownKeys base, k ∉ r.pruned → k ∈ input.previousKeys
  pruned : ∀ k ∈ r.pruned, k ∉ keysOf base.pendingMisses.active
  queued : keysOf r.queued = keysOf (advanceTopologyAbsence base.pendingMisses input).2
  active : s.pendingMisses.active = (advanceTopologyAbsence base.pendingMisses input).1.active
  later : ∀ g ∈ base.pendingMisses.active, ∀ k ∈ g.rowKeys, g.firstSequence < r.sequence
  accepted : s.acceptedSequence = r.sequence
  epoch : r.epoch = base.producerEpoch
  kept_epoch : s.producerEpoch = base.producerEpoch
  digest : s.contentDigest.isSome = true
  recorded : ∀ b, s.currentBaseline = some b → b.knownKeys.isSome = true
  bounded : (knownKeys s).length ≤ topologyKnownKeyLimit
  distinct : (knownKeys s).Nodup
  known_from : ∀ k ∈ knownKeys s, (k ∈ r.positives ∨ k ∈ knownKeys base) ∧ k ∉ keysOf r.queued
  known_kept : ∀ k ∈ knownKeys base, k ∉ r.pruned → k ∉ keysOf r.queued → k ∈ knownKeys s

@[simp] lemma stamp_rowKeys (revision : Nat) (g : PendingTopologyMiss) : (stamp revision g).rowKeys = g.rowKeys := rfl

lemma keysOf_stamp (revision : Nat) (groups : List PendingTopologyMiss) :
    keysOf (groups.map (stamp revision)) = keysOf groups :=
  keysOf_map (stamp_rowKeys revision) groups

lemma confirmed_known (h : Consistent base) (input : Capture) (t : Int) (fresh : Option Int)
    (env : Surroundings) :
    knownKeys (confirmAccepted base input t fresh env).1 =
      (retainTopologyKnownKeys (knownKeys base) []
        (advanceTopologyAbsence base.pendingMisses (confirmInput base input t env)).2).keys := by
  cases hb : base.currentBaseline with
  | none =>
    rw [knownKeys_nil hb, knownKeys_nil (by simp [confirmAccepted, hb])]
    rfl
  | some b =>
    obtain ⟨keys, hkeys⟩ := Option.isSome_iff_exists.mp (h.recorded b hb)
    simp [knownKeys, confirmAccepted, hb, hkeys]

lemma confirmed_recorded (h : Consistent base) {input : Capture} (t : Int) (fresh : Option Int)
    (env : Surroundings) (hseq : base.acceptedSequence < input.sequence)
    (hdigest : base.contentDigest = some input.contentDigest)
    (hr : (confirmAccepted base input t fresh env).2 = .accepted r) :
    Recorded base (confirmAccepted base input t fresh env).1 r (confirmInput base input t env) := by
  obtain rfl : _ = r := Answer.accepted.inj hr
  have hknown := confirmed_known h input t fresh env
  constructor
  case previous => nofun
  case previous_distinct => exact nodup_nil
  case previous_changed => nofun
  case pruned => nofun
  case queued => exact keysOf_stamp _ _
  case later => exact fun g hg k hk => Nat.lt_of_le_of_lt (h.ordered g hg k hk) hseq
  case digest => simp [confirmAccepted, hdigest]
  case recorded =>
    intro b hb
    obtain ⟨b₀, hb₀, rfl⟩ := Option.map_eq_some_iff.mp hb
    simpa using h.recorded b₀ hb₀
  case bounded => exact hknown ▸ retained_length _ _ _
  case distinct => exact hknown ▸ retained_nodup _ _ _
  case known_from =>
    intro k hk
    rw [hknown] at hk
    obtain ⟨hk, hgone⟩ := mem_of_retained hk
    exact ⟨.inr (by simpa using hk), by rwa [keysOf_stamp]⟩
  case known_kept =>
    intro k hk _ hgone
    rw [keysOf_stamp] at hgone
    rw [hknown]
    exact mem_retained (retained_fits h.bounded) (.inr hk) hgone
  all_goals rfl

lemma admitInput_positives (base : Source) (snapshot : Snapshot) (t : Int) (env : Surroundings) :
    (admitInput base snapshot t env).positiveKeys = topologyPositiveKeys snapshot.content := by
  simp only [admitInput]
  split_ifs with h
  · rfl
  · exact (snapshot.content.empty (by simpa using h)).symm

lemma changed_recorded (h : Consistent base) {snapshot : Snapshot} {t : Int} (fresh : Option Int)
    {env : Surroundings} (hseq : base.contentDigest.isSome → base.acceptedSequence < snapshot.sequence)
    (hfit : (admitRetained base snapshot t env).exceeded = false)
    (hr : (admitAccepted base snapshot t fresh env).2 = .accepted r) :
    Recorded base (admitAccepted base snapshot t fresh env).1 r (admitInput base snapshot t env) := by
  obtain rfl : _ = r := Answer.accepted.inj hr
  have hkept : ∀ k, k ∈ pruneArchivedPhysicalKeys base (topologyPositiveKeys snapshot.content) env ↔
      k ∈ knownKeys base ∧ k ∉ prunedKeys base (topologyPositiveKeys snapshot.content) env := by
    simp [pruneArchivedPhysicalKeys]
  have hknown : knownKeys (admitAccepted base snapshot t fresh env).1 = (admitRetained base snapshot t env).keys :=
    rfl
  constructor
  case positives => exact admitInput_positives base snapshot t env
  case previous => exact fun k hk => (hkept k).mp hk
  case previous_distinct => exact h.distinct.filter _
  case previous_changed => exact fun _ k hk hpruned => (hkept k).mpr ⟨hk, hpruned⟩
  case pruned =>
    intro k hk
    simp only [prunedKeys] at hk
    split at hk
    · cases hk
    · exact prunable_not_pending hk
  case queued => exact keysOf_stamp _ _
  case later =>
    intro g hg k hk
    by_cases hread : base.contentDigest.isSome
    · exact Nat.lt_of_le_of_lt (h.ordered g hg k hk) (hseq hread)
    · rw [h.unread (by simpa using hread)] at hg
      cases hg
  case recorded =>
    rintro b ⟨⟩
    rfl
  case bounded => exact hknown ▸ retained_length _ _ _
  case distinct => exact hknown ▸ retained_nodup _ _ _
  case known_from =>
    intro k hk
    rw [hknown] at hk
    obtain ⟨hk, hgone⟩ := mem_of_retained hk
    rw [hkept] at hk
    exact ⟨hk.imp_right And.left, by rwa [keysOf_stamp]⟩
  case known_kept =>
    intro k hk hpruned hgone
    rw [keysOf_stamp] at hgone
    rw [hknown]
    exact mem_retained hfit (.inr ((hkept k).mpr ⟨hk, hpruned⟩)) hgone
  all_goals rfl

lemma Ingested.outcomes {result : Source × Answer} (hi : Ingested base result) (h : Consistent base) :
    (∃ r input, result.2 = .accepted r ∧ Recorded base result.1 r input) ∨
      (result.1 = base ∧ isQuiet result.2 = true) ∨ result = rejectForCapacity base := by
  cases hi with
  | refused hquiet => exact .inr (.inl ⟨rfl, hquiet⟩)
  | gap => exact .inr (.inr rfl)
  | confirmed input t fresh env hseq hdigest =>
    exact .inl ⟨_, _, rfl, confirmed_recorded h t fresh env hseq hdigest rfl⟩
  | changed snapshot t fresh env hseq hfit => exact .inl ⟨_, _, rfl, changed_recorded h fresh hseq hfit rfl⟩

variable {input : AbsenceInput} {k : RowKey}

section

variable (hrec : Recorded base s r input) (h : Consistent base)

include hrec h

lemma Recorded.queued_distinct :
    (keysOf r.queued ++ keysOf s.pendingMisses.active).Nodup := by
  rw [hrec.queued, hrec.active]
  exact advance_distinct h.streaks hrec.previous_distinct

lemma Recorded.consistent : Consistent s := by
  constructor
  case streaks => exact hrec.active ▸ advance_streaks h.streaks hrec.previous_distinct
  case known =>
    intro k hk
    have hgone : k ∉ keysOf r.queued := fun hq => disjoint_of_nodup_append (hrec.queued_distinct h) hq hk
    rw [hrec.active] at hk
    obtain ⟨g, hg, hk⟩ := mem_keysOf.mp hk
    obtain ⟨-, ⟨o, ho, hko, -, -⟩ | ⟨-, -, -, hprev⟩⟩ := active_streak h.streaks hg hk
    · have hold := mem_keysOf.mpr ⟨o, ho, hko⟩
      exact hrec.known_kept k (h.known hold) (fun hp => hrec.pruned k hp hold) hgone
    · exact hrec.known_kept k (hrec.previous k hprev).1 (hrec.previous k hprev).2 hgone
  case distinct => exact hrec.distinct
  case bounded => exact hrec.bounded
  case recorded => exact hrec.recorded
  case ordered =>
    intro g hg k hk
    rw [hrec.active] at hg
    rw [hrec.accepted]
    obtain ⟨-, ⟨o, ho, hko, -, hfirst⟩ | ⟨-, -, hfirst, -⟩⟩ := active_streak h.streaks hg hk
    · exact hfirst ▸ Nat.le_of_lt (hrec.later o ho k hko)
    · exact Nat.le_of_eq (hfirst.trans hrec.sequence)
  case unread =>
    intro hnone
    have := hrec.digest
    simp [hnone] at this

lemma Recorded.queued_only (hk : k ∈ keysOf r.queued) :
    r.outcome = .complete ∧ k ∉ r.positives ∧
      ∃ g ∈ base.pendingMisses.active, k ∈ g.rowKeys ∧ g.firstEffectiveAt + 300000 ≤ r.effectiveAt := by
  rw [hrec.queued] at hk
  obtain ⟨hout, hpos, t, ht, hg⟩ := queued_streak h.streaks hk
  obtain rfl : t = r.effectiveAt := Option.some.inj (ht.symm.trans hrec.time)
  exact ⟨hrec.outcome ▸ hout, hrec.positives ▸ hpos, hg⟩

lemma Recorded.active_from {g : PendingTopologyMiss}
    (hg : g ∈ s.pendingMisses.active) (hk : k ∈ g.rowKeys) :
    k ∉ r.positives ∧
      ((∃ o ∈ base.pendingMisses.active, k ∈ o.rowKeys ∧ o.firstEffectiveAt = g.firstEffectiveAt) ∨
        (r.outcome = .complete ∧ r.effectiveAt = g.firstEffectiveAt ∧ k ∈ knownKeys base)) := by
  rw [hrec.active] at hg
  obtain ⟨hpos, ⟨o, ho, hko, htime, -⟩ | ⟨hout, htime, -, hprev⟩⟩ := active_streak h.streaks hg hk
  · exact ⟨hrec.positives ▸ hpos, .inl ⟨o, ho, hko, htime⟩⟩
  · exact ⟨hrec.positives ▸ hpos, .inr ⟨hrec.outcome ▸ hout, Option.some.inj (hrec.time.symm.trans htime),
      (hrec.previous k hprev).1⟩⟩

end

end Reads

section Histories

def reads (answers : List Answer) : List Read :=
  answers.filterMap fun answer => match answer with
    | .accepted r => some r
    | _ => none

def coverageGap : Answer := .rejected .snapshotBudgetExceeded

def activeOf (row : Option Source) : List PendingTopologyMiss :=
  match row with
  | some s => s.pendingMisses.active
  | none => []

def knownOf (row : Option Source) : List RowKey :=
  match row with
  | some s => knownKeys s
  | none => []

def epochOf (row : Option Source) : Option String :=
  row.map (·.producerEpoch)

def AllConsistent (row : Option Source) : Prop := ∀ s, row = some s → Consistent s

variable {result : Option Source × Answer} {row : Option Source} {past : List Event} {last : Event} {base : Source} {r : Read}
  {k : RowKey}

lemma Base.active (h : Base row base) :
    (base.pendingMisses.active = activeOf row ∧ epochOf row = some base.producerEpoch) ∨ base.pendingMisses.active = [] := by
  cases h with
  | stored hrow _ => exact .inl (by simp [hrow, activeOf, epochOf])
  | fresh _ hmisses _ _ => exact .inr (by rw [hmisses])

lemma Base.known (h : Base row base) : knownKeys base ⊆ knownOf row := by
  cases h with
  | stored hrow _ => simp [hrow, knownOf]
  | fresh _ _ hbaseline _ => simp [knownKeys_nil hbaseline]

@[simp] lemma reads_nil : reads [] = [] := rfl

lemma reads_append (answers others : List Answer) : reads (answers ++ others) = reads answers ++ reads others :=
  filterMap_append

@[simp] lemma mem_reads_singleton {answer : Answer} : r ∈ reads [answer] ↔ answer = .accepted r := by
  cases answer <;> simp [reads, eq_comm]

lemma reads_of_quiet {answer : Answer} (h : isQuiet answer = true) : reads [answer] = [] ∧ answer ≠ coverageGap := by
  cases answer with
  | accepted => cases h
  | rejected reason => cases reason <;> simp_all [reads, coverageGap, isQuiet]
  | _ => simp [reads, coverageGap]

lemma Moved.outcomes (h : Moved row result) (hrow : AllConsistent row) :
    (∃ base s input r, Base row base ∧ Consistent base ∧ result = (some s, .accepted r) ∧ Recorded base s r input) ∨
      (reads [result.2] = [] ∧ AllConsistent result.1 ∧ knownOf result.1 ⊆ knownOf row ∧
        ((activeOf result.1 = activeOf row ∧ epochOf result.1 = epochOf row ∧ result.2 ≠ coverageGap) ∨
          activeOf result.1 = [])) := by
  cases h with
  | idle hquiet =>
    obtain ⟨hreads, hgap⟩ := reads_of_quiet hquiet
    exact .inr ⟨hreads, hrow, List.Subset.refl _, .inl ⟨rfl, rfl, hgap⟩⟩
  | tended hs h =>
    subst hs
    refine .inr ⟨rfl, ?_, by simp [knownOf, knownKeys_congr h.baseline], ?_⟩
    · rintro s ⟨⟩
      exact (hrow _ rfl).of_same h.baseline h.digest h.sequence (h.active.imp And.left And.left)
    · obtain ⟨hactive, -⟩ | ⟨hactive, -⟩ := h.active
      · exact .inl ⟨hactive, by simp [epochOf, h.epoch], by simp [coverageGap]⟩
      · exact .inr hactive
  | @ingested base result hbase h =>
    have hcons := hbase.consistent hrow
    obtain ⟨r, input, hr, hrec⟩ | ⟨hsame, hquiet⟩ | rfl := h.outcomes hcons
    · exact .inl ⟨base, result.1, input, r, hbase, hcons, by rw [hr], hrec⟩
    · obtain ⟨hreads, hgap⟩ := reads_of_quiet hquiet
      rw [hsame]
      refine .inr ⟨hreads, fun s hs => Option.some.inj hs ▸ hcons, hbase.known, ?_⟩
      exact hbase.active.imp_left fun ⟨hactive, hepoch⟩ => ⟨hactive, hepoch.symm, hgap⟩
    · refine .inr ⟨rfl, ?_, hbase.known, .inr rfl⟩
      rintro s ⟨⟩
      exact hcons.of_same rfl rfl rfl (.inr rfl)

lemma Moved.consistent (h : Moved row result) (hrow : AllConsistent row) : AllConsistent result.1 := by
  obtain ⟨base, s, input, r, -, hcons, rfl, hrec⟩ | ⟨-, hsame, -⟩ := h.outcomes hrow
  · rintro s ⟨⟩
    exact hrec.consistent hcons
  · exact hsame

variable {dateParse : String → Option Int} {bytes : StoredBytes}

lemma exec_consistent (events : List Event) : AllConsistent (exec dateParse bytes none events) := by
  apply LoggedRun.exec_preserves (P := AllConsistent)
  · exact fun row event hrow => (step_moved row event).consistent hrow
  · exact fun s hs => by cases hs

/-- The keys a source knows are distinct and bounded in number, and each has at most one open streak of misses. -/
theorem known_keys_sound (dateParse : String → Option Int) (bytes : StoredBytes) (events : List Event) :
    let row := exec dateParse bytes none events
    (knownOf row).Nodup ∧ (knownOf row).length ≤ topologyKnownKeyLimit ∧ (keysOf (activeOf row)).Nodup ∧
      keysOf (activeOf row) ⊆ knownOf row ∧ ∀ g ∈ activeOf row, g.qualifyingSequence = none := by
  intro row
  have hrow : AllConsistent row := exec_consistent events
  clear_value row
  cases row with
  | none => simp [knownOf, activeOf, keysOf]
  | some s =>
    have h := hrow s rfl
    exact ⟨h.distinct, h.bounded, h.streaks.distinct, h.known, h.streaks.unqualified⟩

lemma step_read (hrow : AllConsistent row) (hr : (step dateParse bytes row last).2 = .accepted r) :
    ∃ base s input, Base row base ∧ Consistent base ∧ (step dateParse bytes row last).1 = some s ∧ Recorded base s r input := by
  obtain ⟨base, s, input, r', hbase, hcons, hstep, hrec⟩ | ⟨hreads, -⟩ := Moved.outcomes (step_moved row last) hrow
  · rw [hstep] at hr ⊢
    cases hr
    exact ⟨base, s, input, hbase, hcons, rfl, hrec⟩
  · exact absurd (mem_reads_singleton.mpr hr) (by simp [hreads])

variable (dateParse bytes) in
def Witnessed (past : List Event) (k : RowKey) (t : Int) (epoch : Option String) : Prop :=
  ∃ before first between r, past = before ++ first :: between ∧
    (step dateParse bytes (exec dateParse bytes none before) first).2 = .accepted r ∧
    some r.epoch = epoch ∧ r.outcome = .complete ∧ r.effectiveAt = t ∧
    k ∈ knownOf (exec dateParse bytes none before) ∧
    (∀ q ∈ reads (log dateParse bytes (exec dateParse bytes none before) (first :: between)), k ∉ q.positives) ∧
    coverageGap ∉ log dateParse bytes (exec dateParse bytes none (before ++ [first])) between

lemma Witnessed.start
    (hr : (step dateParse bytes (exec dateParse bytes none past) last).2 = .accepted r) (hout : r.outcome = .complete)
    (hk : k ∈ knownOf (exec dateParse bytes none past)) (hpos : k ∉ r.positives) :
    Witnessed dateParse bytes (past ++ [last]) k r.effectiveAt (some r.epoch) := by
  refine ⟨past, last, [], r, rfl, hr, rfl, hout, rfl, hk, ?_, by simp⟩
  intro q hq
  simp only [log, LoggedRun.log_cons, LoggedRun.log_nil, mem_reads_singleton, hr, Answer.accepted.injEq] at hq
  exact hq ▸ hpos

lemma Witnessed.extend {t : Int} {epoch : Option String} (h : Witnessed dateParse bytes past k t epoch)
    (hgap : (step dateParse bytes (exec dateParse bytes none past) last).2 ≠ coverageGap)
    (hpos : ∀ r, (step dateParse bytes (exec dateParse bytes none past) last).2 = .accepted r → k ∉ r.positives) :
    Witnessed dateParse bytes (past ++ [last]) k t epoch := by
  obtain ⟨before, first, between, r, rfl, hr, hepoch, hout, ht, hk, hreads, hgaps⟩ := h
  refine ⟨before, first, between ++ [last], r, by simp, hr, hepoch, hout, ht, hk, ?_, ?_⟩
  · intro q hq
    rw [show first :: (between ++ [last]) = (first :: between) ++ [last] from rfl, log, LoggedRun.log_append,
      reads_append, mem_append] at hq
    obtain hq | hq := hq
    · exact hreads q hq
    · apply hpos
      simpa [LoggedRun.exec_append] using hq
  · rw [log, LoggedRun.log_append, mem_append, not_or]
    refine ⟨hgaps, ?_⟩
    simpa [LoggedRun.exec_append, eq_comm] using hgap

lemma active_witnessed (events : List Event) :
    ∀ g ∈ activeOf (exec dateParse bytes none events), ∀ k ∈ g.rowKeys,
      Witnessed dateParse bytes events k g.firstEffectiveAt (epochOf (exec dateParse bytes none events)) := by
  induction events using List.reverseRecOn with
  | nil => simp [activeOf]
  | append_singleton past last ih =>
    intro g hg k hk
    have hrow : AllConsistent (exec dateParse bytes none past) := exec_consistent past
    rw [exec, LoggedRun.exec_append, LoggedRun.exec_cons, LoggedRun.exec_nil] at hg ⊢
    have hmoved : Moved _ (step dateParse bytes (exec dateParse bytes none past) last) := step_moved _ last
    generalize hresult : step dateParse bytes (exec dateParse bytes none past) last = result at hg hmoved ⊢
    obtain ⟨base, s, input, r, hbase, hcons, rfl, hrec⟩ | ⟨hreads, -, -, ⟨hactive, hepoch, hgap⟩ | hactive⟩ :=
      hmoved.outcomes hrow
    · have hr := congrArg Prod.snd hresult
      have hepoch : epochOf (some s) = some r.epoch := by simp [epochOf, hrec.epoch, hrec.kept_epoch]
      obtain ⟨hpos, ⟨o, ho, hko, htime⟩ | ⟨hout, htime, hknown⟩⟩ := hrec.active_from hcons hg hk
      · obtain ⟨hactive, hepoch'⟩ | hactive := hbase.active
        · rw [hepoch, hrec.epoch, ← hepoch', ← htime]
          refine (ih o (hactive ▸ ho) k hko).extend ?_ ?_
          · rw [hr]
            nofun
          · intro q hq
            rw [hr, Answer.accepted.injEq] at hq
            exact hq ▸ hpos
        · rw [hactive] at ho
          cases ho
      · rw [hepoch, ← htime]
        exact .start hr hout (hbase.known hknown) hpos
    · rw [hepoch]
      refine (ih g (hactive ▸ hg) k hk).extend (hresult ▸ hgap) fun r hr => ?_
      exact absurd (mem_reads_singleton.mpr (hresult ▸ hr)) (by simp [hreads])
    · rw [hactive] at hg
      cases hg

lemma Moved.unknown (h : Moved row result)
    (hrow : AllConsistent row) (hk : k ∉ knownOf row) (hpos : ∀ q ∈ reads [result.2], k ∉ q.positives) :
    k ∉ knownOf result.1 ∧ ∀ q ∈ reads [result.2], k ∉ keysOf q.queued := by
  obtain ⟨base, s, input, r, hbase, hcons, rfl, hrec⟩ | ⟨hreads, -, hknown, -⟩ := h.outcomes hrow
  · simp only [mem_reads_singleton, Answer.accepted.injEq, forall_eq'] at hpos ⊢
    have hbase' : k ∉ knownKeys base := fun hb => hk (hbase.known hb)
    refine ⟨fun hs => ?_, fun hq => ?_⟩
    · obtain ⟨hfrom | hfrom, -⟩ := hrec.known_from k hs
      · exact hpos hfrom
      · exact hbase' hfrom
    · obtain ⟨-, -, g, hg, hkg, -⟩ := hrec.queued_only hcons hq
      exact hbase' (hcons.known (mem_keysOf.mpr ⟨g, hg, hkg⟩))
  · exact ⟨fun hs => hk (hknown hs), by simp [hreads]⟩

lemma Moved.queued_once (h : Moved row result) (hrow : AllConsistent row) (k : RowKey) :
    ((reads [result.2]).flatMap (keysOf ·.queued)).count k ≤ 1 ∧
      (k ∈ (reads [result.2]).flatMap (keysOf ·.queued) → k ∉ knownOf result.1) := by
  obtain ⟨base, s, input, r, -, hcons, rfl, hrec⟩ | ⟨hreads, -⟩ := h.outcomes hrow
  · have hreads : (reads [Answer.accepted r]).flatMap (keysOf ·.queued) = keysOf r.queued := by simp [reads]
    rw [hreads]
    refine ⟨List.nodup_iff_count_le_one.mp (hrec.queued_distinct hcons).of_append_left k, fun hq hs => ?_⟩
    exact (hrec.known_from k hs).2 hq
  · simp [hreads]

lemma reads_cons (answer : Answer) (answers : List Answer) : reads (answer :: answers) = reads [answer] ++ reads answers :=
  reads_append [answer] answers

lemma queued_at_most_once (hrow : AllConsistent row)
    (stretch : List Event) (hpos : ∀ q ∈ reads (log dateParse bytes row stretch), k ∉ q.positives) :
    (k ∉ knownOf row → k ∉ (reads (log dateParse bytes row stretch)).flatMap (keysOf ·.queued)) ∧
      ((reads (log dateParse bytes row stretch)).flatMap (keysOf ·.queued)).count k ≤ 1 := by
  induction stretch generalizing row with
  | nil => simp
  | cons event stretch ih =>
    rw [log, LoggedRun.log_cons, reads_cons] at hpos ⊢
    have hmoved : Moved row (step dateParse bytes row event) := step_moved row event
    obtain ⟨hnever, hrest⟩ := ih (hmoved.consistent hrow) fun q hq => hpos q (mem_append_right _ hq)
    obtain ⟨honce, hgone⟩ := hmoved.queued_once hrow k
    rw [flatMap_append, mem_append, not_or, count_append]
    refine ⟨fun hk => ?_, ?_⟩
    · obtain ⟨hunknown, hqueued⟩ := hmoved.unknown hrow hk fun q hq => hpos q (mem_append_left _ hq)
      exact ⟨by simpa using hqueued, hnever hunknown⟩
    · by_cases hnow : k ∈ (reads [(step dateParse bytes row event).2]).flatMap (keysOf ·.queued)
      · rw [List.count_eq_zero.mpr (hnever (hgone hnow))]
        exact honce
      · rw [List.count_eq_zero.mpr hnow, Nat.zero_add]
        exact hrest

end Histories

section Results

variable {dateParse : String → Option Int} {bytes : StoredBytes}

lemma moved_of_read {row : Option Source} {event : Event} {r : Read}
    (hr : (step dateParse bytes row event).2 = .accepted r) :
    Moved row ((step dateParse bytes row event).1, .accepted r) := by
  rw [← hr]
  exact step_moved row event

def sampleDate (text : String) : Option Int :=
  (["0", "1", "2", "3", "4"].idxOf? text).map fun n => (n : Int) * 600000

def sampleBytes : StoredBytes where
  snapshot _ := 0
  baseline _ _ := 0
  key _ := 0
  pendingMisses _ := 0

def sampleProducer : Producer := ⟨"epoch", "revision"⟩

def sampleSurroundings (withinBudget : Bool) : Surroundings where
  admittedAt := 3000000
  confirmedAt := 3000000
  prunedAt := 3000000
  generation := "generation"
  rowRelationships := none
  support _ := none
  snapshotSeen := false
  withinBudget := withinBudget
  inputRevision := 1
  revivals := []

def sampleCapture (sequence : Nat) (date digest : String) : Capture where
  producerEpoch := "epoch"
  snapshotId := date
  sequence := sequence
  capturedAt := date
  captureAgeAtSendMs := some 0
  expectedIntervalSeconds := 300
  contentDigest := digest

def sampleRead (sequence : Nat) (date digest : String) (rowKeys : List RowKey) (h : rowKeys.Nodup)
    (withinBudget : Bool) : Event :=
  .full sampleProducer { sampleCapture sequence date digest with content := ⟨.complete, rowKeys, h, nofun⟩ }
    (sampleSurroundings withinBudget)

def sampleConfirmation (sequence : Nat) (date digest baseSnapshotId : String) : Event :=
  .unchanged sampleProducer { sampleCapture sequence date digest with baseSnapshotId } (sampleSurroundings true)

def sampleMiss : List Event :=
  [sampleRead 1 "0" "both" ["7.1", "8.1"] (by decide) true, sampleRead 2 "1" "one" ["7.1"] (by decide) true]

def sampleMissRead (sequence : Nat) (t : Int) (queued : List PendingTopologyMiss) : Read where
  changed := false
  epoch := "epoch"
  sequence := sequence
  outcome := .complete
  effectiveAt := t
  positives := ["7.1"]
  pruned := []
  queued := queued

def sampleQueued (sequence : Nat) (t : Int) : PendingTopologyMiss where
  generation := "generation"
  firstSequence := 2
  firstEffectiveAt := 600000
  digest := "one"
  rowKeys := ["8.1"]
  qualifyingSequence := some sequence
  qualifyingEffectiveAt := some t
  inputRevision := some 1

variable (dateParse bytes) in

theorem withdrawals_sound (k : RowKey) :
    (∀ past last r, (step dateParse bytes (exec dateParse bytes none past) last).2 = .accepted r →
      k ∈ keysOf r.queued →
      ∃ before first between r₀, past = before ++ first :: between ∧
        (step dateParse bytes (exec dateParse bytes none before) first).2 = .accepted r₀ ∧ r₀.epoch = r.epoch ∧
        r₀.outcome = .complete ∧ r.outcome = .complete ∧ r₀.effectiveAt + 300000 ≤ r.effectiveAt ∧
        k ∈ knownOf (exec dateParse bytes none before) ∧
        (∀ q ∈ reads (log dateParse bytes (exec dateParse bytes none before) (first :: between ++ [last])),
          k ∉ q.positives) ∧
        coverageGap ∉ log dateParse bytes (exec dateParse bytes none (before ++ [first])) between) ∧
    (∀ past stretch, (∀ q ∈ reads (log dateParse bytes (exec dateParse bytes none past) stretch), k ∉ q.positives) →
      ((reads (log dateParse bytes (exec dateParse bytes none past) stretch)).flatMap (keysOf ·.queued)).count k ≤ 1) := by
  refine ⟨fun past last r hr hk => ?_, fun past stretch hpos => ?_⟩
  · obtain ⟨base, s, input, hbase, hcons, -, hrec⟩ := step_read (exec_consistent past) hr
    obtain ⟨hout, hpos, g, hg, hkg, htime⟩ := hrec.queued_only hcons hk
    obtain ⟨hactive, hepoch⟩ | hactive := hbase.active
    · obtain ⟨before, first, between, r₀, rfl, hr₀, hepoch₀, hout₀, ht₀, hknown, hreads, hgaps⟩ :=
        active_witnessed past g (hactive ▸ hg) k hkg
      refine ⟨before, first, between, r₀, rfl, hr₀, ?_, hout₀, hout, by omega, hknown, ?_, hgaps⟩
      · rw [hepoch, Option.some.injEq] at hepoch₀
        exact hepoch₀.trans hrec.epoch.symm
      · intro q hq
        rw [log, LoggedRun.log_append, reads_append, mem_append] at hq
        obtain hq | hq := hq
        · exact hreads q hq
        · rw [← LoggedRun.exec_append, LoggedRun.log_cons, LoggedRun.log_nil, mem_reads_singleton, hr,
            Answer.accepted.injEq] at hq
          exact hq ▸ hpos
    · rw [hactive] at hg
      cases hg
  · exact (queued_at_most_once (exec_consistent past) stretch hpos).2

theorem second_miss_sound :
    ∃ before first between r₀, sampleMiss = before ++ first :: between ∧
      (step sampleDate sampleBytes (exec sampleDate sampleBytes none before) first).2 = .accepted r₀ ∧
      r₀.outcome = .complete ∧ r₀.effectiveAt + 300000 ≤ 1200000 ∧
      "8.1" ∈ knownOf (exec sampleDate sampleBytes none before) := by
  obtain ⟨before, first, between, r₀, hpast, hr₀, -, hout, -, htime, hknown, -⟩ :=
    (withdrawals_sound sampleDate sampleBytes "8.1").1 sampleMiss (sampleConfirmation 3 "2" "one" "1")
      (sampleMissRead 3 1200000 [sampleQueued 3 1200000]) (by decide +kernel) (by decide +kernel)
  exact ⟨before, first, between, r₀, hpast, hr₀, hout, htime, hknown⟩

variable {base : Source} {result : Source × Answer} {stretch : List Event} {row : Option Source} {event : Event} {r : Read}
  {k : RowKey} {t : Int}

lemma Ingested.epoch (h : Ingested base result) : result.1.producerEpoch = base.producerEpoch := by
  cases h <;> rfl

/-- The key is in a streak that began by `t`; a fenced row reads nothing until its epoch ends. -/
def Tracked (row : Option Source) (k : RowKey) (t : Int) : Prop :=
  ∃ s, row = some s ∧ (s.revoked = true ∨ ∃ g ∈ s.pendingMisses.active, k ∈ g.rowKeys ∧ g.firstEffectiveAt ≤ t)

lemma Base.unchanged_epoch (hbase : Base row base) (hrow : row.isSome = true)
    (hepoch : some base.producerEpoch = epochOf row) : row = some base ∧ base.revoked = false := by
  cases hbase with
  | stored hstored hopen => exact ⟨hstored, hopen⟩
  | fresh hother _ _ _ =>
    obtain ⟨s, rfl⟩ := Option.isSome_iff_exists.mp hrow
    exact absurd (Option.some.inj hepoch.symm) (hother s rfl)

lemma Moved.tracked {result : Option Source × Answer} (h : Moved row result)
    (hrow : AllConsistent row) (htracked : Tracked row k t)
    (hepoch : epochOf result.1 = epochOf row) (hgap : result.2 ≠ coverageGap)
    (hpos : ∀ q ∈ reads [result.2], k ∉ q.positives) :
    (Tracked result.1 k t ∧
        ∀ r, result.2 = .accepted r → r.outcome = .complete → r.effectiveAt < t + 300000) ∨
      k ∈ (reads [result.2]).flatMap (keysOf ·.queued) := by
  obtain ⟨s, rfl, hs⟩ := htracked
  cases h with
  | idle hquiet =>
    refine .inl ⟨⟨s, rfl, hs⟩, ?_⟩
    rintro r rfl
    cases hquiet
  | @tended s₀ s' hrow' h =>
    cases hrow'
    refine .inl ⟨⟨s', rfl, ?_⟩, nofun⟩
    obtain ⟨hactive, hrevoked⟩ | ⟨-, hrevoked⟩ := h.active
    · rwa [hactive, hrevoked]
    · exact .inl hrevoked
  | @ingested base result hbase h =>
    obtain ⟨hstored, hopen⟩ := hbase.unchanged_epoch rfl ((congrArg some h.epoch).symm.trans hepoch)
    cases hstored
    obtain hrevoked | ⟨g, hg, hk, htime⟩ := hs
    · simp [hopen] at hrevoked
    have hcons := hrow _ rfl
    obtain ⟨r, input, hr, hrec⟩ | ⟨hsame, hquiet⟩ | rfl := h.outcomes hcons
    · simp only [hr, mem_reads_singleton, Answer.accepted.injEq, forall_eq'] at hpos
      have hpos' : k ∉ input.positiveKeys := hrec.positives ▸ hpos
      have hlater : g.firstSequence < input.sequence := hrec.sequence ▸ hrec.later g hg k hk
      obtain ⟨o, ho, hko, hfirst, hnot⟩ | hqueued := streak_advances hcons.streaks hg hk hpos' hlater
      · refine .inl ⟨⟨result.1, rfl, .inr ⟨o, hrec.active ▸ ho, hko, by omega⟩⟩, ?_⟩
        intro q hq hout
        rw [hr, Answer.accepted.injEq] at hq
        subst hq
        have := hnot _ hrec.time (hrec.outcome.trans hout)
        omega
      · right
        simp only [hr, reads, filterMap_cons, filterMap_nil, flatMap_cons, flatMap_nil,
          append_nil]
        rwa [hrec.queued]
    · refine .inl ⟨⟨result.1, rfl, .inr ⟨g, by rwa [hsame], hk, htime⟩⟩, fun r hr => ?_⟩
      rw [show result.2 = _ from hr] at hquiet
      cases hquiet
    · exact absurd rfl hgap

def SameEpoch (dateParse : String → Option Int) (bytes : StoredBytes) (row : Option Source) (stretch : List Event) :
    Prop :=
  ∀ es, es <+: stretch → epochOf (exec dateParse bytes row es) = epochOf row

lemma SameEpoch.tail (h : SameEpoch dateParse bytes row (event :: stretch)) :
    epochOf (step dateParse bytes row event).1 = epochOf row ∧
      SameEpoch dateParse bytes (step dateParse bytes row event).1 stretch := by
  have hhead : epochOf (step dateParse bytes row event).1 = epochOf row := by
    simpa using h [event] (by simp)
  refine ⟨hhead, fun es hes => ?_⟩
  rw [hhead]
  simpa using h (event :: es) (by simpa using hes)

lemma stretch_tracked (hrow : AllConsistent row)
    (htracked : Tracked row k t) (stretch : List Event) (hepoch : SameEpoch dateParse bytes row stretch)
    (hgap : coverageGap ∉ log dateParse bytes row stretch)
    (hpos : ∀ q ∈ reads (log dateParse bytes row stretch), k ∉ q.positives) :
    Tracked (exec dateParse bytes row stretch) k t ∨
      k ∈ (reads (log dateParse bytes row stretch)).flatMap (keysOf ·.queued) := by
  induction stretch generalizing row with
  | nil => exact .inl htracked
  | cons event stretch ih =>
    rw [log, LoggedRun.log_cons, reads_cons] at hpos ⊢
    rw [log, LoggedRun.log_cons, mem_cons, not_or] at hgap
    rw [flatMap_append, mem_append]
    have hmoved : Moved row (step dateParse bytes row event) := step_moved row event
    obtain ⟨hnow, -⟩ | hqueued := hmoved.tracked hrow htracked hepoch.tail.1 (Ne.symm hgap.1)
      fun q hq => hpos q (mem_append_left _ hq)
    · obtain hlater | hqueued := ih (hmoved.consistent hrow) hnow hepoch.tail.2 hgap.2
        fun q hq => hpos q (mem_append_right _ hq)
      · exact .inl hlater
      · exact .inr (.inr hqueued)
    · exact .inr (.inl hqueued)

def isFullRead (row : Option Source) : Event → Bool
  | .full _ snapshot _ => (row.bind (·.contentDigest)) != some snapshot.contentDigest
  | _ => false

lemma admitCurrent_changed {source : Source} {snapshot : Snapshot} {env : Surroundings}
    (h : source.contentDigest ≠ some snapshot.contentDigest)
    (hr : (admitCurrent dateParse bytes source snapshot env).2 = .accepted r) : r.changed = true := by
  unfold admitCurrent at hr
  dsimp only at hr
  split at hr
  · cases hr
  · split_ifs at hr with hdigest
    · exact absurd hdigest h
    · unfold admitChanged at hr
      dsimp only at hr
      split_ifs at hr <;> cases hr
      rfl

lemma isFullRead_changed (h : isFullRead row event = true)
    (hr : (step dateParse bytes row event).2 = .accepted r) : r.changed = true := by
  cases event with
  | full p snapshot env =>
    simp only [step] at hr
    split_ifs at hr
    unfold admitReport at hr
    dsimp only at hr
    split_ifs at hr
    · exact admitCurrent_changed (by simp [rebaseline]) hr
    · refine admitCurrent_changed ?_ hr
      cases row with
      | none => simp
      | some s => simpa [isFullRead] using h
  | _ => cases h

def Watched (row : Option Source) (event : Event) (k : RowKey) (t : Int) : Prop :=
  (∃ g ∈ activeOf row, k ∈ g.rowKeys ∧ g.firstEffectiveAt ≤ t) ∨
    (k ∉ keysOf (activeOf row) ∧ isFullRead row event = true)

instance (row : Option Source) (event : Event) (k : RowKey) (t : Int) : Decidable (Watched row event k t) :=
  inferInstanceAs (Decidable ((∃ g ∈ activeOf row, k ∈ g.rowKeys ∧ g.firstEffectiveAt ≤ t) ∨ _))

lemma sameEpoch_of_take
    (h : ∀ n ≤ stretch.length, epochOf (exec dateParse bytes row (stretch.take n)) = epochOf row) :
    SameEpoch dateParse bytes row stretch := by
  intro es hes
  have := h es.length hes.length_le
  rwa [← List.prefix_iff_eq_take.mp hes] at this

lemma first_tracked (hrow : AllConsistent row)
    (hr : (step dateParse bytes row event).2 = .accepted r) (hout : r.outcome = .complete) (hknown : k ∈ knownOf row)
    (hpos : k ∉ r.positives) (hpruned : k ∉ r.pruned) (hepoch : epochOf (step dateParse bytes row event).1 = epochOf row)
    (hwatched : Watched row event k r.effectiveAt) :
    Tracked (step dateParse bytes row event).1 k r.effectiveAt ∨ k ∈ keysOf r.queued := by
  obtain ⟨s, rfl⟩ : ∃ s, row = some s := by
    cases row with
    | none => cases hknown
    | some s => exact ⟨s, rfl⟩
  obtain ⟨g, hg, hk, htime⟩ | ⟨hfree, hfull⟩ := hwatched
  · have hmoved := moved_of_read hr
    obtain ⟨htracked, -⟩ | hqueued :=
      hmoved.tracked hrow ⟨s, rfl, .inr ⟨g, hg, hk, htime⟩⟩ hepoch (by simp [coverageGap]) (by simpa using hpos)
    · exact .inl htracked
    · exact .inr (by simpa [reads] using hqueued)
  · obtain ⟨base, s', input, hbase, hcons, hs', hrec⟩ := step_read hrow hr
    rw [hs'] at hepoch ⊢
    obtain ⟨⟨⟩, -⟩ := hbase.unchanged_epoch rfl ((congrArg some hrec.kept_epoch).symm.trans hepoch)
    obtain ⟨o, ho, hko, hfirst⟩ := streak_opens hcons.streaks hrec.time (hrec.outcome.trans hout)
      (hrec.previous_changed (isFullRead_changed hfull hr) k hknown hpruned) (hrec.positives ▸ hpos) hfree
    exact .inl ⟨s', rfl, .inr ⟨o, hrec.active ▸ ho, hko, by omega⟩⟩

theorem watched_misses_withdrawn {past between : List Event} {first last : Event} {k : RowKey} {r₁ r₂ : Read}
    (hr₁ : (step dateParse bytes (exec dateParse bytes none past) first).2 = .accepted r₁)
    (hr₂ : (step dateParse bytes (exec dateParse bytes none (past ++ first :: between)) last).2 = .accepted r₂)
    (hout₁ : r₁.outcome = .complete) (hout₂ : r₂.outcome = .complete)
    (hapart : r₁.effectiveAt + 300000 ≤ r₂.effectiveAt)
    (hknown : k ∈ knownOf (exec dateParse bytes none past))
    (hreads : ∀ q ∈ reads (log dateParse bytes (exec dateParse bytes none past) (first :: between ++ [last])),
      k ∉ q.positives ∧ k ∉ q.pruned)
    (hepoch : SameEpoch dateParse bytes (exec dateParse bytes none past) (first :: between ++ [last]))
    (hgap : coverageGap ∉ log dateParse bytes (exec dateParse bytes none (past ++ [first])) between)
    (hwatched : Watched (exec dateParse bytes none past) first k r₁.effectiveAt) :
    k ∈ (reads (log dateParse bytes (exec dateParse bytes none past) (first :: between ++ [last]))).flatMap
      (keysOf ·.queued) := by
  have hrow : AllConsistent (exec dateParse bytes none past) := exec_consistent past
  have hexec : ∀ es, exec dateParse bytes none (past ++ es) = exec dateParse bytes (exec dateParse bytes none past) es :=
    LoggedRun.exec_append _ none past
  rw [hexec] at hr₂ hgap
  generalize exec dateParse bytes none past = row at *
  have hlog : log dateParse bytes row (first :: between ++ [last]) =
      [(step dateParse bytes row first).2] ++ (log dateParse bytes (step dateParse bytes row first).1 between ++
        [(step dateParse bytes (exec dateParse bytes row (first :: between)) last).2]) := by
    simp [LoggedRun.log_append]
  rw [hlog, reads_append, reads_append] at hreads ⊢
  simp only [mem_append] at hreads
  simp only [flatMap_append, mem_append]
  have hfirst := hreads r₁ (.inl (mem_reads_singleton.mpr hr₁))
  obtain ⟨hepoch₁, hrest⟩ := SameEpoch.tail hepoch
  have hmoved : Moved row (step dateParse bytes row first) := step_moved row first
  have hrow₁ := hmoved.consistent hrow
  obtain htracked | hqueued := first_tracked hrow hr₁ hout₁ hknown hfirst.1 hfirst.2 hepoch₁ hwatched
  · have hbetween : SameEpoch dateParse bytes (step dateParse bytes row first).1 between :=
      fun es hes => hrest es (hes.trans (prefix_append _ _))
    obtain htracked | hqueued := stretch_tracked hrow₁ htracked between hbetween hgap
      fun q hq => (hreads q (.inr (.inl hq))).1
    · have hlast : epochOf (step dateParse bytes (exec dateParse bytes row (first :: between)) last).1 =
          epochOf (exec dateParse bytes row (first :: between)) := by
        rw [hepoch _ (prefix_append _ _)]
        simpa [LoggedRun.exec_append] using hepoch (first :: between ++ [last]) prefix_rfl
      have hrow₂ : AllConsistent (exec dateParse bytes row (first :: between)) :=
        LoggedRun.exec_preserves (fun r e h => (step_moved r e).consistent h) hrow₁ between
      obtain ⟨-, hsoon⟩ | hqueued := (moved_of_read hr₂).tracked hrow₂ htracked hlast (by simp [coverageGap])
        fun q hq => (hreads q (.inr (.inr (hr₂ ▸ hq)))).1
      · have := hsoon r₂ rfl hout₂
        omega
      · exact .inr (.inr (hr₂ ▸ hqueued))
    · exact .inr (.inl hqueued)
  · left
    rw [hr₁]
    simpa [reads] using hqueued

theorem second_confirmation_withdraws :
    "8.1" ∈ (reads (log sampleDate sampleBytes (exec sampleDate sampleBytes none sampleMiss)
      ([sampleConfirmation 3 "2" "one" "1"] ++ [sampleConfirmation 4 "3" "one" "1"]))).flatMap (keysOf ·.queued) :=
  @watched_misses_withdrawn sampleDate sampleBytes sampleMiss [] (sampleConfirmation 3 "2" "one" "1")
    (sampleConfirmation 4 "3" "one" "1") "8.1" (sampleMissRead 3 1200000 [sampleQueued 3 1200000])
    (sampleMissRead 4 1800000 []) (by decide +kernel) (by decide +kernel) rfl rfl (by decide) (by decide +kernel)
    (by decide +kernel) (sameEpoch_of_take (by decide +kernel)) (by decide +kernel) (by decide +kernel)

def sampleGap : List Event :=
  sampleMiss ++ [sampleRead 3 "2" "other" ["7.1", "9.1"] (by decide) false]

/-- After the gap two unchanged complete reads, ten minutes apart, leave the missing key where it is. -/
theorem gap_forgets_missing_key :
    ∃ (past between : List Event) (first last : Event) (k : RowKey) (r₁ r₂ : Read),
      (step sampleDate sampleBytes (exec sampleDate sampleBytes none past) first).2 = .accepted r₁ ∧
      (step sampleDate sampleBytes (exec sampleDate sampleBytes none (past ++ first :: between)) last).2 =
        .accepted r₂ ∧
      r₁.outcome = .complete ∧ r₂.outcome = .complete ∧ r₁.effectiveAt + 300000 ≤ r₂.effectiveAt ∧
      k ∈ knownOf (exec sampleDate sampleBytes none past) ∧
      (∀ q ∈ reads (log sampleDate sampleBytes (exec sampleDate sampleBytes none past) (first :: between ++ [last])),
        k ∉ q.positives ∧ k ∉ q.pruned) ∧
      SameEpoch sampleDate sampleBytes (exec sampleDate sampleBytes none past) (first :: between ++ [last]) ∧
      coverageGap ∉ log sampleDate sampleBytes (exec sampleDate sampleBytes none (past ++ [first])) between ∧
      k ∉ (reads (log sampleDate sampleBytes (exec sampleDate sampleBytes none past)
        (first :: between ++ [last]))).flatMap (keysOf ·.queued) := by
  refine ⟨sampleGap, [], sampleConfirmation 3 "3" "one" "1", sampleConfirmation 4 "4" "one" "1", "8.1",
    sampleMissRead 3 1800000 [], sampleMissRead 4 2400000 [], ?_, ?_, rfl, rfl, ?_, ?_, ?_, ?_, ?_, ?_⟩
  · decide +kernel
  · decide +kernel
  · decide
  · decide +kernel
  · decide +kernel
  · exact sameEpoch_of_take (by decide +kernel)
  · decide +kernel
  · decide +kernel

end Results

end Breeze.Topology.Withdrawal
