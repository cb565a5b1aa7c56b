import Breeze.Pam.CallSafety
import Breeze.Pam.Interleaving

/-! What one section of a call may do to the ledger, the flags and the unresolved set, whatever the other calls do between the
sections of this one. -/

namespace Breeze.Pam.Discipline

open Breeze.Lib.Stateful Breeze.Lib.Sections Ledger Manager Durability Interleaving
open CallSafety (Calm replace_ok)

section Ledger

def cover (e : LedgerEntry) : ℕ := if e.desiredState = .active then e.generation.toNat + 1 else e.generation.toNat

def Covered (s : Store) (key : String) (generation : UInt64) : Prop :=
  ∃ e, s.entries.lookup key = some e ∧ generation.toNat ≤ cover e

def Vacant (s : Store) : Prop := ∀ k, s.entries.lookup k = none

structure Grows (s s' : Store) : Prop where
  loadErr : s'.loadErr = s.loadErr
  keyed : Keyed s.entries → Keyed s'.entries
  entries : ∀ k e, s.entries.lookup k = some e → ∃ e', s'.entries.lookup k = some e' ∧ cover e ≤ cover e'

structure Cleanable (uuidParse : String → Bool) (e : LedgerEntry) : Prop where
  ids : [e.actuationID, e.requestID, e.deviceID, e.orgID].all uuidParse = true
  fits : e.desiredState = .active → e.generation.toNat + 1 < 2 ^ 64
  whole : hasAnyProcessIdentity e = true → hasCompleteProcessIdentity e = true

structure Fine (uuidParse : String → Bool) (sound : Prop) (entries : Entries) : Prop where
  keyed : Keyed entries
  cleanable : sound → ∀ k e, entries.lookup k = some e → Cleanable uuidParse e

structure Records (uuidParse : String → Bool) (sound : Prop) (m : LifecycleManager) : Prop where
  memory : Fine uuidParse sound m.store.entries
  written : ∀ entries, Event.wrote entries ∈ m.trace → Fine uuidParse sound entries

variable {s s' s'' : Store}

lemma Grows.refl (s : Store) : Grows s s := ⟨rfl, fun h => h, fun _ e he => ⟨e, he, le_rfl⟩⟩

lemma Grows.trans (h : Grows s s') (h' : Grows s' s'') : Grows s s'' := by
  refine ⟨h'.loadErr.trans h.loadErr, fun hk => h'.keyed (h.keyed hk), fun k e he => ?_⟩
  obtain ⟨e', he', hc'⟩ := h.entries k e he
  obtain ⟨e'', he'', hc''⟩ := h'.entries k e' he'
  exact ⟨e'', he'', hc'.trans hc''⟩

lemma Grows.same (hl : s'.loadErr = s.loadErr) (hs : ∀ k, s'.entries.lookup k = s.entries.lookup k) : Grows s s' :=
  ⟨hl, fun h => h.of_lookup hs, fun k e he => ⟨e, (hs k).trans he, le_rfl⟩⟩

variable {generation : UInt64} {cmd : ApplyCommand}

lemma Covered.grows {key : String} (h : Covered s key generation) (hg : Grows s s') : Covered s' key generation := by
  obtain ⟨e, he, hc⟩ := h
  obtain ⟨e', he', hc'⟩ := hg.entries key e he
  exact ⟨e', he', hc.trans hc'⟩

/-- What a call on the store does: only the entry of the key may change, and sound input leaves it cleanable. -/
structure Revises (uuidParse : String → Bool) (sound : Prop) (key : String) (s s' : Store) (writes : List Entries) : Prop where
  grows : Grows s s'
  others : ∀ k, k ≠ key → s'.entries.lookup k = s.entries.lookup k
  memory : ∀ before after : Prop, (after → before ∧ sound) → Fine uuidParse before s.entries → Fine uuidParse after s'.entries
  written : ∀ before after : Prop, (after → before ∧ sound) → Fine uuidParse before s.entries →
    ∀ entries ∈ writes, Fine uuidParse after entries

variable {uuidParse : String → Bool} {applyDigest : ApplyCommand → Except String String} {α : Type} {a : PersistAnswers}
  {now : Time} {key : String} {sound before after : Prop} {entries entries' : Entries}

section

variable (h : Fine uuidParse before entries) (hi : after → before)

include h hi

lemma Fine.weaken : Fine uuidParse after entries :=
  ⟨h.keyed, fun ha => h.cleanable (hi ha)⟩

lemma Fine.of_lookup
    (hl : ∀ k, entries'.lookup k = entries.lookup k) : Fine uuidParse after entries' :=
  ⟨h.keyed.of_lookup hl, fun ha k e he => h.cleanable (hi ha) k e ((hl k).symm.trans he)⟩

lemma Fine.insert {e : LedgerEntry} (hkey : e.actuationID = key)
    (he : after → Cleanable uuidParse e) : Fine uuidParse after (entries.insert key e) := by
  refine ⟨h.keyed.insert hkey, fun ha k e' hk => ?_⟩
  by_cases hkey : k = key
  · subst hkey
    rw [AList.lookup_insert] at hk
    cases hk
    exact he ha
  · rw [AList.lookup_insert_ne hkey] at hk
    exact h.cleanable (hi ha) k e' hk

end

lemma revises_same : Revises uuidParse sound key s s [] :=
  ⟨Grows.refl s, fun _ _ => rfl, fun _ _ hi h => h.weaken fun ha => (hi ha).1, nofun⟩

lemma revises_replaceLocked {next : LedgerEntry} {done : α}
    (hcover : ∀ p, s.entries.lookup key = some p → cover p ≤ cover next)
    (hkey : Keyed s.entries → next.actuationID = key)
    (hnext : sound → (∀ k e, s.entries.lookup k = some e → Cleanable uuidParse e) → Cleanable uuidParse next) :
    Revises uuidParse sound key s (replaceLocked s a key next done).store (replaceLocked s a key next done).writes := by
  have hinsert (before after : Prop) (hi : after → before ∧ sound) (h : Fine uuidParse before s.entries) :
      Fine uuidParse after (s.entries.insert key next) :=
    h.insert (fun ha => (hi ha).1) (hkey h.keyed) fun ha => hnext (hi ha).2 (h.cleanable (hi ha).1)
  have hwritten (before after : Prop) (hi : after → before ∧ sound) (h : Fine uuidParse before s.entries) :
      ∀ entries ∈ [s.entries.insert key next], Fine uuidParse after entries := by
    intro entries hmem
    rw [List.mem_singleton.mp hmem]
    exact hinsert before after hi h
  have hreplaced := replaceLocked_replaced s a key next done
  generalize replaceLocked s a key next done = o at hreplaced ⊢
  cases hreplaced with
  | unwritten hv hw hl hs =>
    rw [hw]
    exact ⟨Grows.same hl hs, fun k _ => hs k, fun _ _ hi h => h.of_lookup (fun ha => (hi ha).1) hs, nofun⟩
  | rolledBack hv hw hl hs hc =>
    rw [hw]
    exact ⟨Grows.same hl hs, fun k _ => hs k, fun _ _ hi h => h.of_lookup (fun ha => (hi ha).1) hs, hwritten⟩
  | changed =>
    refine ⟨⟨rfl, fun h => h.insert (hkey h), fun k e he => ?_⟩, fun k hk => AList.lookup_insert_ne hk, hinsert, hwritten⟩
    by_cases hk : k = key
    · subst hk
      exact ⟨next, AList.lookup_insert _, hcover e he⟩
    · exact ⟨e, (AList.lookup_insert_ne hk).trans he, le_rfl⟩

lemma ids_of_validateIdentity {protocol : ℤ} {values : List String} (h : validateIdentity uuidParse protocol values = none) :
    values.all uuidParse = true := by
  simp only [validateIdentity] at h
  split_ifs at h with h₁ h₂
  exact h₂

lemma ids_of_validateApply (h : validateApply uuidParse now cmd = none) :
    [cmd.actuationID, cmd.requestID, cmd.deviceID, cmd.orgID].all uuidParse = true := by
  simp only [validateApply] at h
  cases hv : validateIdentity uuidParse cmd.protocolVersion [cmd.actuationID, cmd.requestID, cmd.deviceID, cmd.orgID] with
  | some e => simp [hv] at h
  | none => exact ids_of_validateIdentity hv

variable {o : Outcome Decision} {u : Outcome Unit} {state : DesiredState} {next : LedgerEntry → LedgerEntry}

lemma revises_prepareApply (ho : PrepareApplyCases uuidParse s a now cmd o) :
    Revises uuidParse (cmd.generation.toNat + 1 < 2 ^ 64) cmd.actuationID s o.store o.writes := by
  cases ho with
  | refused e | duplicate => exact revises_same
  | recorded digest hl he hv =>
    refine revises_replaceLocked (fun p hp => ?_) (fun _ => rfl) fun hgen _ => ⟨ids_of_validateApply hv, fun _ => hgen, nofun⟩
    rw [he] at hp
    cases hp

lemma tombstone_cleanable {cmd : CleanupCommand} {previous : Option LedgerEntry}
    (hids : [cmd.actuationID, cmd.requestID, cmd.deviceID, cmd.orgID].all uuidParse = true)
    (hp : ∀ p, previous = some p → Cleanable uuidParse p) : Cleanable uuidParse (tombstone cmd previous now) := by
  refine ⟨hids, nofun, ?_⟩
  cases previous with
  | none => exact nofun
  | some p => exact (hp p rfl).whole

lemma revises_prepareCleanup {cmd : CleanupCommand} (ho : PrepareCleanupCases uuidParse s a now cmd o) :
    Revises uuidParse True cmd.actuationID s o.store o.writes := by
  cases ho with
  | refused e | duplicate => exact revises_same
  | recorded hl hv hp =>
    refine revises_replaceLocked (fun p hpp => ?_) (fun _ => rfl) fun _ h =>
      tombstone_cleanable (ids_of_validateIdentity hv) fun p hpp => h _ p hpp
    have hlt : p.generation.toNat < cmd.generation.toNat := (hp p hpp).1
    have hp : cover p ≤ p.generation.toNat + 1 := by
      unfold cover
      split_ifs <;> omega
    exact hp.trans hlt

lemma revises_replace (hu : ReplaceCases s a key state generation next u) (hid : ∀ e, (next e).actuationID = e.actuationID)
    (hcover : ∀ e, cover (next e) = cover e) (hnext : sound → ∀ e, Cleanable uuidParse e → Cleanable uuidParse (next e)) :
    Revises uuidParse sound key s u.store u.writes := by
  cases hu with
  | refused e => exact revises_same
  | recorded entry hl he =>
    refine revises_replaceLocked (fun p hp => ?_) (fun hk => (hid entry).trans (hk key entry he)) fun hs h =>
      hnext hs entry (h key entry he)
    rw [he] at hp
    cases hp
    exact (hcover entry).ge

lemma revises_bindProcess {process : ProcessIdentity} (hjob : process.jobName ≠ "") (hboot : process.bootID ≠ "") :
    Revises uuidParse (0 < process.pid) key s (bindProcess s a now key generation process).store
      (bindProcess s a now key generation process).writes :=
  revises_replace (bindProcess_cases key generation process) (fun _ => rfl) (fun _ => rfl) fun hpid _ h =>
    ⟨h.ids, h.fits, fun _ => by simp [hasCompleteProcessIdentity, boundEntry, hpid, hjob, hboot]⟩

lemma revises_clearProcessIdentity : Revises uuidParse True key s (clearProcessIdentity s a now key generation).store
      (clearProcessIdentity s a now key generation).writes :=
  revises_replace (clearProcessIdentity_cases key generation) (fun _ => rfl) (fun _ => rfl) fun _ _ h => ⟨h.ids, h.fits, nofun⟩

end Ledger

section Flags

structure Flags where
  enabled : Bool
  admissionOpen : Bool
  available : Bool
  unresolved : AList (fun _ : String => UInt64)

def flags (m : LifecycleManager) : Flags := ⟨m.enabled, m.admissionOpen, m.available, m.unresolved⟩

lemma flags_eq {m m' : LifecycleManager} (h : flags m' = flags m) :
    m'.admissionOpen = m.admissionOpen ∧ m'.available = m.available ∧ m'.unresolved = m.unresolved :=
  ⟨congrArg Flags.admissionOpen h, congrArg Flags.available h, congrArg Flags.unresolved h⟩

structure Still (m m' : LifecycleManager) : Prop where
  flags : flags m' = flags m
  store : m'.store = m.store
  written : ∀ entries, Event.wrote entries ∈ m'.trace → Event.wrote entries ∈ m.trace

def Quiet {α : Type} (x : Op α) : Prop := ∀ m, Still m (x.run m).2

variable {α β : Type} {m m' : LifecycleManager}

lemma Still.refl (m : LifecycleManager) : Still m m := ⟨rfl, rfl, fun _ h => h⟩

lemma Quiet.pure (a : α) : Quiet (pure a) := Still.refl

lemma Quiet.get : Quiet get := Still.refl

lemma Still.log {e : Event} (h : Still m m') (he : ∀ entries, e ≠ .wrote entries) :
    Still m { m' with trace := m'.trace ++ [e] } := by
  refine ⟨h.flags, h.store, fun entries hw => ?_⟩
  rcases List.mem_append.mp hw with hw | hw
  · exact h.written entries hw
  · exact absurd (List.mem_singleton.mp hw).symm (he entries)

lemma calm_still (m : LifecycleManager) : Calm (Still m) where
  held _ _ _ h := ⟨h.flags, h.store, h.written⟩
  silent _ e he h := h.log fun entries hw => by
    rw [hw] at he
    exact he

lemma Quiet.of_calm {x : Op α} (h : ∀ m, Triple (Still m) x fun _ => Still m) : Quiet x := fun m => h m m (Still.refl m)

lemma quiet_emit (result : Result) : Quiet (emit result) := Quiet.of_calm fun m => (calm_still m).emit result

lemma quiet_endJob (ans : CleanupAnswers) (entry : LedgerEntry) (bootID : String) (ownsJob : Bool) :
    Quiet (endJob ans entry bootID ownsJob) :=
  Quiet.of_calm fun m => (calm_still m).endJob ans entry bootID (fun _ => Triple.modify fun _ h => h.log nofun) ownsJob

lemma quiet_retireAccount (ans : CleanupAnswers) : Quiet (retireAccount ans) :=
  Quiet.of_calm fun m => (calm_still m).retireAccount ans

lemma quiet_verifyAccountClean (ans : AccountAnswers) (evidence : ResultEvidence) : Quiet (verifyAccountClean ans evidence) :=
  Quiet.of_calm fun m => (calm_still m).verifyAccountClean ans evidence

end Flags

section Work

structure Works (uuidParse : String → Bool) (sound : Prop) (m m' : LifecycleManager) : Prop where
  flags : flags m' = flags m
  grows : Grows m.store m'.store
  records : ∀ before after : Prop, (after → before ∧ sound) → Records uuidParse before m → Records uuidParse after m'

def Does {α : Type} (uuidParse : String → Bool) (x : Op α) (Q : α → Prop) : Prop :=
  ∀ m, Works uuidParse True m (x.run m).2 ∧ Q (x.run m).1

variable {α β : Type} {uuidParse : String → Bool} {sound : Prop} {m m' m'' : LifecycleManager} {Q : α → Prop} {R : β → Prop}

lemma Records.same {before after : Prop} (h : Records uuidParse before m) (hi : after → before) (hstore : m'.store = m.store)
    (hwritten : ∀ entries, Event.wrote entries ∈ m'.trace → Event.wrote entries ∈ m.trace) : Records uuidParse after m' := by
  refine ⟨?_, fun entries he => (h.written entries (hwritten entries he)).weaken hi⟩
  rw [hstore]
  exact h.memory.weaken hi

lemma Still.works (h : Still m m') : Works uuidParse sound m m' :=
  ⟨h.flags, h.store ▸ Grows.refl _, fun _ _ hi hr => hr.same (fun ha => (hi ha).1) h.store h.written⟩

lemma Works.trans (h : Works uuidParse sound m m') (h' : Works uuidParse sound m' m'') : Works uuidParse sound m m'' :=
  ⟨h'.flags.trans h.flags, h.grows.trans h'.grows, fun before after hi hr =>
    h'.records after after (fun ha => ⟨ha, (hi ha).2⟩) (h.records before after hi hr)⟩

variable {key : String} {f : Store → Outcome α} {x : Op α}

lemma works_onStore (hf : Revises uuidParse sound key m.store (f m.store).store (f m.store).writes) :
    Works uuidParse sound m ((onStore f).run m).2 := by
  refine ⟨rfl, hf.grows, fun before after hi hr => ⟨hf.memory before after hi hr.memory, fun entries he => ?_⟩⟩
  rcases List.mem_append.mp he with he | he
  · exact (hr.written entries he).weaken fun ha => (hi ha).1
  · obtain ⟨w, hw, hwe⟩ := List.mem_map.mp he
    cases hwe
    exact hf.written before after hi hr.memory entries hw

lemma Does.pure {a : α} (h : Q a) : Does uuidParse (pure a) Q := fun m => ⟨(Still.refl m).works, h⟩

lemma Does.bind {f : α → Op β} (hx : Does uuidParse x Q) (hf : ∀ a, Q a → Does uuidParse (f a) R) :
    Does uuidParse (x >>= f) R :=
  fun m => ⟨(hx m).1.trans (hf _ (hx m).2 _).1, (hf _ (hx m).2 _).2⟩

lemma Quiet.does (h : Quiet x) : Does uuidParse x fun _ => True := fun m => ⟨(h m).works, trivial⟩

lemma does_onStore
    (hf : ∀ s, Revises uuidParse True key s (f s).store (f s).writes) : Does uuidParse (onStore f) fun _ => True :=
  fun m => ⟨works_onStore (hf m.store), trivial⟩

lemma does_proveClean (ans : CleanupAnswers) (cmd : CleanupCommand) (bootID : String) (entry : LedgerEntry) :
    Does uuidParse (proveClean ans cmd bootID entry) fun result => result.generation = cmd.generation := by
  refine Quiet.get.does.bind fun m _ => (quiet_endJob ans entry bootID _).does.bind fun r _ => ?_
  rcases r with code | jobObjectAbsent
  · exact Does.pure rfl
  · refine (quiet_retireAccount ans).does.bind fun r _ => ?_
    rcases r with code | verified
    · exact Does.pure rfl
    · refine (does_onStore fun _ => revises_clearProcessIdentity).bind fun r _ => ?_
      rcases r with e | u
      · exact Does.pure rfl
      · refine Does.bind (quiet_emit _).does fun _ _ => Does.bind (Quiet.does fun m => ?_) fun _ _ => Does.pure rfl
        exact ⟨rfl, rfl, fun _ h => h⟩

lemma does_cleanupLocked (ans : CleanupAnswers) (cmd : CleanupCommand) :
    Does uuidParse (cleanupLocked uuidParse ans cmd) fun result => result.generation = cmd.generation := by
  simp only [cleanupLocked]
  cases currentBootID ans.bootID with
  | error bootID => exact Does.pure rfl
  | ok bootID =>
    refine (does_onStore fun _ => revises_prepareCleanup (prepareCleanup_cases cmd)).bind fun r _ => ?_
    rcases r with e | u
    · exact Does.pure rfl
    · refine Quiet.get.does.bind fun m _ => ?_
      cases m.store.entries.lookup cmd.actuationID with
      | none => exact Does.pure rfl
      | some entry => exact does_proveClean ans cmd bootID entry

end Work

section Contract

def Gated : Label → Prop
  | .admission | .enableRead | .openAdmission | .enabled => True
  | _ => False

def Adds : Label → Prop
  | .prepared _ | .cleaned _ => True
  | _ => False

def SoundInput : Label → Prop
  | .prepared cmd => cmd.generation.toNat + 1 < 2 ^ 64
  | .bound process => 0 < process.pid
  | _ => True

def Due (s : Store) (key : String) (generation : UInt64) : Prop :=
  s.loadErr.isSome ∨ Covered s key generation ∨ (key = "__account__" ∧ Vacant s)

def Honest (m : LifecycleManager) : Prop := m.available = true → m.unresolved.keys = []

structure Guar (uuidParse : String → Bool) (inside : Bool) (label : Label) (m m' : LifecycleManager) : Prop where
  gate : Gated label → inside = true
  outside : inside = false → m'.store = m.store
  grows : Grows m.store m'.store
  records : ∀ before after : Prop, (after → before ∧ SoundInput label) → Records uuidParse before m → Records uuidParse after m'
  vacant : ¬ Adds label → Vacant m.store → Vacant m'.store
  honest : Honest m → Honest m'
  shut : label ≠ .openAdmission → m'.admissionOpen = true → m.admissionOpen = true
  marks : ∀ origin key generation, label = .marked origin key generation →
    m'.admissionOpen = false ∧ (origin = .other → Due m.store key generation)
  unresolved : ∀ key generation, m'.unresolved.lookup key = some generation →
    m.unresolved.lookup key = some generation ∨ ∃ origin, label = .marked origin key generation

def Rely (inside : Bool) (m m' : LifecycleManager) : Prop := Grows m.store m'.store ∧ (inside = true → m'.store = m.store)

lemma contract (uuidParse : String → Bool) : Contract Rely (Guar uuidParse) where
  refl _ m := ⟨Grows.refl m.store, fun _ => rfl⟩
  trans _ _ _ _ h h' := ⟨h.1.trans h'.1, fun hb => (h'.2 hb).trans (h.2 hb)⟩
  free _ _ _ _ h := ⟨h.grows, nofun⟩
  gated _ _ _ h := ⟨h.grows, fun _ => h.outside rfl⟩

variable {α β : Type} {uuidParse : String → Bool} {applyDigest : ApplyCommand → Except String String} {inside : Bool}
  {label : Label} {m m' : LifecycleManager}

lemma Works.guar {sound : Prop} (h : Works uuidParse sound m m') (hgate : Gated label → inside = true)
    (houtside : inside = false → m'.store = m.store) (hsound : SoundInput label → sound)
    (hvacant : ¬ Adds label → Vacant m.store → Vacant m'.store)
    (hmark : ∀ origin key generation, label ≠ .marked origin key generation) : Guar uuidParse inside label m m' := by
  obtain ⟨hadm, havail, hunres⟩ := flags_eq h.flags
  exact {
    gate := hgate
    outside := houtside
    grows := h.grows
    records := fun before after hi => h.records before after fun ha => ⟨(hi ha).1, hsound (hi ha).2⟩
    vacant := hvacant
    honest := fun hh ha => hunres ▸ hh (havail ▸ ha)
    shut := fun _ ha => hadm ▸ ha
    marks := fun o k g hl => absurd hl (hmark o k g)
    unresolved := fun k g hu => Or.inl (hunres ▸ hu) }

lemma Still.guar (h : Still m m') (hgate : Gated label → inside = true)
    (hmark : ∀ origin key generation, label ≠ .marked origin key generation) : Guar uuidParse inside label m m' :=
  (h.works : Works uuidParse (SoundInput label) m m').guar hgate (fun _ => h.store) (fun h => h) (fun _ hv => h.store ▸ hv) hmark

lemma guar_flags (hstore : m'.store = m.store) (htrace : m'.trace = m.trace) (hhonest : Honest m → Honest m')
    (hshut : m'.admissionOpen = true → m.admissionOpen = true)
    (hunres : ∀ key generation, m'.unresolved.lookup key = some generation → m.unresolved.lookup key = some generation) :
    Guar uuidParse inside .other m m' where
  gate := False.elim
  outside _ := hstore
  grows := hstore ▸ Grows.refl _
  records _ _ hi h := h.same (fun ha => (hi ha).1) hstore fun _ he => htrace ▸ he
  vacant _ h := hstore ▸ h
  honest := hhonest
  shut _ := hshut
  marks := nofun
  unresolved k g h := Or.inl (hunres k g h)

end Contract

section Unresolved

variable {m : LifecycleManager} {key k : String} {generation g : UInt64}

lemma unresolved_of_mark (h : ((markUnresolved key generation).run m).2.unresolved.lookup k = some g) :
    m.unresolved.lookup k = some g ∨ (k = key ∧ g = generation) := by
  have hor : ((markUnresolved key generation).run m).2.unresolved = m.unresolved.insert key generation ∨
      ((markUnresolved key generation).run m).2.unresolved = m.unresolved := ite_eq_or_eq _ _ _
  rcases hor with hor | hor
  · rw [hor] at h
    by_cases hk : k = key
    · subst hk
      rw [AList.lookup_insert] at h
      cases h
      exact Or.inr ⟨rfl, rfl⟩
    · rw [AList.lookup_insert_ne hk] at h
      exact Or.inl h
  · exact Or.inl (hor ▸ h)

variable {unresolved : AList fun _ : String => UInt64}

lemma unresolved_of_erase (h : (unresolved.erase key).lookup k = some g) : unresolved.lookup k = some g := by
  by_cases hk : k = key
  · subst hk
    rw [AList.lookup_erase] at h
    cases h
  · rwa [AList.lookup_erase_ne hk] at h

lemma clearThrough_unresolved (key : String) (generation : UInt64) :
    ((clearUnresolvedThrough key generation).run m).2.unresolved = m.unresolved.erase key ∨
      ((clearUnresolvedThrough key generation).run m).2.unresolved = m.unresolved := ite_eq_or_eq _ _ _

lemma unresolved_of_clearThrough (h : ((clearUnresolvedThrough key generation).run m).2.unresolved.lookup k = some g) :
    m.unresolved.lookup k = some g := by
  rcases clearThrough_unresolved (m := m) key generation with hor | hor
  · exact unresolved_of_erase (hor ▸ h)
  · exact hor ▸ h

lemma keys_erase_nil (h : unresolved.keys = []) : (unresolved.erase key).keys = [] := by
  rw [AList.keys_erase, h]
  rfl

lemma honest_clearThrough (h : Honest m) : Honest ((clearUnresolvedThrough key generation).run m).2 := by
  intro havail
  rcases Bool.or_eq_true_iff.mp havail with hm | hempty
  · rcases clearThrough_unresolved (m := m) key generation with hor | hor
    · rw [hor]
      exact keys_erase_nil (h hm)
    · rw [hor]
      exact h hm
  · exact List.isEmpty_iff.mp hempty

lemma honest_clear (h : Honest m) : Honest ((clearUnresolved key).run m).2 := by
  intro havail
  rcases Bool.or_eq_true_iff.mp havail with hm | hempty
  · exact keys_erase_nil (h hm)
  · exact List.isEmpty_iff.mp hempty

end Unresolved

section Obeys

def NeverOpens {α : Type} (p : Prog α) : Prop :=
  ∀ m, Safe (fun _ _ => True) (fun label _ _ => label ≠ .openAdmission) (fun _ _ => True) p m

/-- From a ledger with `P`, every section of the program keeps to the contract, and the ledger ends with `Q`. A program that is
`closed` never opens admission. -/
structure Obeys {α : Type} (uuidParse : String → Bool) (closed inside : Bool) (P : Store → Prop) (p : Prog α)
    (Q : α → Store → Prop) : Prop where
  safe : ∀ m, P m.store → Safe (Rely inside) (Guar uuidParse inside) (fun a m' => Q a m'.store) p m
  opens : closed = true → NeverOpens p

abbrev Runs {α : Type} (uuidParse : String → Bool) (closed inside : Bool) (P : Store → Prop) (p : Prog α) : Prop :=
  Obeys uuidParse closed inside P p fun _ _ => True

def Stable (inside : Bool) (P : Store → Prop) : Prop := ∀ s s', Grows s s' → (inside = true → s' = s) → P s → P s'

variable {α β : Type} {uuidParse : String → Bool} {applyDigest : ApplyCommand → Except String String} {inside : Bool}
  {closed : Bool} {label : Label} {P P' F : Store → Prop} {Q Q' : α → Store → Prop} {R : β → Store → Prop}

lemma stable_inside : Stable true P := fun _ _ _ heq h => heq rfl ▸ h

lemma stable_true : Stable inside fun _ => True := fun _ _ _ _ _ => trivial

lemma Obeys.pure {a : α} (hP : Stable inside P) (h : ∀ s, P s → Q a s) : Obeys uuidParse closed inside P (pure a) Q :=
  ⟨fun _ hm => Safe.pure fun _ hr => h _ (hP _ _ hr.1 hr.2 hm), fun _ _ => Safe.pure fun _ _ => trivial⟩

lemma Obeys.keep {a : α} : Obeys uuidParse closed true P (Pure.pure a) fun _ => P := Obeys.pure stable_inside fun _ h => h

variable {p : Prog α} {x : Op α} {origin : Origin} {key id bootID : String} {generation : UInt64} {a : PersistAnswers}
  {now : Time} {process : ProcessIdentity} {entries : List LedgerEntry} {entry : LedgerEntry}

lemma Obeys.bind {f : α → Prog β} (hp : Obeys uuidParse closed inside P p Q)
    (hf : ∀ a, Obeys uuidParse closed inside (Q a) (f a) R) : Obeys uuidParse closed inside P (p >>= f) R :=
  ⟨fun m hm => Safe.bind ((contract uuidParse).refl inside) (hp.safe m hm) fun a => (hf a).safe,
    fun hc m => Safe.bind (fun _ => trivial) (hp.opens hc m) fun a s _ => (hf a).opens hc s⟩

lemma Obeys.weaken (h : Obeys uuidParse closed inside P p Q) (hP : ∀ s, P' s → P s) (hQ : ∀ a s, Q a s → Q' a s) :
    Obeys uuidParse closed inside P' p Q' :=
  ⟨fun m hm => (h.safe m (hP _ hm)).weaken fun a m' => hQ a m'.store, h.opens⟩

lemma Obeys.ends (h : Obeys uuidParse closed inside P p Q) : Runs uuidParse closed inside P p :=
  h.weaken (fun _ h => h) fun _ _ _ => trivial

lemma Obeys.frame (hF : ∀ s s', Grows s s' → F s → F s') (h : Obeys uuidParse closed inside P p Q) :
    Obeys uuidParse closed inside (fun s => P s ∧ F s) p fun a s => Q a s ∧ F s :=
  ⟨fun m hm => (h.safe m hm.1).frame (F := fun m => F m.store) (fun _ _ hr => hF _ _ hr.1) (fun _ _ _ hg => hF _ _ hg.grows) hm.2,
    h.opens⟩

lemma Obeys.sec (hP : Stable inside P) (hQ : ∀ a, Stable inside (Q a)) (hopen : closed = true → label ≠ .openAdmission)
    (h : ∀ m, P m.store → Guar uuidParse inside label m (x.run m).2 ∧ Q (x.run m).1 (x.run m).2.store) :
    Obeys uuidParse closed inside P (sec label x) Q := by
  refine ⟨fun m hm => Safe.lift fun m' hr => ?_, fun hc _ => Safe.lift fun _ _ => ⟨hopen hc, fun _ _ => trivial⟩⟩
  obtain ⟨hguar, hq⟩ := h m' (hP _ _ hr.1 hr.2 hm)
  exact ⟨hguar, fun m'' hr' => hQ _ _ _ hr'.1 hr'.2 hq⟩

lemma obeys_quiet (label : Label) (hgate : Gated label → inside = true)
    (hmark : ∀ origin key generation, label ≠ .marked origin key generation) (hopen : label ≠ .openAdmission)
    (hP : Stable inside P) (hx : Quiet x) : Obeys uuidParse closed inside P (sec label x) fun _ => P :=
  Obeys.sec hP (fun _ => hP) (fun _ => hopen) fun m hm => ⟨(hx m).guar hgate hmark, (hx m).store ▸ hm⟩

section

variable (hP : Stable inside P)

include hP

lemma obeys_other (hx : Quiet x) : Obeys uuidParse closed inside P (sec .other x) fun _ => P :=
  obeys_quiet .other nofun nofun nofun hP hx

lemma obeys_mark (hdue : origin = .other → ∀ s, P s → Due s key generation) :
    Obeys uuidParse closed inside P (mark origin key generation) fun _ => P := by
  refine Obeys.sec hP (fun _ => hP) nofun fun m hm => ⟨?_, hm⟩
  exact {
    gate := False.elim
    outside := fun _ => rfl
    grows := Grows.refl _
    records := fun _ _ hi h => h.same (fun ha => (hi ha).1) rfl fun _ he => he
    vacant := fun _ h => h
    honest := fun _ => nofun
    shut := fun _ => nofun
    marks := by
      rintro _ _ _ ⟨⟩
      exact ⟨rfl, fun ho => hdue ho _ hm⟩
    unresolved := fun k g hl => by
      rcases unresolved_of_mark hl with hl | ⟨rfl, rfl⟩
      · exact Or.inl hl
      · exact Or.inr ⟨origin, rfl⟩ }

lemma obeys_clearThrough :
    Obeys uuidParse closed inside P (sec .other (clearUnresolvedThrough key generation)) fun _ => P := by
  refine Obeys.sec hP (fun _ => hP) nofun fun m hm => ⟨guar_flags rfl rfl honest_clearThrough (fun h => h) ?_, hm⟩
  exact fun k g hl => unresolved_of_clearThrough hl

lemma obeys_record {result : Result} (hdue : origin = .other → ∀ s, P s → Due s id result.generation) :
    Obeys uuidParse closed inside P (record origin id result) fun _ => P := by
  simp only [record]
  split_ifs
  · exact obeys_clearThrough hP
  · exact obeys_mark hP hdue

end

lemma obeys_launchFailed (ans : ApplyAnswers) (cmd : ApplyCommand) (bootID code : String) :
    Obeys uuidParse closed true P (sec .other (launchFailed ans cmd bootID code)) fun _ => P :=
  obeys_other stable_inside (Quiet.of_calm fun m => (calm_still m).launchFailed ans cmd bootID code)

lemma obeys_resumeTarget (ans : ApplyAnswers) (cmd : ApplyCommand) (bootID : String) (process : ProcessIdentity) :
    Obeys uuidParse closed true P (sec .other (resumeTarget ans cmd bootID process)) fun _ => P :=
  obeys_other stable_inside (Quiet.of_calm fun m => (calm_still m).resumeTarget ans bootID (Triple.modify fun _ h => h.log nofun))

lemma obeys_emit (hP : Stable inside P) (result : Result) : Obeys uuidParse closed inside P (sec .other (emit result)) fun _ => P :=
  obeys_other hP (quiet_emit result)

variable {s : Store}

lemma bindProcess_covered {u : Unit} (h : (bindProcess s a now id generation process).value = .ok u) :
    Covered (bindProcess s a now id generation process).store id generation := by
  obtain ⟨entry, hstate, hgen, ho⟩ := replace_ok (bindProcess_cases id generation process) h
  rw [ho]
  refine ⟨boundEntry entry process now, AList.lookup_insert _, ?_⟩
  simp [cover, boundEntry, hstate, hgen]

lemma vacant_bindProcess (h : Vacant s) : Vacant (bindProcess s a now id generation process).store := by
  have hcases : ReplaceCases s a id .active generation (boundEntry · process now) (bindProcess s a now id generation process) :=
    bindProcess_cases id generation process
  generalize bindProcess s a now id generation process = o at hcases ⊢
  cases hcases with
  | refused e => exact h
  | recorded entry hl he => rw [h id] at he; cases he

lemma obeys_bindAndResumeP (ans : ApplyAnswers) (cmd : ApplyCommand) (bootID : String)
    (hjob : process.jobName ≠ "") (hboot : process.bootID ≠ "") :
    Runs uuidParse closed true (fun _ => True) (bindAndResumeP ans cmd bootID process) := by
  refine Obeys.bind (Q := fun (r : Except StoreError Unit) s => ∀ u, r = .ok u → Covered s cmd.actuationID cmd.generation)
    (Obeys.sec stable_inside (fun _ => stable_inside) nofun fun m _ => ⟨?_, fun u hu => bindProcess_covered hu⟩) fun r => ?_
  · exact (works_onStore (revises_bindProcess hjob hboot)).guar (fun _ => rfl) nofun (fun h => h) (fun _ => vacant_bindProcess) nofun
  · rcases r with e | u
    · exact (obeys_launchFailed ans cmd bootID _).ends
    · rcases ans.handoff with _ | (_ | err)
      · exact (obeys_emit stable_inside _).bind fun _ => (obeys_resumeTarget ans cmd bootID process).ends
      · exact (obeys_resumeTarget ans cmd bootID process).ends
      · have hmark : Runs uuidParse closed true (fun s => Covered s cmd.actuationID cmd.generation)
            (mark .other cmd.actuationID cmd.generation) :=
          (obeys_mark stable_inside fun _ s hs => Or.inr (Or.inl hs)).ends
        refine Obeys.weaken (Obeys.bind hmark fun _ => (obeys_launchFailed ans cmd bootID _).ends) (fun s hs => hs u rfl) ?_
        exact fun _ _ h => h

lemma jobName_ne (actuationID : String) (generation : UInt64) : jobName actuationID generation ≠ "" := by
  unfold jobName
  rw [Ne, String.append_eq_empty_iff, String.append_eq_empty_iff, String.append_eq_empty_iff]
  rintro ⟨⟨⟨h, -⟩, -⟩, -⟩
  exact absurd h (by decide)

lemma obeys_launchP (ans : ApplyAnswers) (cmd : ApplyCommand) (targetHash : String) (hboot : bootID ≠ "") :
    Runs uuidParse closed true (fun _ => True) (launchP ans cmd bootID targetHash) := by
  have hfail (code : String) : Runs uuidParse closed true (fun _ => True) (sec .other (launchFailed ans cmd bootID code)) :=
    obeys_launchFailed ans cmd bootID code
  simp only [launchP]
  cases ans.promote with
  | false => exact Obeys.keep
  | true =>
    cases ans.createSuspended with
    | none => exact hfail _
    | some identity =>
      cases ans.createJob with
      | none => exact hfail _
      | some inheritable =>
        simp only [Bool.not_true, Bool.false_eq_true, if_false]
        split_ifs
        · exact hfail _
        · exact hfail _
        · exact hfail _
        · exact obeys_bindAndResumeP ans cmd bootID (jobName_ne _ _) hboot

lemma obeys_prepareAndLaunchP (ans : ApplyAnswers) (cmd : ApplyCommand) (targetHash : String) (hboot : bootID ≠ "") :
    Runs uuidParse closed true (fun _ => True) (prepareAndLaunchP uuidParse applyDigest ans cmd bootID targetHash) := by
  refine Obeys.bind (Q := fun _ _ => True)
    (Obeys.sec stable_inside (fun _ => stable_inside) nofun fun m _ => ⟨?_, trivial⟩) fun r => ?_
  · exact (works_onStore (revises_prepareApply (prepareApply_cases cmd))).guar (fun _ => rfl) nofun (fun h => h)
      (fun h => absurd trivial h) nofun
  · rcases r with e | (_ | _ | _)
    · exact Obeys.keep
    · exact obeys_launchP ans cmd targetHash hboot
    · exact obeys_launchP ans cmd targetHash hboot
    · exact (obeys_other stable_inside Quiet.get).bind fun _ => Obeys.keep

lemma currentBootID_ne {answer : Except String String} (h : currentBootID answer = .ok bootID) : bootID ≠ "" := by
  rcases answer with e | id
  · cases h
  · simp only [currentBootID] at h
    split_ifs at h with hblank
    cases h
    exact hblank

lemma obeys_applyP {ans : ApplyAnswers} (cmd : ApplyCommand) :
    Runs uuidParse closed ans.gate (fun _ => True) (applyP uuidParse applyDigest ans cmd) := by
  simp only [applyP]
  cases ans.gate with
  | false => exact Obeys.pure stable_true fun _ h => h
  | true =>
    cases hb : currentBootID ans.bootID with
    | error bootID => exact Obeys.keep
    | ok bootID =>
      refine (obeys_quiet .admission (fun _ => rfl) (by simp) (by simp) stable_inside Quiet.get).bind fun m => ?_
      split_ifs
      · exact Obeys.keep
      · exact Obeys.keep
      · exact Obeys.keep
      · cases ans.pinTarget with
        | none => exact Obeys.keep
        | some targetHash => exact obeys_prepareAndLaunchP ans cmd targetHash (currentBootID_ne hb)

lemma obeys_cleaned (ans : CleanupAnswers) (cmd : CleanupCommand) (hF : ∀ s s', Grows s s' → F s → F s') :
    Obeys uuidParse closed true F (sec (.cleaned cmd) (cleanupLocked uuidParse ans cmd))
      fun result s => result.generation = cmd.generation ∧ F s := by
  refine Obeys.sec stable_inside (fun _ => stable_inside) nofun fun m hm => ?_
  obtain ⟨hw, hresult⟩ : Works uuidParse True m _ ∧ _ := does_cleanupLocked ans cmd m
  exact ⟨hw.guar (fun _ => rfl) nofun (fun _ => trivial) (fun h => absurd trivial h) nofun, hresult, hF _ _ hw.grows hm⟩

lemma obeys_cleanupP (gate : Bool) (ans : CleanupAnswers) (cmd : CleanupCommand) :
    Runs uuidParse closed gate (fun _ => True) (cleanupP uuidParse gate ans cmd) := by
  have hrecord (result : Result) :
      Runs uuidParse closed gate (fun _ => True) (record .cleanup cmd.actuationID result >>= fun _ => pure result) := by
    refine Obeys.bind (obeys_record stable_true ?_) fun _ => Obeys.pure stable_true fun _ h => h
    exact nofun
  simp only [cleanupP]
  cases gate with
  | false => exact hrecord _
  | true => exact (obeys_cleaned ans cmd fun _ _ _ h => h).ends.bind fun _ => hrecord _

def Listed (entries : List LedgerEntry) (s : Store) : Prop :=
  ∀ entry ∈ entries, ∃ e, s.entries.lookup entry.actuationID = some e ∧ cover entry ≤ cover e

lemma Listed.grows (s s' : Store) (hg : Grows s s') (h : Listed entries s) : Listed entries s' := by
  intro entry he
  obtain ⟨e, hl, hc⟩ := h entry he
  obtain ⟨e', hl', hc'⟩ := hg.entries _ e hl
  exact ⟨e', hl', hc.trans hc'⟩

lemma stable_listed : Stable inside (Listed entries) := fun s s' hg _ => Listed.grows s s' hg

lemma Listed.due (h : Listed entries s)
    (he : entry ∈ entries) (hg : generation.toNat ≤ cover entry) : Due s entry.actuationID generation := by
  obtain ⟨e, hl, hc⟩ := h entry he
  exact Or.inr (Or.inl ⟨e, hl, hg.trans hc⟩)

lemma generation_le_cover (entry : LedgerEntry) : entry.generation.toNat ≤ cover entry := by
  unfold cover
  split_ifs <;> omega

lemma mem_sortedEntries (hk : Keyed s.entries) {e : LedgerEntry} (he : e ∈ sortedEntries s) :
    s.entries.lookup e.actuationID = some e := by
  obtain ⟨⟨k, e'⟩, hmem, rfl⟩ := List.mem_map.mp (List.mem_mergeSort.mp he)
  have hl : s.entries.lookup k = some e' := AList.mem_lookup_iff.mpr hmem
  rwa [hk k e' hl]

lemma obeys_reconcileEntryP (ans : ReconcileAnswers) (he : entry ∈ entries) :
    Obeys uuidParse closed true (Listed entries) (reconcileEntryP uuidParse ans entry) fun _ => Listed entries := by
  have hdue (s : Store) (hs : Listed entries s) : Due s entry.actuationID entry.generation := hs.due he (generation_le_cover entry)
  have hmark : Obeys uuidParse closed true (Listed entries) (mark .other entry.actuationID entry.generation) fun _ => Listed entries :=
    obeys_mark stable_inside fun _ => hdue
  have hend {α : Type} (result : Result) (a : α) :
      Obeys uuidParse closed true (Listed entries) (sec .other (emit result) >>= fun _ => pure a) fun _ => Listed entries :=
    (obeys_emit stable_inside result).bind fun _ => Obeys.keep
  simp only [reconcileEntryP]
  split_ifs
  · exact hmark.bind fun _ => hend _ _
  · refine (obeys_cleaned _ _ Listed.grows).bind fun result => ?_
    have hrecord : Obeys uuidParse closed true (fun s => result.generation = entry.generation ∧ Listed entries s)
        (record .other entry.actuationID result) fun _ s => result.generation = entry.generation ∧ Listed entries s :=
      obeys_record stable_inside fun _ s hs => hs.1 ▸ hdue s hs.2
    refine hrecord.bind fun _ => ?_
    split_ifs
    · exact (hend _ _).weaken (fun _ h => h.2) fun _ _ h => h
    · exact Obeys.pure stable_inside fun _ h => h.2
  · refine (obeys_other stable_inside (Quiet.of_calm fun m => (calm_still m).reconcileActiveLocked ans entry)).bind fun r => ?_
    split_ifs
    · exact (obeys_clearThrough stable_inside).bind fun _ => hend _ _
    · exact hmark.bind fun _ => hend _ _

lemma obeys_each {p : List LedgerEntry → Prog α}
    (hnil : Obeys uuidParse closed inside (Listed entries) (p []) fun _ => Listed entries)
    (hcons : ∀ entry ∈ entries, ∀ rest, Obeys uuidParse closed inside (Listed entries) (p rest) (fun _ => Listed entries) →
      Obeys uuidParse closed inside (Listed entries) (p (entry :: rest)) fun _ => Listed entries) :
    Runs uuidParse closed inside (Listed entries) (p entries) := by
  suffices h : ∀ rest, (∀ e ∈ rest, e ∈ entries) → Obeys uuidParse closed inside (Listed entries) (p rest) fun _ => Listed entries from
    (h entries fun _ h => h).ends
  intro rest hr
  induction rest with
  | nil => exact hnil
  | cons entry rest ih => exact hcons entry (hr entry List.mem_cons_self) rest (ih fun e he => hr e (List.mem_cons_of_mem _ he))

lemma obeys_reconcileEntriesP (ans : ReconcileAnswers) :
    Runs uuidParse closed true (Listed entries) (reconcileEntriesP uuidParse ans entries) := by
  refine obeys_each Obeys.keep fun entry he rest hrest => ?_
  exact (obeys_reconcileEntryP ans he).bind fun _ => hrest.bind fun _ => Obeys.keep

lemma obeys_timeOutEntriesP : Runs uuidParse closed inside (Listed entries) (timeOutEntriesP entries) := by
  refine obeys_each (Obeys.pure stable_listed fun _ h => h) fun entry he rest hrest => ?_
  refine Obeys.bind (obeys_record stable_listed fun _ s hs => ?_) fun _ => ?_
  · exact hs.due he (generation_le_cover entry)
  · exact hrest.bind fun _ => Obeys.pure stable_listed fun _ h => h

lemma stable_keyed : Stable inside fun s => Keyed s.entries := fun _ _ hg _ => hg.keyed

lemma obeys_listing : Obeys uuidParse closed inside (fun s => Keyed s.entries) (sec .other get) fun m => Listed (sortedEntries m.store) := by
  refine Obeys.sec stable_keyed (fun _ => stable_listed) nofun fun m hm => ⟨?_, fun entry he => ⟨entry, mem_sortedEntries hm he, le_rfl⟩⟩
  exact (Quiet.get m).guar nofun nofun

lemma obeys_reconcileP (ans : ReconcileAnswers) :
    Runs uuidParse closed ans.gate (fun s => Keyed s.entries) (reconcileP uuidParse ans) := by
  refine Obeys.bind (Q := fun _ s => Keyed s.entries) (Obeys.sec stable_keyed (fun _ => stable_keyed) nofun fun m hm => ?_) fun _ => ?_
  · exact ⟨guar_flags rfl rfl (fun _ => nofun) (fun h => h) fun _ _ h => h, hm⟩
  · refine obeys_listing.bind fun m => ?_
    simp only [reconcileListedP]
    cases ans.gate with
    | false => exact obeys_timeOutEntriesP
    | true =>
      refine (obeys_reconcileEntriesP ans).bind fun r => ?_
      refine Obeys.bind (Q := fun _ _ => True) (Obeys.sec stable_true (fun _ => stable_true) nofun fun m _ => ⟨?_, trivial⟩) fun _ => ?_
      · refine guar_flags rfl rfl (fun _ havail => ?_) (fun h => h) fun _ _ h => h
        exact List.isEmpty_iff.mp (Bool.and_eq_true_iff.mp havail).2
      · exact Obeys.pure stable_true fun _ h => h

lemma obeys_disableEntriesP (ans : EnableAnswers) :
    Runs uuidParse closed true (Listed entries) (disableEntriesP uuidParse ans entries) := by
  refine obeys_each Obeys.keep fun entry he rest hrest => ?_
  have hcover : (if entry.desiredState = .active then entry.generation + 1 else entry.generation).toNat ≤ cover entry := by
    unfold cover
    split_ifs
    · rw [UInt64.toNat_add]
      exact Nat.mod_le _ _
    · exact le_rfl
  simp only [disableEntriesP]
  refine (obeys_cleaned _ _ Listed.grows).bind fun result => ?_
  refine Obeys.bind (obeys_record stable_inside fun _ s hs => ?_) fun _ => ?_
  · rw [hs.1]
    exact hs.2.due he hcover
  · refine Obeys.weaken (P := Listed entries) (Q := fun _ => Listed entries) ?_ (fun _ h => h.2) fun _ _ h => h
    split_ifs
    · exact (obeys_emit stable_inside result).bind fun _ => hrest.bind fun _ => Obeys.keep
    · exact hrest.bind fun _ => Obeys.keep

lemma vacant_of_keys (h : s.entries.keys.isEmpty = true) : Vacant s := by
  intro k
  refine AList.lookup_eq_none.mpr fun hk => ?_
  rw [AList.mem_keys, List.isEmpty_iff.mp h] at hk
  cases hk

lemma obeys_disableAccountP (ans : EnableAnswers) :
    Runs uuidParse closed true (fun _ => True) (disableAccountP ans) := by
  refine Obeys.bind (Q := fun m s => s = m.store)
    (Obeys.sec stable_inside (fun _ => stable_inside) nofun fun m _ => ⟨(Quiet.get m).guar nofun nofun, rfl⟩) fun m => ?_
  have hmark (failures : List String) (hdue : Due m.store "__account__" 0) :
      Runs uuidParse closed true (fun s => s = m.store) (mark .other "__account__" 0 >>= fun _ => pure failures) := by
    refine Obeys.bind (obeys_mark stable_inside fun _ s hs => ?_) fun _ => Obeys.pure stable_inside fun _ _ => trivial
    rw [hs]
    exact hdue
  split_ifs with hload hkeys
  · exact hmark _ (Or.inl hload)
  · exact Obeys.pure stable_inside fun _ _ => trivial
  · have hvacant : Due m.store "__account__" 0 := by
      refine Or.inr (Or.inr ⟨rfl, vacant_of_keys ?_⟩)
      simpa using hkeys
    cases currentBootID ans.account.bootID with
    | error e => exact hmark _ hvacant
    | ok bootID =>
      refine (obeys_other stable_inside (quiet_verifyAccountClean ans.account _)).bind fun r => ?_
      dsimp only
      split_ifs
      · exact hmark _ hvacant
      · refine Obeys.bind (Q := fun _ _ => True) (Obeys.sec stable_inside (fun _ => stable_inside) nofun fun m _ => ⟨?_, trivial⟩)
          fun _ => Obeys.keep
        exact guar_flags rfl rfl honest_clear (fun h => h) fun _ _ h => unresolved_of_erase h

lemma obeys_disableP (ans : EnableAnswers) :
    Runs uuidParse closed true (fun s => Keyed s.entries) (disableP uuidParse ans) := by
  refine Obeys.bind (Q := fun _ s => Keyed s.entries) (Obeys.sec stable_inside (fun _ => stable_inside) nofun fun m hm => ?_) fun _ => ?_
  · exact ⟨guar_flags rfl rfl (fun h => h) nofun fun _ _ h => h, hm⟩
  refine obeys_listing.bind fun m => ?_
  refine Obeys.bind (Q := fun _ => Listed (sortedEntries m.store)) ?_ fun _ => ?_
  · exact ((obeys_disableAccountP ans).frame Listed.grows).weaken (fun _ h => ⟨trivial, h⟩) fun _ _ h => h.2
  refine (obeys_disableEntriesP ans).bind fun _ => (obeys_other stable_inside Quiet.get).bind fun m => ?_
  dsimp only
  split_ifs
  · exact Obeys.keep
  · refine Obeys.bind (Q := fun _ _ => True) (Obeys.sec stable_inside (fun _ => stable_inside) nofun fun m _ => ⟨?_, trivial⟩)
      fun _ => Obeys.keep
    exact guar_flags rfl rfl (fun _ h => List.isEmpty_iff.mp h) nofun fun _ _ h => h

lemma obeys_openAdmission :
    Obeys uuidParse false true (fun _ => True)
      (sec .openAdmission (modify fun m => { m with enabled := true, admissionOpen := true })) fun _ _ => True := by
  refine Obeys.sec stable_inside (fun _ => stable_inside) nofun fun m _ => ⟨?_, trivial⟩
  exact {
    gate := fun _ => rfl
    outside := fun _ => rfl
    grows := Grows.refl _
    records := fun _ _ hi h => h.same (fun ha => (hi ha).1) rfl fun _ he => he
    vacant := fun _ h => h
    honest := fun h => h
    shut := fun h => absurd rfl h
    marks := nofun
    unresolved := fun _ _ h => Or.inl h }

lemma obeys_enableP : Runs uuidParse false true (fun _ => True) enableP := by
  have henabled : Runs uuidParse false true (fun _ => True) (sec .enabled (pure ()) >>= fun _ => pure (none : Option String)) :=
    (obeys_quiet .enabled (fun _ => rfl) nofun nofun stable_inside (Quiet.pure ())).bind fun _ => Obeys.keep
  refine (obeys_quiet .enableRead (fun _ => rfl) nofun nofun stable_inside Quiet.get).bind fun m => ?_
  split_ifs
  · exact Obeys.keep
  · exact henabled
  · exact obeys_openAdmission.bind fun _ => henabled

lemma obeys_setEnabledP (ans : EnableAnswers) (enabled : Bool) :
    Runs uuidParse (!enabled) ans.gate.isOk (fun s => Keyed s.entries) (setEnabledP uuidParse ans enabled) := by
  simp only [setEnabledP]
  cases ans.gate with
  | error e =>
    refine Obeys.bind (obeys_mark stable_keyed ?_) fun _ => Obeys.pure stable_keyed fun _ _ => trivial
    intro horigin
    cases horigin
  | ok u =>
    cases enabled with
    | true => exact obeys_enableP.weaken (fun _ _ => trivial) fun _ _ h => h
    | false =>
      refine Obeys.bind (obeys_other stable_inside Quiet.get) fun m => ?_
      split_ifs
      · exact Obeys.pure stable_inside fun _ _ => trivial
      · exact obeys_disableP ans

lemma obeys_acquireLegacyActuationP (gate : Bool) :
    Runs uuidParse closed gate (fun _ => True) (acquireLegacyActuationP gate) := by
  cases gate with
  | false => exact Obeys.pure stable_true fun _ h => h
  | true =>
    refine (obeys_other stable_inside Quiet.get).bind fun m => ?_
    split_ifs
    · exact (obeys_other stable_inside (Quiet.pure ())).bind fun _ => Obeys.keep
    · exact Obeys.keep

def Opens : Call → Bool
  | .setEnabled _ enabled => enabled
  | _ => false

lemma obeys_call (c : Call) :
    Runs uuidParse (!Opens c) c.inside (fun s => Keyed s.entries) (c.program uuidParse applyDigest) := by
  have hend {α : Type} {p : Prog α} (h : Runs uuidParse (!Opens c) c.inside (fun s => Keyed s.entries) p) :
      Runs uuidParse (!Opens c) c.inside (fun s => Keyed s.entries) (p >>= fun _ => pure PUnit.unit) :=
    h.bind fun _ => Obeys.pure stable_true fun _ h => h
  cases c with
  | apply ans cmd => exact hend ((obeys_applyP cmd).weaken (fun _ _ => trivial) fun _ _ h => h)
  | cleanup gate ans cmd => exact hend ((obeys_cleanupP gate ans cmd).weaken (fun _ _ => trivial) fun _ _ h => h)
  | reconcile ans => exact hend (obeys_reconcileP ans)
  | setEnabled ans enabled => exact hend (obeys_setEnabledP ans enabled)
  | acquireLegacyActuation gate => exact hend ((obeys_acquireLegacyActuationP gate).weaken (fun _ _ => trivial) fun _ _ h => h)

end Obeys

section System

variable {uuidParse : String → Bool} {applyDigest : ApplyCommand → Except String String} {I : LifecycleManager → Prop}
  {sys : System} {sound : Prop}

def restarted (m : LifecycleManager) (readErr : Option String) : LifecycleManager :=
  { store := newStore (disk m.trace) readErr, trace := m.trace }

lemma fine_empty : Fine uuidParse sound ∅ := ⟨fun _ _ h => by simp at h, fun _ _ _ h => by simp at h⟩

lemma records_initial : Records uuidParse sound {} := ⟨fine_empty, nofun⟩

lemma Records.restarted {m : LifecycleManager} (h : Records uuidParse sound m) (readErr : Option String) :
    Records uuidParse sound (restarted m readErr) := by
  refine ⟨?_, h.written⟩
  cases readErr with
  | some e => exact fine_empty
  | none =>
    change Fine uuidParse sound ((disk m.trace).getD ∅)
    cases hd : disk m.trace with
    | none => exact fine_empty
    | some entries => exact h.written entries (mem_of_disk hd)

lemma kept_step (h : Kept Rely (Guar uuidParse) I sys) (hkeyed : ∀ m, I m → Keyed m.store.entries)
    (hrestart : ∀ readErr, I (restarted sys.state readErr)) (st : Step)
    (hinv : ∀ i t label m', st = .advance i → sys.threads[i]? = some t → t.program.label? = some label →
      Guar uuidParse t.inside label sys.state m' → I m') :
    Kept Rely (Guar uuidParse) I (step uuidParse applyDigest sys st) := by
  cases st with
  | call c =>
    refine h.step (m := .start (c.thread uuidParse applyDigest)) (contract uuidParse) (fun t ht => ?_) fun i t label m' hm => ?_
    · obtain rfl := Move.start.inj ht
      exact (obeys_call c).safe sys.state (hkeyed _ h.state)
    · cases hm
  | advance i =>
    refine h.step (m := .advance i) (contract uuidParse) (fun t ht => ?_) fun j t label m' hj => ?_
    · cases ht
    · cases hj
      exact hinv i t label m' rfl
  | restart readErr =>
    refine ⟨hrestart readErr, fun t ht => ?_, fun i j t u hi => ?_⟩
    · cases ht
    · cases hi

end System

end Breeze.Pam.Discipline
