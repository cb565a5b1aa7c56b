import Breeze.Lib.Stateful
import Breeze.Pam.Manager

/-! What is durable along the log of a manager, and what the writes of the ledger keep of it. -/

namespace Breeze.Pam.Durability

open Breeze.Lib.Stateful Ledger Manager

def disk (trace : List Event) : Option Entries :=
  trace.foldl (fun d e => match e with
    | .wrote entries => some entries
    | _ => d) none

def Tombstoned (trace : List Event) (id : String) : Prop :=
  ∃ entries e, Event.wrote entries ∈ trace ∧ entries.lookup id = some e ∧ e.desiredState = .cleanup

def Resumed (trace : List Event) (id : String) : Prop := ∃ process, Event.resumed id process ∈ trace

def Holds (entries : Entries) (id : String) (process : ProcessIdentity) : Prop :=
  ∃ e, entries.lookup id = some e ∧ e.desiredState = .active ∧ e.pid = process.pid ∧
    e.processCreationTime = some process.processCreationTime ∧ e.jobName = process.jobName ∧ e.bootID = process.bootID

def DiskHolds (trace : List Event) (id : String) (process : ProcessIdentity) : Prop :=
  ∃ entries, disk trace = some entries ∧ Holds entries id process

def SafeTrace (trace : List Event) : Prop :=
  ∀ pre id process post, trace = pre ++ .resumed id process :: post →
    ¬ Resumed pre id ∧ ¬ Tombstoned pre id ∧ DiskHolds pre id process

def Known (trace : List Event) (id : String) : Prop := Resumed trace id ∨ Tombstoned trace id

def Covers (entries : Entries) (trace : List Event) : Prop := ∀ id, Known trace id → (entries.lookup id).isSome

def Keyed (entries : Entries) : Prop := ∀ k e, entries.lookup k = some e → e.actuationID = k

structure Sound (trace : List Event) : Prop where
  safe : SafeTrace trace
  covered : ∀ pre, pre <+: trace → ∀ id, Known pre id → ∃ entries, disk pre = some entries ∧ (entries.lookup id).isSome
  keyed : ∀ entries, Event.wrote entries ∈ trace → Keyed entries

section Trace

variable {trace pre : List Event} {id : String} {e : Event}

def Neutral : Event → Prop
  | .wrote _ => False
  | .resumed _ _ => False
  | _ => True

@[simp] lemma disk_nil : disk [] = none := rfl

@[simp] lemma disk_wrote (entries : Entries) : disk (trace ++ [.wrote entries]) = some entries := by
  simp [disk]

@[simp] lemma disk_resumed (process : ProcessIdentity) : disk (trace ++ [.resumed id process]) = disk trace := by
  simp [disk]

lemma disk_neutral (he : Neutral e) : disk (trace ++ [e]) = disk trace := by
  cases e <;> first | exact he.elim | simp [disk]

variable {entries : Entries} {process : ProcessIdentity}

lemma mem_of_disk (h : disk trace = some entries) : Event.wrote entries ∈ trace := by
  induction trace using List.reverseRecOn with
  | nil => cases h
  | append_singleton trace e ih =>
    cases e with
    | wrote es =>
      rw [disk_wrote] at h
      cases h
      simp
    | _ => simpa using ih (by simpa [disk] using h)

lemma known_neutral (he : Neutral e) : Known (trace ++ [e]) id ↔ Known trace id := by
  cases e <;> first | exact he.elim | simp [Known, Resumed, Tombstoned]

lemma known_wrote :
    Known (trace ++ [.wrote entries]) id ↔
      Known trace id ∨ ∃ e, entries.lookup id = some e ∧ e.desiredState = .cleanup := by
  constructor
  · rintro (⟨p, hp⟩ | ⟨es, e, hes, he⟩)
    · exact Or.inl (Or.inl ⟨p, by simpa using hp⟩)
    · rcases List.mem_append.mp hes with hes | hes
      · exact Or.inl (Or.inr ⟨es, e, hes, he⟩)
      · simp only [List.mem_singleton, Event.wrote.injEq] at hes
        exact Or.inr ⟨e, hes ▸ he⟩
  · rintro ((⟨p, hp⟩ | ⟨es, e, hes, he⟩) | ⟨e, he⟩)
    · exact Or.inl ⟨p, by simp [hp]⟩
    · exact Or.inr ⟨es, e, by simp [hes], he⟩
    · exact Or.inr ⟨entries, e, by simp, he⟩

lemma known_resumed {k : String} :
    Known (trace ++ [.resumed k process]) id ↔ Known trace id ∨ id = k := by
  constructor
  · rintro (⟨p, hp⟩ | ⟨es, e, hes, he⟩)
    · rcases List.mem_append.mp hp with hp | hp
      · exact Or.inl (Or.inl ⟨p, hp⟩)
      · simp only [List.mem_singleton, Event.resumed.injEq] at hp
        exact Or.inr hp.1
    · exact Or.inl (Or.inr ⟨es, e, by simpa using hes, he⟩)
  · rintro ((⟨p, hp⟩ | ⟨es, e, hes, he⟩) | rfl)
    · exact Or.inl ⟨p, by simp [hp]⟩
    · exact Or.inr ⟨es, e, by simp [hes], he⟩
    · exact Or.inl ⟨process, by simp⟩

lemma SafeTrace.snoc (h : SafeTrace trace)
    (he : ∀ id process, e = .resumed id process → ¬ Known trace id ∧ DiskHolds trace id process) :
    SafeTrace (trace ++ [e]) := by
  intro pre id process post hsplit
  rcases List.eq_nil_or_concat post with rfl | ⟨post, last, rfl⟩
  · obtain ⟨rfl, hev⟩ := List.append_inj' hsplit rfl
    obtain ⟨hk, hd⟩ := he id process (by simpa using hev)
    exact ⟨fun hr => hk (Or.inl hr), fun ht => hk (Or.inr ht), hd⟩
  · have hsplit' : trace ++ [e] = (pre ++ .resumed id process :: post) ++ [last] := by
      simpa [List.concat_eq_append] using hsplit
    obtain ⟨ht, -⟩ := List.append_inj' hsplit' rfl
    exact h pre id process post ht

section

variable (h : Sound trace)

include h

lemma Sound.snoc
    (he : ∀ id process, e = .resumed id process → ¬ Known trace id ∧ DiskHolds trace id process)
    (hd : ∀ id, Known (trace ++ [e]) id → ∃ entries, disk (trace ++ [e]) = some entries ∧ (entries.lookup id).isSome)
    (hk : ∀ entries, e = .wrote entries → Keyed entries) : Sound (trace ++ [e]) := by
  refine ⟨h.safe.snoc he, fun pre hpre id hid => ?_, fun entries hes => ?_⟩
  · rcases List.prefix_concat_iff.mp hpre with rfl | hpre
    · exact hd id hid
    · exact h.covered pre hpre id hid
  · rcases List.mem_append.mp hes with hes | hes
    · exact h.keyed entries hes
    · exact hk entries (List.mem_singleton.mp hes).symm

lemma Sound.neutral (he : Neutral e) : Sound (trace ++ [e]) := by
  refine h.snoc (fun id process hr => ?_) (fun id hid => ?_) (fun entries hw => ?_)
  · subst hr
    exact he.elim
  · rw [known_neutral he] at hid
    rw [disk_neutral he]
    exact h.covered trace (List.prefix_refl _) id hid
  · subst hw
    exact he.elim

lemma Sound.wrote (hc : Covers entries trace) (hk : Keyed entries) :
    Sound (trace ++ [.wrote entries]) := by
  refine h.snoc (fun id process hr => by cases hr) (fun id hid => ?_) (fun es hes => ?_)
  · refine ⟨entries, disk_wrote entries, ?_⟩
    rcases known_wrote.mp hid with hid | ⟨e, he, -⟩
    · exact hc id hid
    · simp [he]
  · cases hes
    exact hk

lemma Sound.resumed (hid : ¬ Known trace id)
    (hd : DiskHolds trace id process) : Sound (trace ++ [.resumed id process]) := by
  refine h.snoc (fun k p hr => ?_) (fun k hk => ?_) (fun entries hes => by cases hes)
  · cases hr
    exact ⟨hid, hd⟩
  · rw [disk_resumed]
    rcases known_resumed.mp hk with hk | rfl
    · exact h.covered trace (List.prefix_refl _) k hk
    · obtain ⟨entries, hes, e, he, -⟩ := hd
      exact ⟨entries, hes, by simp [he]⟩

lemma Sound.earlier (hp : pre <+: trace) : Sound pre := by
  obtain ⟨rest, rfl⟩ := hp
  refine ⟨fun p id process post hsplit => ?_, fun p hp => h.covered p (hp.trans (List.prefix_append _ _)), fun es hes => ?_⟩
  · refine h.safe p id process (post ++ rest) ?_
    rw [hsplit]
    simp
  · exact h.keyed es (by simp [hes])

end

end Trace

section Writes

variable {α : Type}

structure Inv (m : LifecycleManager) : Prop where
  sound : Sound m.trace
  covers : m.store.loadErr = none → Covers m.store.entries m.trace
  keyed : Keyed m.store.entries

def commit (m : LifecycleManager) (o : Outcome α) : LifecycleManager :=
  { m with store := o.store, trace := m.trace ++ o.writes.map .wrote }

lemma lookup_insert_isSome {entries : Entries} {k id : String} {e : LedgerEntry} (h : (entries.lookup id).isSome) :
    ((entries.insert k e).lookup id).isSome := by
  by_cases hk : id = k
  · subst hk
    simp
  · rwa [AList.lookup_insert_ne hk]

lemma Keyed.insert {entries : Entries} (h : Keyed entries) {e : LedgerEntry} {k : String} (he : e.actuationID = k) :
    Keyed (entries.insert k e) := by
  intro id e' hid
  by_cases hk : id = k
  · subst hk
    rw [AList.lookup_insert] at hid
    cases hid
    exact he
  · rw [AList.lookup_insert_ne hk] at hid
    exact h id e' hid

lemma rollback_lookup (entries : Entries) (key : String) (next : LedgerEntry) (k : String) :
    (match entries.lookup key with
      | some previous => (entries.insert key next).insert key previous
      | none => (entries.insert key next).erase key).lookup k = entries.lookup k := by
  by_cases hk : k = key
  · subst hk
    cases hl : entries.lookup k <;> simp
  · cases hl : entries.lookup key <;> simp [AList.lookup_insert_ne hk, AList.lookup_erase_ne hk]

/-- A change of the ledger does not reach the disk, or reaches it and is rolled back in memory, or is made in both. -/
inductive Replaced (s : Store) (a : PersistAnswers) (key : String) (next : LedgerEntry) (done : α) : Outcome α → Prop
  | unwritten {o : Outcome α} (hv : ∃ e, o.value = .error e) (hw : o.writes = []) (hl : o.store.loadErr = s.loadErr)
      (hs : ∀ k, o.store.entries.lookup k = s.entries.lookup k) : Replaced s a key next done o
  | rolledBack {o : Outcome α} (hv : ∃ e, o.value = .error e) (hw : o.writes = [s.entries.insert key next])
      (hl : o.store.loadErr = s.loadErr) (hs : ∀ k, o.store.entries.lookup k = s.entries.lookup k)
      (hc : a.chmodFile ≠ none) : Replaced s a key next done o
  | changed : Replaced s a key next done
      { value := .ok done, store := { s with entries := s.entries.insert key next }, writes := [s.entries.insert key next] }

lemma replaceLocked_replaced (s : Store) (a : PersistAnswers) (key : String) (next : LedgerEntry) (done : α) :
    Replaced s a key next done (replaceLocked s a key next done) := by
  simp only [replaceLocked, persistLocked]
  cases firstError (persistSteps a) with
  | some e => exact .unwritten ⟨_, rfl⟩ rfl rfl (rollback_lookup s.entries key next)
  | none =>
    cases hc : a.chmodFile with
    | some e => exact .rolledBack ⟨_, rfl⟩ rfl rfl (rollback_lookup s.entries key next) (by simp [hc])
    | none => exact .changed

lemma Covers.of_lookup {es es' : Entries} {t : List Event} (h : Covers es t) (hl : ∀ k, es'.lookup k = es.lookup k) :
    Covers es' t := by
  intro id hid
  rw [hl]
  exact h id hid

lemma Keyed.of_lookup {es es' : Entries} (h : Keyed es) (hl : ∀ k, es'.lookup k = es.lookup k) : Keyed es' := by
  intro k e he
  rw [hl] at he
  exact h k e he

section Replace

variable {m : LifecycleManager} {a : PersistAnswers} {key : String} {next : LedgerEntry} {done : α} {o : Outcome α}

section

variable (ho : Replaced m.store a key next done o) (h : Inv m) (hload : m.store.loadErr = none) (hkey : next.actuationID = key)

include ho h hload hkey

lemma Replaced.sound : Sound (commit m o).trace := by
  have hw : Sound (m.trace ++ [.wrote (m.store.entries.insert key next)]) :=
    h.sound.wrote (fun id hid => lookup_insert_isSome (h.covers hload id hid)) (h.keyed.insert hkey)
  cases ho with
  | unwritten hv hwr hl hs => simpa [commit, hwr] using h.sound
  | rolledBack hv hwr hl hs hc => simpa [commit, hwr] using hw
  | changed => simpa [commit] using hw

lemma Replaced.inv
    (hcond : next.desiredState = .active ∨ (m.store.entries.lookup key).isSome ∨ a.chmodFile = none ∨ ∃ d, o.value = .ok d) :
    Inv (commit m o) := by
  have hsound := ho.sound h hload hkey
  have hinsert : Covers (m.store.entries.insert key next) (m.trace ++ [.wrote (m.store.entries.insert key next)]) := by
    intro id hid
    rcases known_wrote.mp hid with hid | ⟨e, he, -⟩
    · exact lookup_insert_isSome (h.covers hload id hid)
    · simp [he]
  cases ho with
  | unwritten hv hwr hl hs =>
    refine ⟨hsound, fun _ => ?_, h.keyed.of_lookup hs⟩
    simpa [commit, hwr] using (h.covers hload).of_lookup hs
  | changed => exact ⟨hsound, fun _ => hinsert, h.keyed.insert hkey⟩
  | rolledBack hv hwr hl hs hc =>
    refine ⟨hsound, fun _ => ?_, h.keyed.of_lookup hs⟩
    refine Covers.of_lookup ?_ hs
    intro id hid
    simp only [commit, hwr, List.map_cons, List.map_nil] at hid
    rcases known_wrote.mp hid with hid | ⟨e, he, hclean⟩
    · exact h.covers hload id hid
    · by_cases hk : id = key
      · -- the rolled back entry itself: it was there before, or it is no tombstone
        subst hk
        rw [AList.lookup_insert] at he
        cases he
        obtain ⟨e', he'⟩ := hv
        rcases hcond with ha | hsome | hnone | ⟨d, hd⟩
        · rw [ha] at hclean
          cases hclean
        · exact hsome
        · exact absurd hnone hc
        · rw [hd] at he'
          cases he'
      · rw [AList.lookup_insert_ne hk] at he
        simp [he]

end

end Replace

end Writes

end Breeze.Pam.Durability
