import Breeze.Lib.IntegerText
import Breeze.Pam.AtMostOnce
import Mathlib

/-! The job names in the ledger of runs of applies and cleanups: which actuations can share a job. -/

namespace Breeze.Pam.Isolation

open Breeze.Lib Breeze.Lib.Stateful Ledger Manager Durability CallSafety AtMostOnce List

section Names

def sameObject (a b : String) : Bool := a.toLower == b.toLower

lemma toList_toLower (s : String) : s.toLower.toList = s.toList.map Char.toLower := String.toList_map

lemma toLower_digit {c : Char} (h : c.isDigit = true) : c.toLower = c := by
  refine Char.toLower_eq_of_not_isUpper fun hupper => ?_
  simp only [Char.isDigit, Char.isUpper, Bool.and_eq_true, decide_eq_true_eq, ge_iff_le] at h hupper
  exact absurd (UInt32.le_trans hupper.1 h.2) (by decide)

lemma toList_jobName (id : String) (g : UInt64) :
    (jobName id g).toLower.toList =
      "global\\breeze.pam.".toList ++ (id.toLower.toList ++ '.' :: 'g' :: Nat.toDigits 10 g.toNat) := by
  have hid : id.toLower.toList.map Char.toLower = id.toLower.toList := by
    rw [toList_toLower, map_map]
    exact map_congr_left fun c _ => Char.toLower_toLower_eq_toLower c
  have hdigits : (Nat.toDigits 10 g.toNat).map Char.toLower = Nat.toDigits 10 g.toNat := by
    conv_rhs => rw [← map_id (Nat.toDigits 10 g.toNat)]
    exact map_congr_left fun c hc => toLower_digit (NumberText.toDigits_digits _ c hc)
  have hnumber : (toString g.toNat).toList = Nat.toDigits 10 g.toNat := by simp [toString, Nat.repr]
  have hhead : "Global\\Breeze.PAM.".toList.map Char.toLower = "global\\breeze.pam.".toList := by decide +kernel
  have hmark : ".g".toList.map Char.toLower = ['.', 'g'] := by decide +kernel
  unfold jobName
  rw [toList_toLower]
  simp only [String.toList_append, map_append, hhead, hmark, hnumber, hdigits, hid]
  simp only [append_assoc, cons_append, nil_append]

lemma append_dot_inj {a b x y : List Char} (hx : '.' ∉ x) (hy : '.' ∉ y) (h : a ++ '.' :: x = b ++ '.' :: y) : a = b ∧ x = y := by
  induction a generalizing b with
  | nil =>
    cases b with
    | nil => exact ⟨rfl, (List.cons.inj h).2⟩
    | cons c b =>
      obtain ⟨-, ht⟩ := List.cons.inj h
      exact absurd (ht ▸ mem_append_right b mem_cons_self) hx
  | cons c a ih =>
    cases b with
    | nil =>
      obtain ⟨-, ht⟩ := List.cons.inj h
      exact absurd (ht ▸ mem_append_right a mem_cons_self) hy
    | cons d b =>
      obtain ⟨hc, ht⟩ := List.cons.inj h
      obtain ⟨hab, hxy⟩ := ih ht
      exact ⟨by rw [hc, hab], hxy⟩

lemma dot_not_mem (n : ℕ) : '.' ∉ 'g' :: Nat.toDigits 10 n := by
  intro h
  rcases List.mem_cons.mp h with h | h
  · cases h
  · exact absurd (NumberText.toDigits_digits n '.' h) (by decide)

lemma sameObject_jobName {id id' : String} {g g' : UInt64} (h : sameObject (jobName id g) (jobName id' g') = true) :
    id.toLower = id'.toLower ∧ g = g' := by
  rw [sameObject, beq_iff_eq] at h
  have hlist := congrArg String.toList h
  rw [toList_jobName, toList_jobName] at hlist
  obtain ⟨hid, hg⟩ := append_dot_inj (dot_not_mem _) (dot_not_mem _) (append_cancel_left hlist)
  refine ⟨String.toList_inj.mp hid, ?_⟩
  exact UInt64.toNat_inj.mp (IntegerText.toDigits_injective (List.cons.inj hg).2)

end Names

section Ledger

variable {A : String → UInt64 → Prop} {entries : Entries} {m : LifecycleManager}

def Made (A : String → UInt64 → Prop) (id name : String) : Prop := ∃ g, A id g ∧ name = jobName id g

def NamedEntries (A : String → UInt64 → Prop) (entries : Entries) : Prop :=
  ∀ k e, entries.lookup k = some e → e.jobName = "" ∨ Made A k e.jobName

structure Named (A : String → UInt64 → Prop) (m : LifecycleManager) : Prop where
  store : NamedEntries A m.store.entries
  wrote : ∀ entries, .wrote entries ∈ m.trace → NamedEntries A entries

lemma NamedEntries.insert (h : NamedEntries A entries) {k : String} {e : LedgerEntry} (he : e.jobName = "" ∨ Made A k e.jobName) :
    NamedEntries A (entries.insert k e) := by
  intro k' e' hl
  by_cases hk : k' = k
  · subst hk
    rw [AList.lookup_insert] at hl
    cases hl
    exact he
  · rw [AList.lookup_insert_ne hk] at hl
    exact h k' e' hl

lemma stable_named : Stable (Named A) where
  fields m m' hs ht h := ⟨hs ▸ h.store, ht ▸ h.wrote⟩
  neutral m e he h := by
    refine ⟨h.store, fun entries hw => ?_⟩
    rcases List.mem_append.mp hw with hw | hw
    · exact h.wrote entries hw
    · rw [mem_singleton] at hw
      rw [← hw] at he
      cases he

lemma Named.replaced {α : Type} {a : PersistAnswers} {key : String} {next : LedgerEntry} {done : α} {o : Outcome α} (h : Named A m)
    (ho : Replaced m.store a key next done o) (hnext : next.jobName = "" ∨ Made A key next.jobName) : Named A (commit m o) := by
  have hinsert := h.store.insert hnext
  have hkeep (hs : ∀ k, o.store.entries.lookup k = m.store.entries.lookup k) : NamedEntries A o.store.entries :=
    fun k e he => h.store k e (hs k ▸ he)
  have hwrote : ∀ entries, .wrote entries ∈ m.trace ++ [.wrote (m.store.entries.insert key next)] → NamedEntries A entries := by
    intro entries hw
    rcases List.mem_append.mp hw with hw | hw
    · exact h.wrote entries hw
    · rw [mem_singleton, Event.wrote.injEq] at hw
      exact hw ▸ hinsert
  cases ho with
  | unwritten hv hw hl hs =>
    refine ⟨hkeep hs, ?_⟩
    simpa [commit, hw] using h.wrote
  | rolledBack hv hw hl hs hc =>
    refine ⟨hkeep hs, ?_⟩
    simpa [commit, hw] using hwrote
  | changed => exact ⟨hinsert, hwrote⟩

lemma Named.refused {α : Type} (h : Named A m) (v : Except StoreError α) :
    Named A (commit m { value := v, store := m.store, writes := [] }) := by
  rw [commit_refused]
  exact h

variable {uuidParse : String → Bool} {applyDigest : ApplyCommand → Except String String} {a : PersistAnswers} {now : Time}
  {o : Outcome Decision} {u : Outcome Unit}

lemma named_prepareApply (h : Named A m) {cmd : ApplyCommand} (ho : PrepareApplyCases uuidParse m.store a now cmd o) :
    Named A (commit m o) := by
  cases ho with
  | refused e | duplicate => exact h.refused _
  | recorded digest => exact h.replaced (replaceLocked_replaced _ _ _ _ _) (.inl rfl)

lemma named_prepareCleanup (h : Named A m) {cmd : CleanupCommand} (ho : PrepareCleanupCases uuidParse m.store a now cmd o) :
    Named A (commit m o) := by
  cases ho with
  | refused e | duplicate => exact h.refused _
  | recorded =>
    refine h.replaced (replaceLocked_replaced _ _ _ _ _) ?_
    cases hl : m.store.entries.lookup cmd.actuationID with
    | none => exact .inl rfl
    | some previous => exact h.store _ previous hl

lemma named_replace (h : Named A m) {id : String} {state : DesiredState} {generation : UInt64} {next : LedgerEntry → LedgerEntry}
    (hu : ReplaceCases m.store a id state generation next u) (hnext : ∀ e, (next e).jobName = "" ∨ Made A id (next e).jobName) :
    Named A (commit m u) := by
  cases hu with
  | refused e => exact h.refused _
  | recorded entry => exact h.replaced (replaceLocked_replaced _ _ _ _ _) (hnext entry)

end Ledger

section Calls

variable {A : String → UInt64 → Prop} {uuidParse : String → Bool} {applyDigest : ApplyCommand → Except String String} {id : String}
  {before : List Event}

lemma named_log {m : LifecycleManager} (h : Named A m) {e : Event} (he : ∀ entries, e ≠ .wrote entries) :
    Named A { m with trace := m.trace ++ [e] } := by
  refine ⟨h.store, fun entries hw => ?_⟩
  rcases List.mem_append.mp hw with hw | hw
  · exact h.wrote entries hw
  · exact absurd (List.mem_singleton.mp hw).symm (he entries)

lemma named_apply (ans : ApplyAnswers) (cmd : ApplyCommand) (hA : A cmd.actuationID cmd.generation) :
    Triple (Named A) (apply uuidParse applyDigest ans cmd) fun _ => Named A := by
  have hcalm : Calm (Named A) := stable_named.calm
  refine apply_triple (F := Named A) ?_ fun bootID targetHash => ?_
  · refine Triple.consequence (Q := fun _ => Named A) (triple_onStore fun m hm => ?_) (fun _ h => h) fun _ _ h => ⟨h, fun _ _ _ => h⟩
    exact named_prepareApply hm (prepareApply_cases cmd)
  refine hcalm.launch bootID targetHash (fun _ h => h) fun process hname => ?_
  refine stable_named.bindAndResume hcalm bootID ?_ (Triple.modify fun m hm => named_log hm nofun)
  refine Triple.consequence (Q := fun _ => Named A) (triple_onStore fun m hm => ?_) (fun _ h => h) fun _ _ h => ⟨h, fun _ => h⟩
  exact named_replace hm (bindProcess_cases _ _ process) fun _ => .inr ⟨cmd.generation, hA, hname⟩

structure Cleaning (A : String → UInt64 → Prop) (id : String) (before : List Event) (m : LifecycleManager) : Prop where
  named : Named A m
  ended : ∃ new, m.trace = before ++ new ∧ ∀ name answer, .terminated name answer ∈ new → Made A id name

lemma Cleaning.append {m : LifecycleManager} (h : Cleaning A id before m) {m' : LifecycleManager} {events : List Event}
    (htrace : m'.trace = m.trace ++ events) (hnamed : Named A m')
    (hevents : ∀ name answer, .terminated name answer ∈ events → Made A id name) : Cleaning A id before m' := by
  obtain ⟨new, hnew, hended⟩ := h.ended
  refine ⟨hnamed, new ++ events, by rw [htrace, hnew, append_assoc], fun name answer hmem => ?_⟩
  rcases List.mem_append.mp hmem with hmem | hmem
  · exact hended name answer hmem
  · exact hevents name answer hmem

lemma tame_cleaning : Tame (Cleaning A id before) where
  fields m m' hs ht h := ⟨stable_named.fields m m' hs ht h.named, ht ▸ h.ended⟩
  silent m e he h := by
    refine h.append rfl (stable_named.silent m e he h.named) fun name answer hmem => ?_
    rw [← List.mem_singleton.mp hmem] at he
    cases he

lemma cleaning_onStore {α : Type} {f : Store → Outcome α} (hf : ∀ m, Named A m → Named A (commit m (f m.store))) :
    Triple (Cleaning A id before) (onStore f) fun _ => Cleaning A id before := by
  refine triple_onStore fun m hm => hm.append rfl (hf m hm.named) fun name answer hmem => ?_
  obtain ⟨entries, -, hentries⟩ := List.mem_map.mp hmem
  cases hentries

lemma cleaning_cleanup (uuidParse : String → Bool) (gate : Bool) (ans : CleanupAnswers) (cmd : CleanupCommand) :
    Triple (Cleaning A cmd.actuationID before) (cleanup uuidParse gate ans cmd) fun _ => Cleaning A cmd.actuationID before := by
  refine tame_cleaning.cleanup gate (fun _ h => h) (cleanupLocked_triple (fun _ h => h) ?_ fun m bootID entry hm hentry => ?_)
  · refine Triple.consequence (cleaning_onStore fun m hm => ?_) (fun _ h => h) fun _ _ h => ⟨h, fun _ => h⟩
    exact named_prepareCleanup hm (prepareCleanup_cases cmd)
  · refine tame_cleaning.calm.proveClean ans entry bootID (fun hcomplete => Triple.modify fun m' hm' => ?_) cmd ?_
    · refine hm'.append rfl (named_log hm'.named nofun) fun name answer hmem => ?_
      rw [mem_singleton, Event.terminated.injEq] at hmem
      rw [hmem.1]
      refine (hm.named.store _ entry hentry).resolve_left fun hempty => ?_
      simp [hasCompleteProcessIdentity, hempty] at hcomplete
    · exact cleaning_onStore fun m hm => named_replace hm (clearProcessIdentity_cases _ _) fun _ => .inl rfl

end Calls

section Runs

variable (uuidParse : String → Bool) (applyDigest : ApplyCommand → Except String String)

def callOf : Step → Call
  | .call c => c
  | .crash c _ _ => c

def isCommand (st : Step) : Bool :=
  match callOf st with
  | .apply _ _ => true
  | .cleanup _ _ _ => true
  | _ => false

def appliedBy (st : Step) : Option (String × UInt64) :=
  match callOf st with
  | .apply _ cmd => some (cmd.actuationID, cmd.generation)
  | _ => none

def Applied (steps : List Step) (id : String) (g : UInt64) : Prop := ∃ st ∈ steps, appliedBy st = some (id, g)

def CaseDistinct (steps : List Step) : Prop :=
  ∀ id id' g, Applied steps id g → Applied steps id' g → id.toLower = id'.toLower → id = id'

def Bound (trace : List Event) (id name : String) : Prop :=
  ∃ entries e, Event.wrote entries ∈ trace ∧ entries.lookup id = some e ∧ e.jobName = name ∧ name ≠ ""

structure Isolated (steps : List Step) : Prop where
  names : ∀ id id' name name', id ≠ id' → Bound (run uuidParse applyDigest steps).trace id name →
    Bound (run uuidParse applyDigest steps).trace id' name' → sameObject name name' = false
  cleanups : ∀ pre st post gate ans cmd new, steps = pre ++ st :: post → callOf st = .cleanup gate ans cmd →
    (perform uuidParse applyDigest (run uuidParse applyDigest pre) (.cleanup gate ans cmd)).trace =
      (run uuidParse applyDigest pre).trace ++ new →
    ∀ name answer, .terminated name answer ∈ new → ∀ id name', id ≠ cmd.actuationID →
      Bound (run uuidParse applyDigest steps).trace id name' → sameObject name name' = false

variable {uuidParse applyDigest} {A : String → UInt64 → Prop} {m : LifecycleManager}

lemma perform_named (h : Named A m) {st : Step} (hcommand : isCommand st = true) (hA : ∀ id g, appliedBy st = some (id, g) → A id g) :
    Named A (perform uuidParse applyDigest m (callOf st)) := by
  unfold isCommand at hcommand
  unfold appliedBy at hA
  generalize callOf st = c at hcommand hA
  cases c with
  | apply ans cmd => exact named_apply ans cmd (hA _ _ rfl) m h
  | cleanup gate ans cmd =>
    have hstart : Cleaning A cmd.actuationID m.trace m := ⟨h, [], (append_nil _).symm, nofun⟩
    exact (cleaning_cleanup uuidParse gate ans cmd m hstart).named
  | reconcile | setEnabled => cases hcommand

lemma restart_named {trace : List Event} (h : ∀ entries, .wrote entries ∈ trace → NamedEntries A entries) (readErr : Option String) :
    Named A (restart trace readErr) := by
  have hempty : NamedEntries A ∅ := by
    intro k e he
    simp at he
  refine ⟨?_, h⟩
  cases readErr with
  | some e => exact hempty
  | none =>
    cases hd : disk trace with
    | none => simpa [restart, newStore, hd] using hempty
    | some entries => simpa [restart, newStore, hd] using h entries (mem_of_disk hd)

lemma step_named (h : Named A m) {st : Step} (hcommand : isCommand st = true) (hA : ∀ id g, appliedBy st = some (id, g) → A id g) :
    Named A (step uuidParse applyDigest m st) := by
  have hnamed : Named A (perform uuidParse applyDigest m (callOf st)) := perform_named h hcommand hA
  cases st with
  | call c => exact hnamed
  | crash c effects readErr => exact restart_named (fun entries hw => hnamed.wrote entries (mem_of_mem_take hw)) readErr

lemma steps_named {steps : List Step} (h : Named A m) (hcommands : ∀ st ∈ steps, isCommand st = true)
    (hA : ∀ id g, Applied steps id g → A id g) : Named A (steps.foldl (step uuidParse applyDigest) m) := by
  induction steps generalizing m with
  | nil => exact h
  | cons st steps ih =>
    refine ih (step_named h (hcommands st mem_cons_self) fun id g hst => hA id g ⟨st, mem_cons_self, hst⟩)
      (fun st' hst' => hcommands st' (mem_cons_of_mem _ hst')) fun id g hap => ?_
    obtain ⟨st', hst', happlied⟩ := hap
    exact hA id g ⟨st', mem_cons_of_mem _ hst', happlied⟩

lemma named_initial : Named A {} := by
  have h : Named A (restart [] none) := restart_named (fun _ hw => by cases hw) none
  exact h

lemma run_named {steps all : List Step} (hsub : steps ⊆ all) (hcommands : ∀ st ∈ all, isCommand st = true) :
    Named (Applied all) (run uuidParse applyDigest steps) := by
  refine steps_named named_initial (fun st hst => hcommands st (hsub hst)) fun id g h => ?_
  obtain ⟨st, hst, happlied⟩ := h
  exact ⟨st, hsub hst, happlied⟩

lemma Named.made {id name : String} (h : Named A m) (hb : Bound m.trace id name) : Made A id name := by
  obtain ⟨entries, e, hw, hl, rfl, hne⟩ := hb
  exact (h.wrote entries hw id e hl).resolve_left hne

lemma CaseDistinct.sameObject {steps : List Step} (h : CaseDistinct steps) {id id' name name' : String} (hne : id ≠ id')
    (hm : Made (Applied steps) id name) (hm' : Made (Applied steps) id' name') : sameObject name name' = false := by
  obtain ⟨g, hg, rfl⟩ := hm
  obtain ⟨g', hg', rfl⟩ := hm'
  rw [Bool.eq_false_iff]
  intro hsame
  obtain ⟨hid, rfl⟩ := sameObject_jobName hsame
  exact hne (h id id' g hg hg' hid)

theorem actuations_isolated {steps : List Step} (hcommands : ∀ st ∈ steps, isCommand st = true) (hcase : CaseDistinct steps) :
    Isolated uuidParse applyDigest steps := by
  have hrun : Named (Applied steps) (run uuidParse applyDigest steps) := run_named (List.Subset.refl steps) hcommands
  constructor
  · intro id id' name name' hne hb hb'
    exact hcase.sameObject hne (hrun.made hb) (hrun.made hb')
  · intro pre st post gate ans cmd new hsteps hst hnew name answer hended id name' hne hb
    have hpre : pre ⊆ steps := by
      rw [hsteps]
      exact subset_append_left pre (st :: post)
    have hstart : Cleaning (Applied steps) cmd.actuationID (run uuidParse applyDigest pre).trace (run uuidParse applyDigest pre) :=
      ⟨run_named hpre hcommands, [], (append_nil _).symm, nofun⟩
    obtain ⟨new', hnew', hmade⟩ := (cleaning_cleanup uuidParse gate ans cmd _ hstart).ended
    have hsame : new = new' := append_cancel_left (hnew.symm.trans hnew')
    exact hcase.sameObject hne.symm (hmade name answer (hsame ▸ hended)) (hrun.made hb)

end Runs

section Scenario

def isHexDigit (c : Char) : Bool := c.isDigit || ('a' ≤ c && c ≤ 'f') || ('A' ≤ c && c ≤ 'F')

def isStandardUuid (s : String) : Bool :=
  let groups := (s.toList.splitOn '-')
  groups.map List.length == [8, 4, 4, 4, 12] && groups.flatten.all isHexDigit

def upperId : String := "AAAAAAAA-0000-4000-8000-000000000001"

def lowerId : String := "aaaaaaaa-0000-4000-8000-000000000001"

def otherId : String := "bbbbbbbb-0000-4000-8000-000000000002"

def applyOf (id : String) : Step :=
  .call (.apply launchOk { applyOne with actuationID := id, requestID := otherId, deviceID := otherId, orgID := otherId })

def cleanupStep (id : String) : Step :=
  .call (.cleanup true cleanOk { cleanupOf id with requestID := otherId, deviceID := otherId, orgID := otherId })

theorem two_actuations_isolated :
    Isolated isStandardUuid (fun _ => .ok "digest") [applyOf upperId, applyOf otherId, cleanupStep otherId] := by
  refine actuations_isolated (by decide) ?_
  have happlied : ∀ id g, Applied [applyOf upperId, applyOf otherId, cleanupStep otherId] id g → id = upperId ∨ id = otherId := by
    rintro id g ⟨st, hst, happlied⟩
    simp only [mem_cons, not_mem_nil, or_false] at hst
    rcases hst with rfl | rfl | rfl
    · exact .inl (congrArg Prod.fst (Option.some.inj happlied)).symm
    · exact .inr (congrArg Prod.fst (Option.some.inj happlied)).symm
    · cases happlied
  have hcase : upperId.toLower ≠ otherId.toLower := by decide +kernel
  intro id id' g h h' heq
  rcases happlied id g h with rfl | rfl <;> rcases happlied id' g h' with rfl | rfl
  · rfl
  · exact absurd heq hcase
  · exact absurd heq.symm hcase
  · rfl

def hasBound (trace : List Event) (id : String) : Bool :=
  trace.any fun
    | .wrote entries => (entries.lookup id).any fun e => e.jobName != ""
    | _ => false

def hasEnded (trace : List Event) : Bool :=
  trace.any fun
    | .terminated _ _ => true
    | _ => false

lemma bound_of_hasBound {trace : List Event} {id : String} (h : hasBound trace id = true) : ∃ name, Bound trace id name := by
  obtain ⟨e, he, hbound⟩ := List.any_eq_true.mp h
  cases e with
  | wrote entries =>
    cases hentry : entries.lookup id with
    | none => simp [hentry] at hbound
    | some entry => exact ⟨entry.jobName, entries, entry, he, hentry, rfl, by simpa [hentry] using hbound⟩
  | _ => cases hbound

lemma ended_of_hasEnded {trace : List Event} (h : hasEnded trace = true) : ∃ name answer, .terminated name answer ∈ trace := by
  obtain ⟨e, he, hended⟩ := List.any_eq_true.mp h
  cases e with
  | terminated name answer => exact ⟨name, answer, he⟩
  | _ => cases hended

section Shared

variable {uuidParse : String → Bool} {applyDigest : ApplyCommand → Except String String} {steps : List Step} {id id' : String}

variable (hcommands : ∀ st ∈ steps, isCommand st = true) (hone : ∀ id g, Applied steps id g → g = 1)
  (hjob : jobName id 1 = jobName id' 1) (hb : hasBound (run uuidParse applyDigest steps).trace id = true)

include hcommands hone hjob hb

lemma not_isolated (hne : id ≠ id')
    (hb' : hasBound (run uuidParse applyDigest steps).trace id' = true) : ¬ Isolated uuidParse applyDigest steps := by
  intro h
  have hnamed : Named (Applied steps) (run uuidParse applyDigest steps) := run_named (List.Subset.refl _) hcommands
  obtain ⟨name, hname⟩ := bound_of_hasBound hb
  obtain ⟨name', hname'⟩ := bound_of_hasBound hb'
  have hsame := h.names id id' name name' hne hname hname'
  obtain ⟨g, hg, rfl⟩ := hnamed.made hname
  obtain ⟨g', hg', rfl⟩ := hnamed.made hname'
  rw [hone id g hg, hone id' g' hg', hjob] at hsame
  simp [sameObject] at hsame

lemma ends_job_of {gate : Bool} {ans : CleanupAnswers} {cmd : CleanupCommand} (hcmd : cmd.actuationID = id')
    (hquiet : hasEnded (run uuidParse applyDigest steps).trace = false)
    (hended : hasEnded (run uuidParse applyDigest (steps ++ [.call (.cleanup gate ans cmd)])).trace = true) :
    ∃ name answer, Bound (run uuidParse applyDigest steps).trace id name ∧
      .terminated name answer ∈ (run uuidParse applyDigest (steps ++ [.call (.cleanup gate ans cmd)])).trace := by
  have hnamed : Named (Applied steps) (run uuidParse applyDigest steps) := run_named (List.Subset.refl _) hcommands
  have hstart : Cleaning (Applied steps) cmd.actuationID (run uuidParse applyDigest steps).trace (run uuidParse applyDigest steps) :=
    ⟨hnamed, [], (append_nil _).symm, nofun⟩
  obtain ⟨new, hnew, hmade⟩ := (cleaning_cleanup uuidParse gate ans cmd _ hstart).ended
  have htrace : (run uuidParse applyDigest (steps ++ [.call (.cleanup gate ans cmd)])).trace =
      (run uuidParse applyDigest steps).trace ++ new := by
    rw [run, foldl_append]
    exact hnew
  obtain ⟨name, hname⟩ := bound_of_hasBound hb
  obtain ⟨name', answer, hmem⟩ := ended_of_hasEnded hended
  refine ⟨name, answer, hname, ?_⟩
  obtain ⟨g, hg, rfl⟩ := hnamed.made hname
  have hown := hmem
  rw [htrace] at hown
  rcases List.mem_append.mp hown with hold | hown
  · exact absurd (List.any_eq_true.mpr ⟨_, hold, rfl⟩) (Bool.eq_false_iff.mp hquiet)
  · obtain ⟨g', hg', rfl⟩ := hmade name' answer hown
    rw [hone id g hg, hjob]
    rw [hone _ g' hg', hcmd] at hmem
    exact hmem

end Shared

def sharedSteps : List Step := [applyOf upperId, applyOf lowerId]

lemma jobName_shared : jobName upperId 1 = jobName lowerId 1 := by
  have hid : upperId.toLower = lowerId.toLower := by
    refine String.toList_inj.mp ?_
    rw [toList_toLower, toList_toLower]
    decide +kernel
  unfold jobName
  rw [hid]

lemma shared_run :
    let before := run isStandardUuid (fun _ => .ok "digest") sharedSteps
    let after := run isStandardUuid (fun _ => .ok "digest") (sharedSteps ++ [cleanupStep lowerId])
    (hasBound before.trace upperId = true ∧ hasEnded before.trace = false) ∧ hasEnded after.trace = true ∧
      hasBound after.trace upperId = true ∧ hasBound after.trace lowerId = true ∧
      (after.store.entries.lookup upperId).map LedgerEntry.desiredState = some .active := by
  decide +kernel

/-- Two spellings of one UUID are two actuations with one job: the cleanup of one ends the job of the other, which is active. -/
theorem spellings_share_job :
    isStandardUuid upperId = true ∧ isStandardUuid lowerId = true ∧
      ¬ Isolated isStandardUuid (fun _ => .ok "digest") (sharedSteps ++ [cleanupStep lowerId]) ∧
      (∃ name answer, Bound (run isStandardUuid (fun _ => .ok "digest") sharedSteps).trace upperId name ∧
        .terminated name answer ∈ (run isStandardUuid (fun _ => .ok "digest") (sharedSteps ++ [cleanupStep lowerId])).trace) ∧
      ((run isStandardUuid (fun _ => .ok "digest") (sharedSteps ++ [cleanupStep lowerId])).store.entries.lookup upperId).map
        LedgerEntry.desiredState = some .active := by
  obtain ⟨⟨hbefore, hquiet⟩, hended, hupper, hlower, hactive⟩ := shared_run
  have hone : ∀ id g, Applied (sharedSteps ++ [cleanupStep lowerId]) id g → g = 1 := by
    rintro id g ⟨st, hst, happlied⟩
    simp only [sharedSteps, mem_append, mem_cons, not_mem_nil, or_false] at hst
    rcases hst with (rfl | rfl) | rfl
    · exact (congrArg Prod.snd (Option.some.inj happlied)).symm
    · exact (congrArg Prod.snd (Option.some.inj happlied)).symm
    · cases happlied
  refine ⟨by decide +kernel, by decide +kernel, ?_, ?_, hactive⟩
  · exact not_isolated (by decide) hone jobName_shared hupper (by decide +kernel) hlower
  · refine ends_job_of (by decide) (fun id g h => ?_) jobName_shared hbefore rfl hquiet hended
    obtain ⟨st, hst, happlied⟩ := h
    exact hone id g ⟨st, mem_append_left _ hst, happlied⟩

end Scenario

end Breeze.Pam.Isolation
