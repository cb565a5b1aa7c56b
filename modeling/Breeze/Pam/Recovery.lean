import Breeze.Pam.AtMostOnce
import Breeze.Pam.Discipline

/-! Disabling after any history: what SetEnabled(false) clears when every primitive succeeds and reports clean evidence. -/

namespace Breeze.Pam.Recovery

open Breeze.Lib.Stateful Breeze.Lib.Sections Ledger Manager Durability Interleaving Discipline

section Clean

def Boots (answer : Except String String) : Prop := ∃ bootID, currentBootID answer = .ok bootID

def cleanEvidence : AccountEvidence := ⟨false, false⟩

structure CleanAccount (ans : AccountAnswers) : Prop where
  bootID : Boots ans.bootID
  deprovision : ans.deprovision = some cleanEvidence
  verifyClean : ans.verifyClean = some cleanEvidence
  tokenScan : ans.tokenScan = .ok false

structure CleanAnswers (ans : CleanupAnswers) : Prop where
  bootID : Boots ans.bootID
  prepare : ans.prepare = {}
  terminate : ans.terminate = .ok 0
  deprovision : ans.deprovision = some cleanEvidence
  verifyClean : ans.verifyClean = some cleanEvidence
  tokenScan : ans.tokenScan = .ok false
  clear : ans.clear = {}

structure Clean (ans : EnableAnswers) : Prop where
  gate : ans.gate = .ok ()
  account : CleanAccount ans.account
  cleanup : ∀ id, CleanAnswers (ans.cleanup id)

end Clean

section Step

variable {uuidParse : String → Bool} {α β : Type} {m m' : LifecycleManager} {ans : CleanupAnswers} {entry : LedgerEntry}

def target (entry : LedgerEntry) : UInt64 := if entry.desiredState = .active then entry.generation + 1 else entry.generation

lemma target_toNat (h : Cleanable uuidParse entry) : (target entry).toNat = cover entry := by
  unfold target cover
  split_ifs with hactive
  · rw [UInt64.toNat_add]
    exact Nat.mod_eq_of_lt (h.fits hactive)
  · rfl

structure Tombstone (generation : UInt64) (e : LedgerEntry) : Prop where
  state : e.desiredState = .cleanup
  generation : e.generation = generation
  whole : hasAnyProcessIdentity e = true → hasCompleteProcessIdentity e = true

structure Tidies (id : String) (m m' : LifecycleManager) : Prop where
  flags : flags m' = flags m
  loadErr : m'.store.loadErr = m.store.loadErr
  others : ∀ k, k ≠ id → m'.store.entries.lookup k = m.store.entries.lookup k

variable {id : String} {s : Store} {now : Time}

lemma Tidies.trans {m'' : LifecycleManager} (h : Tidies id m m') (h' : Tidies id m' m'') : Tidies id m m'' :=
  ⟨h'.flags.trans h.flags, h'.loadErr.trans h.loadErr, fun k hk => (h'.others k hk).trans (h.others k hk)⟩

lemma tidies_onStore {sound : Prop} {f : Store → Outcome α}
    (hf : Revises uuidParse sound id m.store (f m.store).store (f m.store).writes) : Tidies id m ((onStore f).run m).2 :=
  ⟨rfl, hf.grows.loadErr, hf.others⟩

lemma prepareCleanup_clean (hl : s.loadErr = none) (he : s.entries.lookup entry.actuationID = some entry)
    (hc : Cleanable uuidParse entry) :
    (∃ d, (prepareCleanup uuidParse s {} now (cleanupCommandFromEntry entry (target entry))).value = .ok d) ∧
      ∃ e, (prepareCleanup uuidParse s {} now (cleanupCommandFromEntry entry (target entry))).store.entries.lookup
        entry.actuationID = some e ∧ Tombstone (target entry) e := by
  have hids : validateIdentity uuidParse 2 [entry.actuationID, entry.requestID, entry.deviceID, entry.orgID] = none := by
    simp only [validateIdentity, hc.ids]
    rfl
  have hmatch : matchIdentity entry entry.requestID entry.deviceID entry.orgID = none := by simp [matchIdentity]
  simp only [prepareCleanup, cleanupCommandFromEntry, hids, hl, he, hmatch]
  cases hstate : entry.desiredState with
  | active =>
    have hlt : entry.generation < target entry := by
      rw [UInt64.lt_iff_toNat_lt, target_toNat hc, cover, if_pos hstate]
      exact Nat.lt_succ_self _
    have hstale : ¬ target entry < entry.generation := UInt64.not_lt.mpr (UInt64.le_of_lt hlt)
    have hequal : ¬ target entry = entry.generation := (UInt64.ne_of_lt hlt).symm
    simp only [hstale, hequal, if_false]
    exact ⟨⟨.cleanup, rfl⟩, _, AList.lookup_insert _, rfl, rfl, hc.whole⟩
  | cleanup =>
    have htarget : target entry = entry.generation := by simp [target, hstate]
    simp only [htarget, UInt64.lt_irrefl, if_false, if_true]
    exact ⟨⟨.duplicate, rfl⟩, entry, he, hstate, rfl, hc.whole⟩

lemma clearProcessIdentity_clean {generation : UInt64} {e : LedgerEntry}
    (hl : s.loadErr = none) (he : s.entries.lookup id = some e) (ht : Tombstone generation e) :
    (clearProcessIdentity s {} now id generation).value = .ok () := by
  have hcurrent : ¬ (e.desiredState ≠ .cleanup ∨ e.generation ≠ generation) := by simp [ht.state, ht.generation]
  simp only [clearProcessIdentity, hl, he, if_neg hcurrent]
  rfl

lemma endJob_clean (ha : CleanAnswers ans) {e : LedgerEntry} {generation : UInt64} (ht : Tombstone generation e) (bootID : String)
    (ownsJob : Bool) : ((endJob ans e bootID ownsJob).run m).1 = .ok false := by
  have hpartial : (hasAnyProcessIdentity e && !hasCompleteProcessIdentity e) = false := by
    cases hany : hasAnyProcessIdentity e with
    | false => rfl
    | true => simp [ht.whole hany]
  simp only [endJob, hpartial, Bool.false_eq_true, if_false, ha.terminate]
  split_ifs <;> rfl

lemma retireAccount_clean (ha : CleanAnswers ans) : ((retireAccount ans).run m).1 = .ok cleanEvidence := by
  simp only [retireAccount, ha.deprovision, ha.verifyClean, ha.tokenScan]
  rfl

/-- The cleanup of an actuation has begun in `m₀`, and the ledger has the entry for it. -/
structure Ready (m₀ : LifecycleManager) (id : String) (e : LedgerEntry) (m : LifecycleManager) : Prop where
  tidies : Tidies id m₀ m
  loadErr : m.store.loadErr = none
  entry : m.store.entries.lookup id = some e

variable {m₀ : LifecycleManager} {cmd : CleanupCommand} {e : LedgerEntry}

lemma Ready.still (h : Ready m₀ id e m) (hs : Still m m') : Ready m₀ id e m' :=
  ⟨h.tidies.trans ⟨hs.flags, by rw [hs.store], fun k _ => by rw [hs.store]⟩, by rw [hs.store]; exact h.loadErr, by rw [hs.store]; exact h.entry⟩

lemma triple_quiet {x : Op α} {a : α} (hx : Quiet x) (ha : ∀ m, (x.run m).1 = a) :
    Triple (Ready m₀ id e) x fun v m => v = a ∧ Ready m₀ id e m :=
  fun m hm => ⟨ha m, hm.still (hx m)⟩

structure Cleaned (m₀ : LifecycleManager) (cmd : CleanupCommand) (result : Result) (m : LifecycleManager) : Prop where
  state : result.state = .cleaned
  generation : result.generation = cmd.generation
  tidies : Tidies cmd.actuationID m₀ m

lemma proveClean_clean (ha : CleanAnswers ans) (bootID : String) (ht : Tombstone cmd.generation e) :
    Triple (Ready m₀ cmd.actuationID e) (proveClean ans cmd bootID e) (Cleaned m₀ cmd) := by
  refine Triple.bind (Q := fun _ => Ready m₀ cmd.actuationID e) (fun m hm => hm) fun m => ?_
  refine Triple.bind (triple_quiet (quiet_endJob ans e bootID _) fun m => endJob_clean ha ht bootID _) fun r => ?_
  rcases r with code | jobObjectAbsent
  · exact fun m hm => nomatch hm.1
  refine Triple.bind (Q := fun v m => v = .ok cleanEvidence ∧ Ready m₀ cmd.actuationID e m) (fun m hm => ?_) fun r => ?_
  · exact triple_quiet (quiet_retireAccount ans) (fun m => retireAccount_clean ha) m hm.2
  rcases r with code | verified
  · exact fun m hm => nomatch hm.1
  refine Triple.bind (Q := fun v m => v = .ok () ∧ Tidies cmd.actuationID m₀ m) (fun m hm => ?_) fun r => ?_
  · rw [ha.clear]
    refine ⟨clearProcessIdentity_clean hm.2.loadErr hm.2.entry ht, hm.2.tidies.trans ?_⟩
    have hrevises : Revises (fun _ => true) True cmd.actuationID m.store
        (clearProcessIdentity m.store {} ans.now cmd.actuationID cmd.generation).store
        (clearProcessIdentity m.store {} ans.now cmd.actuationID cmd.generation).writes := revises_clearProcessIdentity
    exact tidies_onStore hrevises
  rcases r with err | u
  · exact fun m hm => nomatch hm.1
  · exact fun m hm => ⟨rfl, rfl, hm.2.trans ⟨rfl, rfl, fun _ _ => rfl⟩⟩

lemma cleanupLocked_clean (ha : CleanAnswers ans) (hc : Cleanable uuidParse entry) :
    Triple (Ready m₀ entry.actuationID entry) (cleanupLocked uuidParse ans (cleanupCommandFromEntry entry (target entry)))
      (Cleaned m₀ (cleanupCommandFromEntry entry (target entry))) := by
  obtain ⟨bootID, hboot⟩ := ha.bootID
  simp only [cleanupLocked, hboot, ha.prepare]
  refine Triple.bind (Q := fun v m => (∃ d, v = .ok d) ∧ ∃ e, Ready m₀ entry.actuationID e m ∧ Tombstone (target entry) e)
    (fun m hm => ?_) fun r => ?_
  · obtain ⟨hv, e, he, ht⟩ := prepareCleanup_clean hm.loadErr hm.entry hc
    have hrevises : Revises uuidParse True (cleanupCommandFromEntry entry (target entry)).actuationID m.store
        (prepareCleanup uuidParse m.store {} ans.now (cleanupCommandFromEntry entry (target entry))).store
        (prepareCleanup uuidParse m.store {} ans.now (cleanupCommandFromEntry entry (target entry))).writes :=
      revises_prepareCleanup (prepareCleanup_cases _)
    exact ⟨hv, e, ⟨hm.tidies.trans (tidies_onStore hrevises), hrevises.grows.loadErr.trans hm.loadErr, he⟩, ht⟩
  rcases r with err | d
  · rintro m ⟨⟨d, hd⟩, -⟩
    cases hd
  refine Triple.get_bind fun m hm => ?_
  obtain ⟨-, e, hready, ht⟩ := hm
  have hentry : m.store.entries.lookup (cleanupCommandFromEntry entry (target entry)).actuationID = some e := hready.entry
  rw [hentry]
  rintro _ rfl
  exact proveClean_clean ha bootID ht _ hready

end Step

section Disable

variable {uuidParse : String → Bool} {ans : EnableAnswers} {m : LifecycleManager}

structure Pending (uuidParse : String → Bool) (entries : List LedgerEntry) (m : LifecycleManager) : Prop where
  loadErr : m.store.loadErr = none
  distinct : (entries.map (·.actuationID)).Nodup
  cleanable : ∀ e ∈ entries, Cleanable uuidParse e
  recorded : ∀ e ∈ entries, m.store.entries.lookup e.actuationID = some e
  covered : ∀ k g, m.unresolved.lookup k = some g → ∃ e ∈ entries, e.actuationID = k ∧ g.toNat ≤ cover e

lemma clearThrough_lookup {key : String} {generation g : UInt64} {k : String}
    (hle : ∀ g, m.unresolved.lookup key = some g → g ≤ generation)
    (h : ((clearUnresolvedThrough key generation).run m).2.unresolved.lookup k = some g) :
    k ≠ key ∧ m.unresolved.lookup k = some g := by
  have hm := unresolved_of_clearThrough h
  refine ⟨fun hk => ?_, hm⟩
  subst hk
  have hcovered : generation ≥ g := hle g hm
  have herase : ((clearUnresolvedThrough k generation).run m).2.unresolved = m.unresolved.erase k := by
    simp [clearUnresolvedThrough, hm, hcovered, pure]
  rw [herase, AList.lookup_erase] at h
  cases h

variable {m₀ : LifecycleManager} {s : Store}

lemma Pending.tail {entry : LedgerEntry} {rest : List LedgerEntry} {result : Result}
    (h : Pending uuidParse (entry :: rest) m₀) (hm : Cleaned m₀ (cleanupCommandFromEntry entry (target entry)) result m) :
    Pending uuidParse rest ((recordCleanupOutcome entry.actuationID result).run m).2 := by
  have hc := h.cleanable entry List.mem_cons_self
  obtain ⟨hfresh, hdistinct⟩ := List.nodup_cons.mp h.distinct
  obtain ⟨-, -, hunres⟩ := flags_eq hm.tidies.flags
  simp only [recordCleanupOutcome, if_pos hm.state]
  refine ⟨hm.tidies.loadErr.trans h.loadErr, hdistinct, fun e he => h.cleanable e (List.mem_cons_of_mem _ he), fun e he => ?_,
    fun k g hk => ?_⟩
  · have hne : e.actuationID ≠ entry.actuationID := fun heq => hfresh (List.mem_map.mpr ⟨e, he, heq⟩)
    exact (hm.tidies.others e.actuationID hne).trans (h.recorded e (List.mem_cons_of_mem _ he))
  · -- the entry covers its own mark, which is cleared
    have hown (g : UInt64) (hg : m.unresolved.lookup entry.actuationID = some g) : g ≤ result.generation := by
      rw [hunres] at hg
      obtain ⟨e, he, hek, hcover⟩ := h.covered _ g hg
      rw [hm.generation, UInt64.le_iff_toNat_le]
      rcases List.mem_cons.mp he with rfl | he
      · exact hcover.trans (target_toNat hc).ge
      · exact absurd (List.mem_map.mpr ⟨e, he, hek⟩) hfresh
    obtain ⟨hne, hmark⟩ := clearThrough_lookup hown hk
    rw [hunres] at hmark
    obtain ⟨e, he, hek, hcover⟩ := h.covered k g hmark
    rcases List.mem_cons.mp he with rfl | he
    · exact absurd hek.symm hne
    · exact ⟨e, he, hek, hcover⟩

lemma disableEntries_clean (ha : Clean ans) (entries : List LedgerEntry) :
    Triple (Pending uuidParse entries) (disableEntries uuidParse ans entries) fun failures m => failures = [] ∧ Pending uuidParse [] m := by
  induction entries with
  | nil => exact fun m hm => ⟨rfl, hm⟩
  | cons entry rest ih =>
    intro m₀ hm₀
    have hentry := hm₀.recorded entry List.mem_cons_self
    have hc := hm₀.cleanable entry List.mem_cons_self
    have hready : Ready m₀ entry.actuationID entry m₀ := ⟨⟨rfl, rfl, fun _ _ => rfl⟩, hm₀.loadErr, hentry⟩
    have hdistinct := List.nodup_cons.mp hm₀.distinct
    suffices hall : Triple (fun m => m = m₀) (disableEntries uuidParse ans (entry :: rest))
        (fun failures m => failures = [] ∧ Pending uuidParse [] m) from hall m₀ rfl
    refine Triple.bind (Q := Cleaned m₀ (cleanupCommandFromEntry entry (target entry))) (fun m hm => ?_) (fun result => ?_)
    · subst hm
      exact cleanupLocked_clean (ha.cleanup _) hc m hready
    refine Triple.bind (Q := fun _ m => result.state = .cleaned ∧ Pending uuidParse rest m) (fun m hm => ?_) fun _ => ?_
    · exact ⟨hm.state, hm₀.tail hm⟩
    · intro m hm
      have hne : result.state ≠ .failed := by
        rw [hm.1]
        nofun
      have hrest := ih m hm.2
      simp only [if_neg hne]
      exact hrest

lemma keys_nil_of_lookup {β : Type} {l : AList fun _ : String => β} (h : ∀ k, l.lookup k = none) : l.keys = [] := by
  refine List.eq_nil_iff_forall_not_mem.mpr fun k hk => ?_
  exact AList.lookup_eq_none.mp (h k) (AList.mem_keys.mpr hk)

lemma Pending.none_left (h : Pending uuidParse [] m) : m.unresolved.keys = [] := by
  refine keys_nil_of_lookup fun k => ?_
  cases hk : m.unresolved.lookup k with
  | none => rfl
  | some g =>
    obtain ⟨e, he, -⟩ := h.covered k g hk
    cases he

structure Recoverable (uuidParse : String → Bool) (m : LifecycleManager) : Prop where
  records : Records uuidParse True m
  due : ∀ k g, m.unresolved.lookup k = some g → Due m.store k g

lemma sortedEntries_distinct (hk : Keyed s.entries) : ((sortedEntries s).map (·.actuationID)).Nodup := by
  have hkeys : (s.entries.entries.map (·.2)).map (·.actuationID) = s.entries.keys := by
    rw [List.map_map]
    refine List.map_congr_left fun e he => ?_
    exact hk e.1 e.2 (AList.mem_lookup_iff.mpr he)
  refine (List.Perm.map _ (List.mergeSort_perm _ _)).nodup_iff.mpr ?_
  rw [hkeys]
  exact s.entries.keys_nodup

lemma Recoverable.pending (h : Recoverable uuidParse m) (hl : m.store.loadErr = none) {m' : LifecycleManager}
    (hstore : m'.store = m.store)
    (hmarks : ∀ k g, m'.unresolved.lookup k = some g → Covered m.store k g) :
    Pending uuidParse (sortedEntries m.store) m' := by
  have hk := h.records.memory.keyed
  refine ⟨hstore ▸ hl, sortedEntries_distinct hk, fun e he => ?_, fun e he => ?_, fun k g hkg => ?_⟩
  · exact h.records.memory.cleanable trivial _ e (mem_sortedEntries hk he)
  · rw [hstore]
    exact mem_sortedEntries hk he
  · obtain ⟨e, he, hcover⟩ := hmarks k g hkg
    exact ⟨e, List.mem_mergeSort.mpr (List.mem_map.mpr ⟨⟨k, e⟩, AList.mem_lookup_iff.mp he, rfl⟩), hk k e he, hcover⟩

lemma verifyAccountClean_clean {ans : AccountAnswers} (ha : CleanAccount ans) (evidence : ResultEvidence) :
    ((verifyAccountClean ans evidence).run m).1.2.2 = true := by
  simp only [verifyAccountClean, ha.deprovision, ha.verifyClean, ha.tokenScan]
  rfl

section

variable (ha : Clean ans) (h : Recoverable uuidParse m₀) (hl : m₀.store.loadErr = none)

include ha h hl

lemma disableAccount_clean :
    Triple (fun m => m = m₀) (disableAccount ans) fun failures m => failures = [] ∧ Pending uuidParse (sortedEntries m₀.store) m := by
  have hdue (k : String) (g : UInt64) (hk : m₀.unresolved.lookup k = some g) :
      Covered m₀.store k g ∨ (k = "__account__" ∧ Vacant m₀.store) := by
    rcases h.due k g hk with hload | hdue
    · rw [hl] at hload
      cases hload
    · exact hdue
  simp only [disableAccount]
  refine Triple.get_bind fun m hm => ?_
  subst hm
  have hload : m.store.loadErr.isSome = false := by rw [hl]; rfl
  simp only [hload, Bool.false_eq_true, if_false]
  cases hkeys : m.store.entries.keys.isEmpty with
  | false =>
    rintro _ rfl
    refine ⟨rfl, h.pending hl rfl fun k g hk => ?_⟩
    rcases hdue k g hk with hcovered | ⟨-, hvacant⟩
    · exact hcovered
    · have hnil := keys_nil_of_lookup hvacant
      rw [hnil] at hkeys
      cases hkeys
  | true =>
    obtain ⟨bootID, hboot⟩ := ha.account.bootID
    simp only [hboot]
    refine Triple.bind (Q := fun r m' => r.2.2 = true ∧ Still m m') (fun m' hm' => ?_) fun r => ?_
    · subst hm'
      exact ⟨verifyAccountClean_clean ha.account _, quiet_verifyAccountClean ans.account _ m'⟩
    · obtain ⟨evidence, code, verified⟩ := r
      rintro m' ⟨hverified, hstill⟩
      dsimp only at hverified
      subst hverified
      refine ⟨rfl, h.pending hl hstill.store fun k g hk => ?_⟩
      change (m'.unresolved.erase "__account__").lookup k = some g at hk
      have hk' := unresolved_of_erase hk
      rw [(flags_eq hstill.flags).2.2] at hk'
      rcases hdue k g hk' with hcovered | ⟨rfl, -⟩
      · exact hcovered
      · rw [AList.lookup_erase] at hk
        cases hk

lemma disable_clean :
    Triple (fun m => m = m₀) (disable uuidParse ans) fun err m => err = none ∧ m.available = true := by
  have hclosed : Recoverable uuidParse { m₀ with admissionOpen := false } := ⟨⟨h.records.memory, h.records.written⟩, h.due⟩
  refine Triple.bind (Q := fun _ m => m = { m₀ with admissionOpen := false }) (fun m hm => ?_) fun _ => ?_
  · subst hm
    rfl
  refine Triple.get_bind fun m hm => ?_
  subst hm
  refine Triple.bind (disableAccount_clean ha hclosed hl) fun failures => ?_
  refine Triple.bind (Q := fun more m => failures = [] ∧ more = [] ∧ Pending uuidParse [] m) (fun m hm => ?_) fun more => ?_
  · exact ⟨hm.1, disableEntries_clean ha _ m hm.2⟩
  refine Triple.get_bind fun m hm => ?_
  obtain ⟨rfl, rfl, hpending⟩ := hm
  have hkeys : m.unresolved.keys.isEmpty = true := List.isEmpty_iff.mpr hpending.none_left
  rintro _ rfl
  simp only [List.append_nil, reportedFailures, hkeys]
  exact ⟨rfl, hkeys⟩

lemma setEnabled_clean :
    Triple (fun m => m = m₀) (setEnabled uuidParse ans false) fun err m => err = none ∧ m.available = true := by
  simp only [setEnabled, ha.gate]
  refine Triple.get_bind fun m hm => ?_
  subst hm
  simp only [Bool.false_eq_true, if_false]
  split_ifs with hdone
  · rintro _ rfl
    exact ⟨rfl, (Bool.and_eq_true_iff.mp (Bool.and_eq_true_iff.mp hdone).1).2⟩
  · exact disable_clean ha h hl

end

end Disable

section Run

variable (uuidParse : String → Bool) (applyDigest : ApplyCommand → Except String String)

def due (s : Store) (key : String) (generation : UInt64) : Bool :=
  s.loadErr.isSome || (s.entries.lookup key).any (fun e => decide (generation.toNat ≤ cover e)) ||
    (decide (key = "__account__") && s.entries.keys.isEmpty)

def accountFree (m : LifecycleManager) : Bool := !m.store.entries.keys.isEmpty || (m.unresolved.lookup "__account__").isNone

def meetsSection (m : LifecycleManager) : Label → Bool
  | .marked .other _ _ => true
  | .marked _ key generation => due m.store key generation
  | .prepared cmd => decide (cmd.generation.toNat + 1 < 2 ^ 64) && accountFree m
  | .bound process => decide (0 < process.pid)
  | .cleaned _ => accountFree m
  | _ => true

def meets (sys : System) : Step → Bool
  | .advance i => ((sys.threads[i]?).bind (·.program.label?)).all (meetsSection sys.state)
  | _ => true

def meetsAll : System → List Step → Bool
  | _, [] => true
  | sys, st :: steps => meets sys st && meetsAll (step uuidParse applyDigest sys st) steps

variable {uuidParse : String → Bool} {applyDigest : ApplyCommand → Except String String} {sys : System}

lemma due_spec {s : Store} {key : String} {generation : UInt64} (h : due s key generation = true) : Due s key generation := by
  simp only [due, Bool.or_eq_true, Bool.and_eq_true, decide_eq_true_eq, Option.any_eq_true] at h
  rcases h with (h | ⟨e, he, hc⟩) | ⟨hk, hkeys⟩
  · exact Or.inl h
  · exact Or.inr (Or.inl ⟨e, he, hc⟩)
  · exact Or.inr (Or.inr ⟨hk, vacant_of_keys hkeys⟩)

variable {m m' : LifecycleManager} {inside : Bool} {label : Label}

lemma Due.next {k : String} {g : UInt64}
    (h : Due m.store k g) (hg : Guar uuidParse inside label m m') (hadds : Adds label → k = "__account__" → ¬ Vacant m.store) :
    Due m'.store k g := by
  rcases h with hl | hc | ⟨hk, hv⟩
  · exact Or.inl (hg.grows.loadErr ▸ hl)
  · exact Or.inr (Or.inl (hc.grows hg.grows))
  · exact Or.inr (Or.inr ⟨hk, hg.vacant (fun ha => hadds ha hk hv) hv⟩)

lemma Recoverable.next (h : Recoverable uuidParse m)
    (hg : Guar uuidParse inside label m m') (hm : meetsSection m label = true) : Recoverable uuidParse m' := by
  have hsound : SoundInput label := by
    cases label with
    | prepared cmd =>
      have hgen : cmd.generation.toNat + 1 < 2 ^ 64 := of_decide_eq_true (Bool.and_eq_true_iff.mp hm).1
      exact hgen
    | bound process =>
      have hpid : 0 < process.pid := of_decide_eq_true hm
      exact hpid
    | _ => trivial
  have hfree (ha : Adds label) : accountFree m = true := by
    cases label with
    | prepared cmd => exact (Bool.and_eq_true_iff.mp hm).2
    | cleaned cmd => exact hm
    | _ => exact ha.elim
  refine ⟨hg.records True True (fun _ => ⟨trivial, hsound⟩) h.records, fun k g hk => ?_⟩
  rcases hg.unresolved k g hk with hold | ⟨origin, rfl⟩
  · refine Due.next (h.due k g hold) hg fun ha hk hv => ?_
    subst hk
    have hnone := hfree ha
    simp [accountFree, keys_nil_of_lookup hv, hold] at hnone
  · have hdue : Due m.store k g := by
      cases origin with
      | other => exact (hg.marks _ k g rfl).2 rfl
      | cleanup | setEnabled => exact due_spec hm
    exact Due.next hdue hg fun ha => ha.elim

lemma recoverable_steps {steps : List Step} (hm : meetsAll uuidParse applyDigest sys steps = true)
    (h : Kept Rely (Guar uuidParse) (Recoverable uuidParse) sys) :
    Kept Rely (Guar uuidParse) (Recoverable uuidParse) (steps.foldl (step uuidParse applyDigest) sys) := by
  induction steps generalizing sys with
  | nil => exact h
  | cons st steps ih =>
    obtain ⟨hst, hrest⟩ := Bool.and_eq_true_iff.mp hm
    refine ih hrest (kept_step h (fun m hm => hm.records.memory.keyed) (fun readErr => ?_) st ?_)
    · exact ⟨h.state.records.restarted readErr, fun k g hk => nomatch hk⟩
    · rintro i t label m' rfl ht hl hg
      refine h.state.next hg ?_
      simpa [meets, ht, hl] using hst

theorem disable_recovers {steps : List Step} (h : meetsAll uuidParse applyDigest { state := {} } steps = true)
    {ans : EnableAnswers} (ha : Clean ans) (hl : (run uuidParse applyDigest steps).state.store.loadErr = none) :
    ((setEnabledP uuidParse ans false).alone.run (run uuidParse applyDigest steps).state).1 = none ∧
      ((setEnabledP uuidParse ans false).alone.run (run uuidParse applyDigest steps).state).2.available = true := by
  have hkept : Kept Rely (Guar uuidParse) (Recoverable uuidParse) (run uuidParse applyDigest steps) := by
    refine recoverable_steps h ⟨⟨records_initial, fun k g hk => ?_⟩, nofun, nofun⟩
    exact nomatch hk
  rw [setEnabledP_alone]
  exact setEnabled_clean ha hkept.state hl _ rfl

end Run

section Scenario

open AtMostOnce (cleanOk cleanupOf launchOk applyOne)

def disableOk : EnableAnswers where
  gate := .ok ()
  account := ⟨.ok "boot", some ⟨false, false⟩, some ⟨false, false⟩, .ok false⟩
  cleanup := fun _ => cleanOk

lemma disableOk_clean : Clean disableOk := by
  have hboot : Boots (.ok "boot") := ⟨"boot", by decide⟩
  exact ⟨rfl, ⟨hboot, rfl, rfl, rfl⟩, fun _ => ⟨hboot, rfl, rfl, rfl, rfl, rfl, rfl⟩⟩

def launched : List Step :=
  [.call (.apply launchOk applyOne), .advance 0, .advance 0, .advance 0, .advance 0, .advance 0,
    .call (.cleanup false cleanOk (cleanupOf "one")), .advance 1]

theorem disable_recovers_launched :
    meetsAll (fun _ => true) (fun _ => .ok "digest") { state := {} } launched = true ∧
      ((setEnabledP (fun _ => true) disableOk false).alone.run (run (fun _ => true) (fun _ => .ok "digest") launched).state).1 = none ∧
      ((setEnabledP (fun _ => true) disableOk false).alone.run
        (run (fun _ => true) (fun _ => .ok "digest") launched).state).2.available = true := by
  have h : meetsAll (fun _ => true) (fun _ => .ok "digest") { state := {} } launched = true := by decide +kernel
  exact ⟨h, disable_recovers h disableOk_clean (by decide +kernel)⟩

def accountMarked : List Step :=
  [.call (.cleanup true cleanOk (cleanupOf "one")), .advance 0, .advance 0,
    .call (.setEnabled { disableOk with gate := .error "deadline" } true), .advance 1]

theorem account_mark_is_kept :
    ((setEnabledP (fun _ => true) disableOk false).alone.run
      (run (fun _ => true) (fun _ => .ok "digest") accountMarked).state).1 ≠ none := by
  decide +kernel

end Scenario

end Breeze.Pam.Recovery
