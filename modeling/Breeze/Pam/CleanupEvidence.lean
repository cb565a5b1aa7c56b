import Breeze.Pam.Atomicity
import Breeze.Pam.AtMostOnce

/-! What lies behind a result `cleaned`: the log of a cleanup that reports it. -/

namespace Breeze.Pam.CleanupEvidence

open Ledger Manager Durability Atomicity
open CallSafety (replaceLocked_ok)

def Buried (disk : Option Entries) (id : String) : Prop :=
  ∃ entries e, disk = some entries ∧ entries.lookup id = some e ∧ e.desiredState = .cleanup

def Backed (sys : System) : Prop :=
  ∀ id e, sys.store.entries.lookup id = some e → e.desiredState = .cleanup → Buried sys.disk id

section Ledger

variable {uuidParse : String → Bool} {applyDigest : ApplyCommand → Except String String} {sys : System}

lemma buried_insert {entries : Entries} {key id : String} {next e : LedgerEntry} (he : entries.lookup id = some e)
    (hclean : e.desiredState = .cleanup) (hf : ∀ p, entries.lookup key = some p → Follows p next) :
    Buried (some (entries.insert key next)) id := by
  by_cases hk : id = key
  · subst hk
    exact ⟨_, next, rfl, AList.lookup_insert _, (hf e he).tombstone hclean⟩
  · exact ⟨_, e, rfl, by rwa [AList.lookup_insert_ne hk], hclean⟩

lemma backed_restart (disk : Option Entries) (readErr : Option String) : Backed (Atomicity.restart disk readErr) := by
  intro id e he hclean
  cases readErr with
  | some err => simp [Atomicity.restart, newStore] at he
  | none =>
    cases disk with
    | none => simp [Atomicity.restart, newStore] at he
    | some entries => exact ⟨entries, e, rfl, he, hclean⟩

lemma Backed.perform (h : Backed sys) (c : Atomicity.Call) : Backed (Atomicity.perform uuidParse applyDigest sys c) := by
  have hch : Change sys.store c (invoke uuidParse applyDigest sys.store c) := invoke_change c
  intro id e he hclean
  simp only [Atomicity.perform] at he ⊢
  generalize invoke uuidParse applyDigest sys.store c = o at hch he ⊢
  cases hch with
  | refused err hv hs hw | kept entry hl hentry hr hv hs hw =>
    rw [hs] at he
    rw [hw]
    exact h id e he hclean
  | replaced next hl hr hf hb hq ho =>
    cases ho with
    | unwritten hv hw hl' hs =>
      rw [hs] at he
      rw [hw]
      exact h id e he hclean
    | rolledBack hv hw hl' hs hc =>
      rw [hs] at he
      rw [hw]
      exact buried_insert he hclean hf
    | changed => exact ⟨_, e, rfl, he, hclean⟩

lemma Backed.step (h : Backed sys) (st : Atomicity.Step) : Backed (Atomicity.step uuidParse applyDigest sys st) := by
  cases st with
  | call c => exact h.perform c
  | crash c writes readErr | restart readErr => exact backed_restart _ readErr

lemma Backed.steps (h : Backed sys) (steps : List Atomicity.Step) :
    Backed (steps.foldl (Atomicity.step uuidParse applyDigest) sys) := by
  induction steps generalizing sys with
  | nil => exact h
  | cons st steps ih => exact ih (h.step st)

end Ledger

inductive JobEvidence (entry : LedgerEntry) (bootID : String) (ownsJob : Bool) : List Event → Prop
  | noIdentity (h : hasAnyProcessIdentity entry = false) : JobEvidence entry bootID ownsJob []
  | otherBoot (h : entry.bootID ≠ bootID) : JobEvidence entry bootID ownsJob []
  | emptied : JobEvidence entry bootID ownsJob [.terminated entry.jobName (.ok 0)]
  | vanished (h : ownsJob = false) :
      JobEvidence entry bootID ownsJob
        [.terminated entry.jobName (.error .absent), .identityChecked (recordedProcess entry) (some true)]

lemma run_bind {β : Type} (x : Op α) (f : α → Op β) : (x >>= f).run m = (f (x.run m).1).run (x.run m).2 :=
  rfl

lemma run_pure (a : α) : (pure a : Op α).run m = (a, m) :=
  rfl

lemma run_modify (f : LifecycleManager → LifecycleManager) : (modify f : Op Unit).run m = ((), f m) :=
  rfl

structure Evidence where
  bootID : String
  entry : LedgerEntry
  prepared : List Entries
  job : List Event
  deprovisioned : AccountEvidence
  verified : AccountEvidence
  cleared : Entries

def Evidence.events (ev : Evidence) (result : Result) : List Event :=
  ev.prepared.map .wrote ++ ev.job ++
    [.deprovisioned (some ev.deprovisioned), .verifiedClean (some ev.verified), .tokenScanned (.ok false), .wrote ev.cleared,
      .emitted result]

structure Evidence.Proves (ev : Evidence) (ownsJob : Bool) (id : String) : Prop where
  job : JobEvidence ev.entry ev.bootID ownsJob ev.job
  deprovisioned : ev.deprovisioned = ⟨false, false⟩
  verified : ev.verified = ⟨false, false⟩
  cleared : ∃ e, ev.cleared.lookup id = some e ∧ e.desiredState = .cleanup ∧ hasAnyProcessIdentity e = false

variable {uuidParse : String → Bool} {ans : CleanupAnswers} {cmd : CleanupCommand} {m : LifecycleManager}

variable {entry : LedgerEntry} {bootID : String} {α : Type} {a : PersistAnswers} {now : Time}

lemma endJob_ok {ownsJob absent : Bool} (h : ((endJob ans entry bootID ownsJob).run m).1 = .ok absent) :
    ∃ job, ((endJob ans entry bootID ownsJob).run m).2 = { m with trace := m.trace ++ job } ∧
      JobEvidence entry bootID ownsJob job := by
  rw [endJob] at h ⊢
  by_cases hmixed : (hasAnyProcessIdentity entry && !hasCompleteProcessIdentity entry) = true
  · rw [if_pos hmixed] at h
    cases h
  · rw [if_neg hmixed] at h ⊢
    by_cases hboot : (hasCompleteProcessIdentity entry && entry.bootID == bootID) = true
    · rw [if_pos hboot] at h ⊢
      cases hterminate : ans.terminate with
      | ok members =>
        rw [hterminate] at h
        change (if members = 0 then Except.ok false else Except.error "job_cleanup_failed") = Except.ok absent at h
        split_ifs at h with hzero
        subst hzero
        exact ⟨_, rfl, .emptied⟩
      | error err =>
        rw [hterminate] at h
        cases err with
        | other => cases h
        | absent =>
          cases ownsJob with
          | true => cases h
          | false =>
            cases hgone : ans.identityGone with
            | none =>
              rw [hgone] at h
              cases h
            | some gone =>
              rw [hgone] at h
              cases gone with
              | false => cases h
              | true =>
                refine ⟨_, ?_, .vanished rfl⟩
                simp only [log, run_bind, run_pure, run_modify, Bool.false_eq_true, if_false, List.append_assoc, List.singleton_append]
    · rw [if_neg hboot]
      refine ⟨[], by rw [run_pure, List.append_nil], ?_⟩
      by_cases hany : hasAnyProcessIdentity entry = true
      · have hcomplete : hasCompleteProcessIdentity entry = true := by simpa [hany] using hmixed
        rw [hcomplete, Bool.true_and, beq_iff_eq] at hboot
        exact .otherBoot hboot
      · exact .noIdentity ((Bool.not_eq_true _).mp hany)

lemma retireAccount_ok {verified : AccountEvidence} (h : ((retireAccount ans).run m).1 = .ok verified) :
    ∃ deprovisioned, deprovisioned = ⟨false, false⟩ ∧ verified = ⟨false, false⟩ ∧
      ((retireAccount ans).run m).2 = { m with trace := m.trace ++
        [.deprovisioned (some deprovisioned), .verifiedClean (some verified), .tokenScanned (.ok false)] } := by
  rw [retireAccount] at h ⊢
  cases hdep : ans.deprovision with
  | none =>
    rw [hdep] at h
    cases h
  | some deprovisioned =>
    rw [hdep] at h
    cases hver : ans.verifyClean with
    | none =>
      rw [hver] at h
      cases h
    | some verified' =>
      rw [hver] at h
      dsimp only at h ⊢
      cases hclean : accountClean deprovisioned verified' with
      | false =>
        rw [hclean] at h
        cases h
      | true =>
        rw [hclean] at h
        cases hscan : ans.tokenScan with
        | error err =>
          rw [hscan] at h
          cases h
        | ok privileged =>
          rw [hscan] at h
          cases privileged with
          | true => cases h
          | false =>
            cases h
            obtain ⟨enabled, admin⟩ := deprovisioned
            obtain ⟨enabled', admin'⟩ := verified
            simp only [accountClean, Bool.and_eq_true, Bool.not_eq_true'] at hclean
            obtain ⟨⟨⟨rfl, rfl⟩, rfl⟩, rfl⟩ := hclean
            refine ⟨_, rfl, rfl, ?_⟩
            simp only [log, run_bind, run_pure, run_modify, Bool.not_true, Bool.false_eq_true, if_false, List.append_assoc,
              List.cons_append, List.nil_append]

lemma run_get : (get : Op LifecycleManager).run m = (m, m) :=
  rfl

lemma run_onStore (f : Store → Outcome α) : (onStore f).run m =
      ((f m.store).value, { m with store := (f m.store).store, trace := m.trace ++ (f m.store).writes.map .wrote }) :=
  rfl

lemma clearProcessIdentity_ok {s : Store} {id : String} {generation : UInt64} {d : Unit}
    (h : (clearProcessIdentity s a now id generation).value = .ok d) :
    ∃ cleared e, (clearProcessIdentity s a now id generation).writes = [cleared] ∧ cleared.lookup id = some e ∧
      e.desiredState = .cleanup ∧ hasAnyProcessIdentity e = false := by
  have hcases : ReplaceCases s a id .cleanup generation (clearedEntry · now) (clearProcessIdentity s a now id generation) :=
    clearProcessIdentity_cases id generation
  generalize clearProcessIdentity s a now id generation = o at h hcases
  cases hcases with
  | refused e => cases h
  | recorded entry hl he hstate hgen =>
    rw [replaceLocked_ok h]
    exact ⟨_, clearedEntry entry now, rfl, AList.lookup_insert _, hstate, rfl⟩

lemma prepareCleanup_ok {sys : System} {d : Decision} (hbacked : Backed sys)
    (h : (prepareCleanup uuidParse sys.store a now cmd).value = .ok d) :
    Buried (written sys.disk (prepareCleanup uuidParse sys.store a now cmd).writes) cmd.actuationID := by
  have hcases : PrepareCleanupCases uuidParse sys.store a now cmd (prepareCleanup uuidParse sys.store a now cmd) :=
    prepareCleanup_cases cmd
  generalize prepareCleanup uuidParse sys.store a now cmd = o at h hcases
  cases hcases with
  | refused e => cases h
  | duplicate previous hl he hclean hgen hids => exact hbacked _ previous he hclean
  | recorded hl hv hp =>
    rw [replaceLocked_ok h]
    exact ⟨_, _, rfl, AList.lookup_insert _, rfl⟩

lemma proveClean_cleaned (h : ((proveClean ans cmd bootID entry).run m).1.state = .cleaned) :
    ∃ job deprovisioned verified cleared, JobEvidence entry bootID (m.jobs.lookup cmd.actuationID).isSome job ∧
      deprovisioned = ⟨false, false⟩ ∧ verified = ⟨false, false⟩ ∧
      (∃ e, cleared.lookup cmd.actuationID = some e ∧ e.desiredState = .cleanup ∧ hasAnyProcessIdentity e = false) ∧
      ((proveClean ans cmd bootID entry).run m).2.trace = m.trace ++ job ++
        [.deprovisioned (some deprovisioned), .verifiedClean (some verified), .tokenScanned (.ok false), .wrote cleared,
          .emitted ((proveClean ans cmd bootID entry).run m).1] := by
  rw [proveClean] at h ⊢
  simp only [run_bind, run_get] at h ⊢
  cases hend : ((endJob ans entry bootID (m.jobs.lookup cmd.actuationID).isSome).run m).1 with
  | error code =>
    rw [hend] at h
    cases h
  | ok jobObjectAbsent =>
    obtain ⟨job, hm, hjob⟩ := endJob_ok hend
    rw [hend] at h
    rw [hm] at h ⊢
    simp only [run_bind] at h ⊢
    cases hretire : ((retireAccount ans).run { m with trace := m.trace ++ job }).1 with
    | error code =>
      rw [hretire] at h
      cases h
    | ok verified =>
      obtain ⟨deprovisioned, hdep, hver, hm'⟩ := retireAccount_ok hretire
      rw [hretire] at h
      rw [hm'] at h ⊢
      simp only [run_bind, run_onStore] at h ⊢
      cases hclear : (clearProcessIdentity m.store ans.clear ans.now cmd.actuationID cmd.generation).value with
      | error err =>
        rw [hclear] at h
        cases h
      | ok done =>
        obtain ⟨cleared, e, hwrites, he⟩ := clearProcessIdentity_ok hclear
        refine ⟨job, deprovisioned, verified, cleared, hjob, hdep, hver, ⟨e, he⟩, ?_⟩
        rw [hwrites]
        simp only [emit, log, run_bind, run_pure, run_modify, List.map_cons, List.map_nil, List.append_assoc, List.cons_append,
          List.nil_append]

theorem cleaned_is_proven (uuidParse : String → Bool) (m : LifecycleManager) (ans : CleanupAnswers) (cmd : CleanupCommand)
    (hcleaned : ((cleanupLocked uuidParse ans cmd).run m).1.state = .cleaned) :
    ∃ ev : Evidence, currentBootID ans.bootID = .ok ev.bootID ∧
      (prepareCleanup uuidParse m.store ans.prepare ans.now cmd).store.entries.lookup cmd.actuationID = some ev.entry ∧
      ((cleanupLocked uuidParse ans cmd).run m).2.trace =
        m.trace ++ ev.events ((cleanupLocked uuidParse ans cmd).run m).1 ∧
      ev.Proves (m.jobs.lookup cmd.actuationID).isSome cmd.actuationID ∧
      -- the tombstone is on disk before the first event after the preparation, however the ledger came to its state
      ∀ (applyDigest : ApplyCommand → Except String String) (file : Option Entries) (readErr : Option String)
        (steps : List Atomicity.Step) (sys : System),
        sys = steps.foldl (Atomicity.step uuidParse applyDigest) (Atomicity.restart file readErr) → m.store = sys.store →
        Buried (written sys.disk ev.prepared) cmd.actuationID := by
  rw [cleanupLocked] at hcleaned ⊢
  cases hboot : currentBootID ans.bootID with
  | error bootID =>
    rw [hboot] at hcleaned
    cases hcleaned
  | ok bootID =>
    rw [hboot] at hcleaned
    simp only [run_bind, run_onStore] at hcleaned ⊢
    cases hprepare : (prepareCleanup uuidParse m.store ans.prepare ans.now cmd).value with
    | error err =>
      rw [hprepare] at hcleaned
      cases hcleaned
    | ok decision =>
      rw [hprepare] at hcleaned
      simp only [run_bind, run_get] at hcleaned ⊢
      cases hentry : (prepareCleanup uuidParse m.store ans.prepare ans.now cmd).store.entries.lookup cmd.actuationID with
      | none =>
        rw [hentry] at hcleaned
        cases hcleaned
      | some entry =>
        rw [hentry] at hcleaned
        obtain ⟨job, deprovisioned, verified, cleared, hjob, hdep, hver, hcleared, htrace⟩ := proveClean_cleaned hcleaned
        refine ⟨⟨bootID, entry, (prepareCleanup uuidParse m.store ans.prepare ans.now cmd).writes, job, deprovisioned,
          verified, cleared⟩, rfl, rfl, ?_, ⟨hjob, hdep, hver, hcleared⟩, ?_⟩
        · rw [htrace]
          simp [Evidence.events]
        · intro applyDigest file readErr steps sys hsys hstore
          have hbacked : Backed sys := hsys ▸ (backed_restart file readErr).steps steps
          rw [hstore] at hprepare ⊢
          exact prepareCleanup_ok hbacked hprepare

open AtMostOnce (cleanOk cleanupOf)

theorem first_cleanup_is_proven :
    ((cleanupLocked (fun _ => true) cleanOk (cleanupOf "one")).run {}).1.state = .cleaned ∧
      ∃ ev : Evidence, ev.Proves false "one" ∧
        ((cleanupLocked (fun _ => true) cleanOk (cleanupOf "one")).run {}).2.trace =
          ev.events ((cleanupLocked (fun _ => true) cleanOk (cleanupOf "one")).run {}).1 := by
  have hcleaned : ((cleanupLocked (fun _ => true) cleanOk (cleanupOf "one")).run {}).1.state = .cleaned := rfl
  obtain ⟨ev, -, -, htrace, hproves, -⟩ := cleaned_is_proven (fun _ => true) {} cleanOk (cleanupOf "one") hcleaned
  exact ⟨hcleaned, ev, hproves, htrace⟩

end Breeze.Pam.CleanupEvidence
