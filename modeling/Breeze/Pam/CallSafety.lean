import Breeze.Pam.Durability

/-! What every call of the manager keeps true of the ledger in memory and of the durable log. -/

namespace Breeze.Pam.CallSafety

open Breeze.Lib.Stateful Ledger Manager Durability

section Assertions

def Silent : Event → Prop
  | .wrote _ => False
  | .resumed _ _ => False
  | .terminated _ _ => False
  | _ => True

lemma Silent.neutral {e : Event} (h : Silent e) : Neutral e := by
  cases e with
  | wrote | resumed => exact h
  | _ => trivial

structure Tame (P : LifecycleManager → Prop) : Prop where
  fields : ∀ m m' : LifecycleManager, m'.store = m.store → m'.trace = m.trace → P m → P m'
  silent : ∀ (m : LifecycleManager) (e : Event), Silent e → P m → P { m with trace := m.trace ++ [e] }

structure Stable (P : LifecycleManager → Prop) : Prop extends Tame P where
  neutral : ∀ (m : LifecycleManager) (e : Event), Neutral e → P m → P { m with trace := m.trace ++ [e] }
  silent m e he h := neutral m e he.neutral h

structure InvOn (ids : List String) (m : LifecycleManager) : Prop where
  inv : Inv m
  present : ∀ id ∈ ids, (m.store.entries.lookup id).isSome

structure Fresh (id : String) (m : LifecycleManager) : Prop where
  inv : Inv m
  unknown : ¬ Known m.trace id

structure Ready (id : String) (process : ProcessIdentity) (m : LifecycleManager) : Prop where
  fresh : Fresh id m
  present : (m.store.entries.lookup id).isSome
  disk : DiskHolds m.trace id process

lemma stable_inv : Stable Inv where
  fields := by
    intro m m' hs ht h
    exact ⟨ht ▸ h.sound, by rw [hs, ht]; exact h.covers, by rw [hs]; exact h.keyed⟩
  neutral := by
    intro m e he h
    refine ⟨h.sound.neutral he, fun hl id hid => ?_, h.keyed⟩
    exact h.covers hl id ((known_neutral he).mp hid)

lemma stable_invOn (ids : List String) : Stable (InvOn ids) where
  fields m m' hs ht h := ⟨stable_inv.fields m m' hs ht h.inv, by rw [hs]; exact h.present⟩
  neutral m e he h := ⟨stable_inv.neutral m e he h.inv, h.present⟩

lemma stable_fresh (id : String) : Stable (Fresh id) where
  fields m m' hs ht h := ⟨stable_inv.fields m m' hs ht h.inv, by rw [ht]; exact h.unknown⟩
  neutral m e he h := ⟨stable_inv.neutral m e he h.inv, by rw [known_neutral he]; exact h.unknown⟩

lemma stable_ready (id : String) (process : ProcessIdentity) : Stable (Ready id process) where
  fields m m' hs ht h :=
    ⟨(stable_fresh id).fields m m' hs ht h.fresh, by rw [hs]; exact h.present, by rw [ht]; exact h.disk⟩
  neutral m e he h :=
    ⟨(stable_fresh id).neutral m e he h.fresh, h.present, by rw [DiskHolds, disk_neutral he]; exact h.disk⟩

lemma stable_sound : Stable (fun m => Sound m.trace) where
  fields _ _ _ ht h := ht ▸ h
  neutral _ _ he h := h.neutral he

end Assertions

section Bookkeeping

variable {P : LifecycleManager → Prop}

/-- Kept by the sections that only log, and change the jobs and processes the manager holds. -/
structure Calm (P : LifecycleManager → Prop) : Prop where
  held : ∀ (m : LifecycleManager) jobs processes, P m → P { m with jobs := jobs, processes := processes }
  silent : ∀ (m : LifecycleManager) (e : Event), Silent e → P m → P { m with trace := m.trace ++ [e] }

section Tame

variable (hP : Tame P)

include hP

lemma Tame.calm : Calm P := ⟨fun m _ _ => hP.fields m _ rfl rfl, hP.silent⟩

lemma Tame.modify {f : LifecycleManager → LifecycleManager} (hs : ∀ m, (f m).store = m.store) (ht : ∀ m, (f m).trace = m.trace) :
    Triple P (modify f) (fun _ => P) :=
  Triple.modify fun m hm => hP.fields m (f m) (hs m) (ht m) hm

lemma Tame.markUnresolved (key : String) (generation : UInt64) : Triple P (markUnresolved key generation) (fun _ => P) :=
  hP.modify (fun _ => rfl) (fun _ => rfl)

lemma Tame.clearUnresolvedThrough (key : String) (generation : UInt64) :
    Triple P (clearUnresolvedThrough key generation) (fun _ => P) :=
  hP.modify (fun _ => rfl) (fun _ => rfl)

lemma Tame.recordCleanupOutcome (id : String) (result : Result) :
    Triple P (recordCleanupOutcome id result) (fun _ => P) := by
  rw [Manager.recordCleanupOutcome]
  split
  · exact hP.clearUnresolvedThrough _ _
  · exact hP.markUnresolved _ _

end Tame

variable (hP : Calm P)

include hP

lemma Calm.log (e : Event) (he : Silent e) : Triple P (log e) (fun _ => P) :=
  Triple.modify fun m hm => hP.silent m e he hm

lemma Calm.hold {jobs : LifecycleManager → AList fun _ : String => JobOwnership}
    {processes : LifecycleManager → AList fun _ : String => ProcessIdentity} :
    Triple P (modify fun m => { m with jobs := jobs m, processes := processes m }) (fun _ => P) :=
  Triple.modify fun m hm => hP.held m _ _ hm

lemma Calm.emit (result : Result) : Triple P (emit result) (fun _ => P) := hP.log (.emitted result) trivial

lemma Calm.launchFailed (ans : ApplyAnswers) (cmd : ApplyCommand) (bootID code : String) :
    Triple P (launchFailed ans cmd bootID code) (fun _ => P) := by
  rw [Manager.launchFailed]
  exact (hP.log (.deprovisioned ans.deprovision) trivial).bind fun _ => Triple.keep

lemma Calm.retireAccount (ans : CleanupAnswers) : Triple P (retireAccount ans) (fun _ => P) := by
  rw [Manager.retireAccount]
  refine (hP.log _ (by trivial)).bind fun _ => ?_
  split
  · exact Triple.keep
  · refine (hP.log _ (by trivial)).bind fun _ => ?_
    split
    · exact Triple.keep
    · split
      · exact Triple.keep
      · refine (hP.log _ (by trivial)).bind fun _ => ?_
        split <;> exact Triple.keep

lemma Calm.verifyAccountClean (ans : AccountAnswers) (evidence : ResultEvidence) :
    Triple P (verifyAccountClean ans evidence) (fun _ => P) := by
  rw [Manager.verifyAccountClean]
  refine (hP.log _ (by trivial)).bind fun _ => ?_
  split
  · exact Triple.keep
  · refine (hP.log _ (by trivial)).bind fun _ => ?_
    split
    · exact Triple.keep
    · split
      · exact Triple.keep
      · refine Triple.read fun m₀ _ => (hP.log _ (by trivial)).bind fun _ => ?_
        split <;> exact Triple.keep

lemma Calm.reconcileActiveLocked (ans : ReconcileAnswers) (entry : LedgerEntry) :
    Triple P (reconcileActiveLocked ans entry) (fun _ => P) := by
  have hvanished (outcome : ResultState → String → ResultEvidence → Result) (bootID : String) (evidence : ResultEvidence) :
      Triple P (Manager.reconcileActiveLocked.vanished ans entry outcome bootID evidence) (fun _ => P) := by
    rw [Manager.reconcileActiveLocked.vanished]
    exact (hP.verifyAccountClean _ _).bind fun _ => Triple.keep
  rw [Manager.reconcileActiveLocked]
  split
  · exact Triple.keep
  · dsimp only
    split
    · exact Triple.keep
    · split
      · split
        · exact hP.hold.bind fun _ => Triple.keep
        · exact hvanished _ _ _
      · exact hvanished _ _ _

end Bookkeeping

section Traversal

variable {P R F : LifecycleManager → Prop} {uuidParse : String → Bool} {applyDigest : ApplyCommand → Except String String}

variable {process : ProcessIdentity}

lemma Calm.resumeTarget (hP : Calm P) (ans : ApplyAnswers) {cmd : ApplyCommand} (bootID : String)
    (hresumed : Triple R (Manager.log (.resumed cmd.actuationID process)) fun _ => P) :
    Triple R (resumeTarget ans cmd bootID process) (fun _ => P) := by
  have hfail (code : String) := hP.launchFailed ans cmd bootID code
  rw [Manager.resumeTarget]
  refine hresumed.bind fun _ => ?_
  split
  · exact hfail _
  · split
    · exact hfail _
    · split
      · exact hfail _
      · exact (hP.emit _).bind fun _ => hP.hold.bind fun _ => Triple.keep

lemma Tame.bindAndResume (hP : Tame P) (hR : Calm R) {ans : ApplyAnswers} {cmd : ApplyCommand}
    (bootID : String)
    (hbind : Triple F (onStore fun s => bindProcess s ans.bind ans.now cmd.actuationID cmd.generation process)
      fun r m => P m ∧ (r = .ok () → R m))
    (hresumed : Triple R (Manager.log (.resumed cmd.actuationID process)) fun _ => P) :
    Triple F (bindAndResume ans cmd bootID process) (fun _ => P) := by
  have hfail (code : String) := hP.calm.launchFailed ans cmd bootID code
  rw [Manager.bindAndResume]
  refine hbind.bind fun r => ?_
  cases r with
  | error e => exact (hfail _).consequence (fun _ h => h.1) (fun _ _ h => h)
  | ok u =>
    have hrun := hP.calm.resumeTarget ans bootID hresumed
    cases ans.handoff with
    | none =>
      refine Triple.consequence ?_ (fun _ h => h.2 rfl) (fun _ _ h => h)
      exact (hR.emit _).bind fun _ => hrun
    | some outcome =>
      cases outcome with
      | none => exact hrun.consequence (fun _ h => h.2 rfl) (fun _ _ h => h)
      | some err =>
        refine Triple.consequence ?_ (fun _ h => h.1) (fun _ _ h => h)
        exact (hP.markUnresolved _ _).bind fun _ => hfail _

lemma Calm.launch (hP : Calm P) {ans : ApplyAnswers} {cmd : ApplyCommand} (bootID targetHash : String) (hF : ∀ m, F m → P m)
    (hbind : ∀ process : ProcessIdentity, process.jobName = jobName cmd.actuationID cmd.generation →
      Triple F (bindAndResume ans cmd bootID process) fun _ => P) :
    Triple F (launch ans cmd bootID targetHash) (fun _ => P) := by
  have hfail (code : String) : Triple F (Manager.launchFailed ans cmd bootID code) (fun _ => P) :=
    (hP.launchFailed ans cmd bootID code).consequence hF (fun _ _ h => h)
  rw [Manager.launch]
  split
  · exact Triple.pure hF
  · split
    · exact hfail _
    · split
      · exact hfail _
      · split
        · exact hfail _
        · split
          · exact hfail _
          · split
            · exact hfail _
            · exact hbind _ rfl

lemma apply_triple {ans : ApplyAnswers} {cmd : ApplyCommand}
    (hprepare : Triple P (onStore fun s => prepareApply uuidParse applyDigest s ans.prepare ans.now cmd)
      fun r m => P m ∧ ∀ d, r = .ok d → d ≠ .duplicate → F m)
    (hlaunch : ∀ bootID targetHash, Triple F (launch ans cmd bootID targetHash) fun _ => P) :
    Triple P (apply uuidParse applyDigest ans cmd) (fun _ => P) := by
  rw [apply]
  split
  · exact Triple.keep
  · split
    · exact Triple.keep
    · refine Triple.read fun m₀ _ => ?_
      split
      · exact Triple.keep
      · split
        · exact Triple.keep
        · split
          · exact Triple.keep
          · split
            · exact Triple.keep
            · rw [prepareAndLaunch]
              refine hprepare.bind fun r => ?_
              rcases r with e | (_ | _ | _)
              · exact Triple.pure fun _ h => h.1
              · exact (hlaunch _ _).consequence (fun _ h => h.2 _ rfl nofun) (fun _ _ h => h)
              · exact (hlaunch _ _).consequence (fun _ h => h.2 _ rfl nofun) (fun _ _ h => h)
              · exact Triple.read fun _ _ => Triple.pure fun _ h => h.1

section

variable (hP : Calm P) (ans : CleanupAnswers) (entry : LedgerEntry) (bootID : String)
  (hterminated : hasCompleteProcessIdentity entry = true → Triple P (Manager.log (.terminated entry.jobName ans.terminate)) fun _ => P)

include hP hterminated

lemma Calm.endJob (ownsJob : Bool) :
    Triple P (endJob ans entry bootID ownsJob) (fun _ => P) := by
  rw [Manager.endJob]
  split
  · exact Triple.keep
  · split
    · rename_i hcurrent
      refine (hterminated (Bool.and_eq_true_iff.mp hcurrent).1).bind fun _ => ?_
      split
      · exact Triple.keep
      · exact Triple.keep
      · split
        · exact Triple.keep
        · refine (hP.log _ (by trivial)).bind fun _ => ?_
          split <;> exact Triple.keep
    · exact Triple.keep

lemma Calm.proveClean (cmd : CleanupCommand)
    (hclear : Triple P (onStore fun s => clearProcessIdentity s ans.clear ans.now cmd.actuationID cmd.generation) fun _ => P) :
    Triple P (proveClean ans cmd bootID entry) (fun _ => P) := by
  rw [Manager.proveClean]
  refine Triple.read fun m₀ _ => (hP.endJob ans entry bootID hterminated _).bind fun r => ?_
  cases r with
  | error code => exact Triple.keep
  | ok absent =>
    refine (hP.retireAccount ans).bind fun r => ?_
    cases r with
    | error code => exact Triple.keep
    | ok verified =>
      refine hclear.bind fun r => ?_
      cases r with
      | error e => exact Triple.keep
      | ok u => exact (hP.emit _).bind fun _ => hP.hold.bind fun _ => Triple.keep

end

lemma cleanupLocked_triple {ans : CleanupAnswers} {cmd : CleanupCommand} (hR : ∀ m, P m → R m)
    (hprepare : Triple P (onStore fun s => prepareCleanup uuidParse s ans.prepare ans.now cmd)
      fun r m => R m ∧ ((∃ d, r = .ok d) → P m))
    (hprove : ∀ m bootID entry, P m → m.store.entries.lookup cmd.actuationID = some entry →
      Triple P (proveClean ans cmd bootID entry) fun _ => R) :
    Triple P (cleanupLocked uuidParse ans cmd) (fun _ => R) := by
  rw [cleanupLocked]
  split
  · exact Triple.pure hR
  · refine hprepare.bind fun r => ?_
    cases r with
    | error e => exact Triple.pure fun _ h => h.1
    | ok d =>
      refine Triple.consequence ?_ (fun _ h => h.2 ⟨d, rfl⟩) (fun _ _ h => h)
      refine Triple.read fun m₀ hm₀ => ?_
      split
      · exact Triple.pure hR
      · rename_i entry hentry
        exact hprove m₀ _ entry hm₀ hentry

lemma Tame.cleanup (hR : Tame R) {ans : CleanupAnswers} {cmd : CleanupCommand} (gate : Bool) (hPR : ∀ m, P m → R m)
    (hlocked : Triple P (cleanupLocked uuidParse ans cmd) fun _ => R) :
    Triple P (cleanup uuidParse gate ans cmd) (fun _ => R) := by
  rw [Manager.cleanup]
  refine Triple.bind (Q := fun _ => R) ?_ fun r => (hR.recordCleanupOutcome _ r).bind fun _ => Triple.keep
  split
  · exact hlocked
  · exact Triple.pure hPR

end Traversal

section Store

variable {α : Type} {uuidParse : String → Bool} {applyDigest : ApplyCommand → Except String String}

lemma triple_onStore {P : LifecycleManager → Prop} {f : Store → Outcome α} {Q : Except StoreError α → LifecycleManager → Prop}
    (h : ∀ m, P m → Q (f m.store).value (commit m (f m.store))) : Triple P (onStore f) Q := h

inductive Effect (s : Store) (a : PersistAnswers) (key : String) (state : DesiredState) : Outcome α → Prop
  | refused (v : Except StoreError α) : Effect s a key state { value := v, store := s, writes := [] }
  | replaced {next : LedgerEntry} {done : α} {o : Outcome α} (hload : s.loadErr = none) (hkey : next.actuationID = key)
      (hstate : next.desiredState = state) (h : Replaced s a key next done o) : Effect s a key state o

lemma commit_refused (m : LifecycleManager) (v : Except StoreError α) :
    commit m { value := v, store := m.store, writes := [] } = m := by
  simp [commit]

section Effects

variable {m : LifecycleManager} {a : PersistAnswers} {key : String} {state : DesiredState} {o : Outcome α}

lemma Replaced.present {next : LedgerEntry} {done : α} (h : Replaced m.store a key next done o) {k : String}
    (hk : (m.store.entries.lookup k).isSome) : ((commit m o).store.entries.lookup k).isSome := by
  cases h with
  | unwritten _ _ _ hs | rolledBack _ _ _ hs _ => simpa [commit, hs] using hk
  | changed => exact lookup_insert_isSome hk

section

variable (ho : Effect m.store a key state o)

include ho

lemma Effect.sound (h : Inv m) : Sound (commit m o).trace := by
  cases ho with
  | refused v => simpa only [commit_refused] using h.sound
  | replaced hload hkey _ hr => exact hr.sound h hload hkey

lemma Effect.inv (h : Inv m)
    (hcond : state = .active ∨ (m.store.entries.lookup key).isSome ∨ a.chmodFile = none ∨ ∃ d, o.value = .ok d) :
    Inv (commit m o) := by
  cases ho with
  | refused v => simpa only [commit_refused] using h
  | replaced hload hkey hstate hr =>
    subst hstate
    exact hr.inv h hload hkey hcond

lemma Effect.present {k : String} (hk : (m.store.entries.lookup k).isSome) :
    ((commit m o).store.entries.lookup k).isSome := by
  cases ho with
  | refused v => simpa only [commit_refused] using hk
  | replaced _ _ _ hr => exact Replaced.present hr hk

end

end Effects

variable {s : Store} {a : PersistAnswers} {now : Time} {o : Outcome Decision} {u : Outcome Unit}

lemma prepareApply_effect {cmd : ApplyCommand} (ho : PrepareApplyCases uuidParse s a now cmd o) :
    Effect s a cmd.actuationID .active o := by
  cases ho with
  | refused e | duplicate => exact .refused _
  | recorded digest hl => exact .replaced hl rfl rfl (replaceLocked_replaced _ _ _ _ _)

lemma prepareCleanup_effect {cmd : CleanupCommand} (ho : PrepareCleanupCases uuidParse s a now cmd o) :
    Effect s a cmd.actuationID .cleanup o := by
  cases ho with
  | refused e | duplicate => exact .refused _
  | recorded hl => exact .replaced hl rfl rfl (replaceLocked_replaced _ _ _ _ _)

variable {id : String} {state : DesiredState} {generation : UInt64} {next : LedgerEntry → LedgerEntry}

lemma replace_effect (hs : Keyed s.entries) (hu : ReplaceCases s a id state generation next u)
    (hnext : ∀ e, (next e).actuationID = e.actuationID ∧ (next e).desiredState = e.desiredState) :
    Effect s a id state u ∧ ((s.entries.lookup id).isSome ∨ ∃ v, u = { value := v, store := s, writes := [] }) := by
  cases hu with
  | refused e => exact ⟨.refused _, Or.inr ⟨_, rfl⟩⟩
  | recorded entry hl he hstate =>
    refine ⟨.replaced hl ?_ ?_ (replaceLocked_replaced _ _ _ _ _), Or.inl (by simp [he])⟩
    · exact (hnext entry).1.trans (hs id entry he)
    · exact (hnext entry).2.trans hstate

lemma clearProcessIdentity_inv {m : LifecycleManager} (h : Inv m) :
    Inv (commit m (clearProcessIdentity m.store a now id generation)) := by
  have hcases : ReplaceCases m.store a id .cleanup generation (clearedEntry · now)
      (clearProcessIdentity m.store a now id generation) := clearProcessIdentity_cases id generation
  obtain ⟨he, hs | ⟨v, hv⟩⟩ := replace_effect h.keyed hcases fun _ => ⟨rfl, rfl⟩
  · exact he.inv h (Or.inr (Or.inl hs))
  · rw [hv, commit_refused]
    exact h

lemma replaceLocked_ok {key : String} {next : LedgerEntry} {done d : α} (h : (replaceLocked s a key next done).value = .ok d) :
    replaceLocked s a key next done =
      { value := .ok done, store := { s with entries := s.entries.insert key next }, writes := [s.entries.insert key next] } := by
  have hr := replaceLocked_replaced s a key next done
  generalize replaceLocked s a key next done = o at h hr
  cases hr with
  | unwritten hv _ _ _ | rolledBack hv _ _ _ _ =>
    obtain ⟨e, he⟩ := hv
    rw [he] at h
    cases h
  | changed => rfl

lemma replace_ok {d : Unit} (hu : ReplaceCases s a id state generation next u) (h : u.value = .ok d) :
    ∃ entry, entry.desiredState = state ∧ entry.generation = generation ∧ u =
      { value := .ok (), store := { s with entries := s.entries.insert id (next entry) },
        writes := [s.entries.insert id (next entry)] } := by
  cases hu with
  | refused e => cases h
  | recorded entry hl he hstate hgen => exact ⟨entry, hstate, hgen, replaceLocked_ok h⟩

end Store

section Apply

variable {uuidParse : String → Bool} {applyDigest : ApplyCommand → Except String String}

lemma triple_prepareApply (a : PersistAnswers) (now : Time) (cmd : ApplyCommand) :
    Triple Inv (onStore fun s => prepareApply uuidParse applyDigest s a now cmd)
      (fun r m => Inv m ∧ ∀ d, r = .ok d → d ≠ .duplicate → Fresh cmd.actuationID m) := by
  refine triple_onStore fun m hm => ?_
  have hcases : PrepareApplyCases uuidParse m.store a now cmd (prepareApply uuidParse applyDigest m.store a now cmd) :=
    prepareApply_cases cmd
  have hinv := (prepareApply_effect hcases).inv hm (Or.inl rfl)
  refine ⟨hinv, fun d hr hd => ⟨hinv, ?_⟩⟩
  generalize prepareApply uuidParse applyDigest m.store a now cmd = o at hcases hr ⊢
  cases hcases with
  | refused e => cases hr
  | duplicate =>
    cases hr
    exact absurd rfl hd
  | recorded digest hload hlookup =>
    simp only [commit, replaceLocked_ok hr, List.map_cons, List.map_nil]
    rw [known_wrote]
    rintro (hk | ⟨e, he, hclean⟩)
    · -- a known actuation has an entry in memory, so it is not decided to apply it
      have h := hm.covers hload _ hk
      rw [hlookup] at h
      cases h
    · rw [AList.lookup_insert] at he
      cases he
      cases hclean

lemma triple_bindProcess (a : PersistAnswers) (now : Time) (id : String) (generation : UInt64) (process : ProcessIdentity) :
    Triple (Fresh id) (onStore fun s => bindProcess s a now id generation process)
      (fun r m => Inv m ∧ (r = .ok () → Ready id process m)) := by
  refine triple_onStore fun m hm => ?_
  have hcases : ReplaceCases m.store a id .active generation (boundEntry · process now)
      (bindProcess m.store a now id generation process) := bindProcess_cases id generation process
  have hinv := (replace_effect hm.inv.keyed hcases fun _ => ⟨rfl, rfl⟩).1.inv hm.inv (Or.inl rfl)
  refine ⟨hinv, fun hr => ?_⟩
  obtain ⟨entry, hstate, -, ho⟩ := replace_ok hcases hr
  rw [ho] at hinv ⊢
  have hholds : Holds (m.store.entries.insert id (boundEntry entry process now)) id process :=
    ⟨_, AList.lookup_insert _, hstate, rfl, rfl, rfl, rfl⟩
  refine ⟨⟨hinv, ?_⟩, ?_, ?_⟩
  · simp only [commit, List.map_cons, List.map_nil]
    rw [known_wrote]
    rintro (hk | ⟨e, he, hclean⟩)
    · exact hm.unknown hk
    · obtain ⟨e', he', hactive, -⟩ := hholds
      rw [he'] at he
      cases he
      rw [hactive] at hclean
      cases hclean
  · obtain ⟨e', he', -⟩ := hholds
    simp [commit, he']
  · exact ⟨_, disk_wrote _, hholds⟩

lemma triple_resumed (id : String) (process : ProcessIdentity) :
    Triple (Ready id process) (log (.resumed id process)) (fun _ => Inv) := by
  refine Triple.modify fun m hm => ⟨hm.fresh.inv.sound.resumed hm.fresh.unknown hm.disk, fun hl id hid => ?_, hm.fresh.inv.keyed⟩
  rcases known_resumed.mp hid with hid | rfl
  · exact hm.fresh.inv.covers hl id hid
  · exact hm.present

lemma triple_apply (ans : ApplyAnswers) (cmd : ApplyCommand) :
    Triple Inv (apply uuidParse applyDigest ans cmd) (fun _ => Inv) := by
  refine apply_triple (triple_prepareApply ans.prepare ans.now cmd) fun bootID targetHash => ?_
  refine stable_inv.calm.launch bootID targetHash (fun _ h => h.inv) fun process _ => ?_
  exact stable_inv.bindAndResume (stable_ready _ process).calm bootID
    (triple_bindProcess ans.bind ans.now cmd.actuationID cmd.generation process) (triple_resumed _ process)

end Apply

section Cleanup

variable {uuidParse : String → Bool} {ids : List String} {P : LifecycleManager → Prop}

lemma triple_prepareCleanup (a : PersistAnswers) (now : Time) (cmd : CleanupCommand)
    (hcond : cmd.actuationID ∈ ids ∨ a.chmodFile = none) :
    Triple (InvOn ids) (onStore fun s => prepareCleanup uuidParse s a now cmd) (fun _ => InvOn ids) := by
  refine triple_onStore fun m hm => ?_
  have hcases : PrepareCleanupCases uuidParse m.store a now cmd (prepareCleanup uuidParse m.store a now cmd) :=
    prepareCleanup_cases cmd
  have he := prepareCleanup_effect hcases
  refine ⟨he.inv hm.inv ?_, fun id hid => he.present (hm.present id hid)⟩
  rcases hcond with hid | hc
  · exact Or.inr (Or.inl (hm.present _ hid))
  · exact Or.inr (Or.inr (Or.inl hc))

lemma triple_proveClean (ans : CleanupAnswers) (cmd : CleanupCommand) (bootID : String) (entry : LedgerEntry) :
    Triple (InvOn ids) (proveClean ans cmd bootID entry) (fun _ => InvOn ids) := by
  have hP := stable_invOn ids
  refine hP.calm.proveClean ans entry bootID (fun _ => Triple.modify fun m hm => hP.neutral m _ trivial hm) cmd ?_
  refine triple_onStore fun m hm => ⟨clearProcessIdentity_inv hm.inv, fun k hk => ?_⟩
  exact (replace_effect hm.inv.keyed (clearProcessIdentity_cases _ _) fun _ => ⟨rfl, rfl⟩).1.present (hm.present k hk)

lemma triple_cleanupLocked (ans : CleanupAnswers) (cmd : CleanupCommand)
    (hcond : cmd.actuationID ∈ ids ∨ ans.prepare.chmodFile = none) :
    Triple (InvOn ids) (cleanupLocked uuidParse ans cmd) (fun _ => InvOn ids) := by
  refine cleanupLocked_triple (fun _ h => h) ?_ fun m bootID entry _ _ => triple_proveClean ans cmd bootID entry
  exact (triple_prepareCleanup ans.prepare ans.now cmd hcond).consequence (fun _ h => h) (fun _ _ h => ⟨h, fun _ => h⟩)

lemma triple_cleanup_sound (gate : Bool) (ans : CleanupAnswers) (cmd : CleanupCommand) :
    Triple Inv (cleanup uuidParse gate ans cmd) (fun _ m => Sound m.trace) := by
  refine stable_sound.cleanup gate (fun _ h => h.sound) (cleanupLocked_triple (fun _ h => h.sound) ?_ fun m bootID entry _ _ => ?_)
  · refine triple_onStore fun m hm => ?_
    have hcases : PrepareCleanupCases uuidParse m.store ans.prepare ans.now cmd
        (prepareCleanup uuidParse m.store ans.prepare ans.now cmd) := prepareCleanup_cases cmd
    have he := prepareCleanup_effect hcases
    exact ⟨he.sound hm, fun hok => he.inv hm (Or.inr (Or.inr (Or.inr hok)))⟩
  · have hprove : Triple (InvOn []) (proveClean ans cmd bootID entry) (fun _ => InvOn []) := triple_proveClean ans cmd bootID entry
    exact hprove.consequence (fun m hm => ⟨hm, nofun⟩) (fun _ _ hm => hm.inv.sound)

end Cleanup

section Policy

variable {uuidParse : String → Bool} {ids : List String} {P : LifecycleManager → Prop}

lemma invOn_sortedEntries {m : LifecycleManager} (h : Inv m) :
    InvOn ((sortedEntries m.store).map (·.actuationID)) m := by
  refine ⟨h, fun id hid => ?_⟩
  obtain ⟨e, he, rfl⟩ := List.mem_map.mp hid
  rw [sortedEntries, List.mem_mergeSort, List.mem_map] at he
  obtain ⟨⟨k, e'⟩, hmem, rfl⟩ := he
  have hlookup : m.store.entries.lookup k = some e' := AList.mem_lookup_iff.mpr hmem
  rw [h.keyed k e' hlookup, hlookup]
  rfl

lemma triple_reconcileEntry (ans : ReconcileAnswers) {entry : LedgerEntry} (hid : entry.actuationID ∈ ids) :
    Triple (InvOn ids) (reconcileEntry uuidParse ans entry) (fun _ => InvOn ids) := by
  have hP := stable_invOn ids
  rw [reconcileEntry]
  split
  · exact (hP.markUnresolved _ _).bind fun _ => (hP.calm.emit _).bind fun _ => Triple.keep
  · split
    · refine (triple_cleanupLocked _ _ (Or.inl hid)).bind fun r => (hP.recordCleanupOutcome _ _).bind fun _ => ?_
      split
      · exact (hP.calm.emit _).bind fun _ => Triple.keep
      · exact Triple.keep
    · refine (hP.calm.reconcileActiveLocked ans entry).bind fun r => ?_
      dsimp only
      split
      · exact (hP.clearUnresolvedThrough _ _).bind fun _ => (hP.calm.emit _).bind fun _ => Triple.keep
      · exact (hP.markUnresolved _ _).bind fun _ => (hP.calm.emit _).bind fun _ => Triple.keep

variable {entries : List LedgerEntry}

lemma triple_reconcileEntries (ans : ReconcileAnswers)
    (hids : ∀ e ∈ entries, e.actuationID ∈ ids) :
    Triple (InvOn ids) (reconcileEntries uuidParse ans entries) (fun _ => InvOn ids) := by
  induction entries with
  | nil => exact Triple.keep
  | cons e entries ih =>
    rw [reconcileEntries]
    refine (triple_reconcileEntry ans (hids e (by simp))).bind fun _ => ?_
    exact (ih fun e he => hids e (by simp [he])).bind fun _ => Triple.keep

lemma Stable.timeOutEntries (hP : Stable P) (entries : List LedgerEntry) : Triple P (timeOutEntries entries) (fun _ => P) := by
  induction entries with
  | nil => exact Triple.keep
  | cons e entries ih =>
    rw [Manager.timeOutEntries]
    exact (hP.recordCleanupOutcome _ _).bind fun _ => ih.bind fun _ => Triple.keep

lemma triple_listed {α : Type} {f : List LedgerEntry → Op α}
    (h : ∀ ids entries, (∀ e ∈ entries, e.actuationID ∈ ids) → Triple (InvOn ids) (f entries) (fun _ => InvOn ids)) :
    Triple Inv (get >>= fun m => f (sortedEntries m.store)) (fun _ => Inv) := by
  refine Triple.get_bind fun m₀ hm₀ => ?_
  refine (h _ (sortedEntries m₀.store) fun e he => List.mem_map_of_mem he).consequence ?_ (fun _ _ h => h.inv)
  rintro m rfl
  exact invOn_sortedEntries hm₀

lemma triple_reconcile (ans : ReconcileAnswers) : Triple Inv (reconcile uuidParse ans) (fun _ => Inv) := by
  rw [reconcile]
  refine Triple.bind (Q := fun _ => Inv) (stable_inv.modify (fun _ => rfl) (fun _ => rfl)) fun _ => ?_
  refine triple_listed fun ids entries hids => ?_
  have hP := stable_invOn ids
  rw [reconcileListed]
  split
  · exact hP.timeOutEntries _
  · refine (triple_reconcileEntries ans hids).bind fun _ => ?_
    exact Triple.bind (Q := fun _ => InvOn ids) (hP.modify (fun _ => rfl) (fun _ => rfl)) fun _ => Triple.keep

lemma triple_disableEntries (ans : EnableAnswers) (hids : ∀ e ∈ entries, e.actuationID ∈ ids) :
    Triple (InvOn ids) (disableEntries uuidParse ans entries) (fun _ => InvOn ids) := by
  have hP := stable_invOn ids
  induction entries with
  | nil => exact Triple.keep
  | cons e entries ih =>
    have hrest := ih fun e he => hids e (by simp [he])
    rw [disableEntries]
    refine (triple_cleanupLocked _ _ (Or.inl (hids e (by simp)))).bind fun r => (hP.recordCleanupOutcome _ _).bind fun _ => ?_
    split
    · exact (hP.calm.emit _).bind fun _ => hrest.bind fun _ => Triple.keep
    · exact hrest.bind fun _ => Triple.keep

lemma Stable.disableAccount (hP : Stable P) (ans : EnableAnswers) : Triple P (disableAccount ans) (fun _ => P) := by
  rw [Manager.disableAccount]
  refine Triple.read fun m₀ _ => ?_
  split
  · exact (hP.markUnresolved _ _).bind fun _ => Triple.keep
  · split
    · exact Triple.keep
    · split
      · exact (hP.markUnresolved _ _).bind fun _ => Triple.keep
      · refine (hP.calm.verifyAccountClean _ _).bind fun r => ?_
        dsimp only
        split
        · exact (hP.markUnresolved _ _).bind fun _ => Triple.keep
        · exact Triple.bind (Q := fun _ => P) (hP.modify (fun _ => rfl) (fun _ => rfl)) fun _ => Triple.keep

lemma triple_disable (ans : EnableAnswers) : Triple Inv (disable uuidParse ans) (fun _ => Inv) := by
  rw [disable]
  refine Triple.bind (Q := fun _ => Inv) (stable_inv.modify (fun _ => rfl) (fun _ => rfl)) fun _ => ?_
  refine triple_listed fun ids entries hids => ?_
  have hP := stable_invOn ids
  rw [disableListed]
  refine (hP.disableAccount ans).bind fun _ => (triple_disableEntries ans hids).bind fun _ => ?_
  refine Triple.read fun m₀ _ => ?_
  dsimp only
  split
  · exact Triple.keep
  · exact Triple.bind (Q := fun _ => InvOn ids) (hP.modify (fun _ => rfl) (fun _ => rfl)) fun _ => Triple.keep

lemma triple_setEnabled (ans : EnableAnswers) (enabled : Bool) :
    Triple Inv (setEnabled uuidParse ans enabled) (fun _ => Inv) := by
  rw [setEnabled]
  split
  · exact (stable_inv.markUnresolved _ _).bind fun _ => Triple.keep
  · refine Triple.read fun m₀ _ => ?_
    split
    · split
      · exact Triple.keep
      · split
        · exact Triple.keep
        · exact Triple.bind (Q := fun _ => Inv) (stable_inv.modify (fun _ => rfl) (fun _ => rfl)) fun _ => Triple.keep
    · split
      · exact Triple.keep
      · exact triple_disable ans

end Policy

end Breeze.Pam.CallSafety
