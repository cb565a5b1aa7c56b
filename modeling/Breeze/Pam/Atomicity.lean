import Breeze.Pam.Durability

/-! Runs of one ledger store with failing writes, crashes and restarts: what a call leaves in memory and on disk. -/

namespace Breeze.Pam.Atomicity

open Ledger Durability

inductive Call where
  | prepareApply (a : PersistAnswers) (now : Time) (cmd : ApplyCommand)
  | prepareCleanup (a : PersistAnswers) (now : Time) (cmd : CleanupCommand)
  | bindProcess (a : PersistAnswers) (now : Time) (actuationID : String) (generation : UInt64) (process : ProcessIdentity)
  | clearProcessIdentity (a : PersistAnswers) (now : Time) (actuationID : String) (generation : UInt64)

def Call.answers : Call → PersistAnswers
  | .prepareApply a _ _ => a
  | .prepareCleanup a _ _ => a
  | .bindProcess a _ _ _ _ => a
  | .clearProcessIdentity a _ _ _ => a

def Call.key : Call → String
  | .prepareApply _ _ cmd => cmd.actuationID
  | .prepareCleanup _ _ cmd => cmd.actuationID
  | .bindProcess _ _ id _ _ => id
  | .clearProcessIdentity _ _ id _ => id

structure System where
  store : Store := {}
  disk : Option Entries := none

def loaded (sys : System) : Entries := (newStore sys.disk none).entries

def forget {α : Type} (o : Outcome α) : Outcome Unit where
  value := o.value.map fun _ => ()
  store := o.store
  writes := o.writes

def written (disk : Option Entries) (writes : List Entries) : Option Entries := writes.foldl (fun _ entries => some entries) disk

/-- A call runs to its end, or the process dies after some of the call's writes and starts again, or it starts again in between. -/
inductive Step where
  | call (c : Call)
  | crash (c : Call) (writes : ℕ) (readErr : Option String)
  | restart (readErr : Option String)

section Runs

variable (uuidParse : String → Bool) (applyDigest : ApplyCommand → Except String String)

def invoke (s : Store) : Call → Outcome Unit
  | .prepareApply a now cmd => forget (prepareApply uuidParse applyDigest s a now cmd)
  | .prepareCleanup a now cmd => forget (prepareCleanup uuidParse s a now cmd)
  | .bindProcess a now id generation process => bindProcess s a now id generation process
  | .clearProcessIdentity a now id generation => clearProcessIdentity s a now id generation

def perform (sys : System) (c : Call) : System where
  store := (invoke uuidParse applyDigest sys.store c).store
  disk := written sys.disk (invoke uuidParse applyDigest sys.store c).writes

def restart (disk : Option Entries) (readErr : Option String) : System where
  store := newStore disk readErr
  disk := disk

def step (sys : System) : Step → System
  | .call c => perform uuidParse applyDigest sys c
  | .crash c writes readErr =>
    restart (written sys.disk ((invoke uuidParse applyDigest sys.store c).writes.take writes)) readErr
  | .restart readErr => restart sys.disk readErr

def run (steps : List Step) : System := steps.foldl (step uuidParse applyDigest) {}

end Runs

section Property

def Requested : Call → LedgerEntry → Prop
  | .prepareApply _ _ cmd, e =>
    e.desiredState = .active ∧ e.generation = cmd.generation ∧ e.requestID = cmd.requestID ∧ e.deviceID = cmd.deviceID ∧
      e.orgID = cmd.orgID
  | .prepareCleanup _ _ cmd, e =>
    e.desiredState = .cleanup ∧ e.generation = cmd.generation ∧ e.requestID = cmd.requestID ∧ e.deviceID = cmd.deviceID ∧
      e.orgID = cmd.orgID
  | .bindProcess _ _ _ generation process, e =>
    e.desiredState = .active ∧ e.generation = generation ∧ e.pid = process.pid ∧
      e.processCreationTime = some process.processCreationTime ∧ e.jobName = process.jobName ∧ e.bootID = process.bootID
  | .clearProcessIdentity _ _ _ generation, e =>
    e.desiredState = .cleanup ∧ e.generation = generation ∧ e.pid = 0 ∧ e.processCreationTime = none ∧ e.jobName = "" ∧
      e.bootID = ""

def Same (es es' : Entries) : Prop := ∀ k, es'.lookup k = es.lookup k

/-- A call from `sys` to `sys'` with the given answer changed nothing, or put one entry into memory and on disk. -/
def Atomic (sys : System) (c : Call) (value : Except StoreError Unit) (sys' : System) : Prop :=
  match value with
  | .error _ => Same sys.store.entries sys'.store.entries ∧ Same (loaded sys) (loaded sys')
  | .ok _ =>
    ∃ e, Requested c e ∧ sys'.store.entries.lookup c.key = some e ∧ (loaded sys').lookup c.key = some e ∧
      ∀ k, k ≠ c.key → sys'.store.entries.lookup k = sys.store.entries.lookup k ∧ (loaded sys').lookup k = (loaded sys).lookup k

def Known (sys : System) (id : String) (e : LedgerEntry) : Prop :=
  sys.store.entries.lookup id = some e ∨ (loaded sys).lookup id = some e

structure Follows (earlier later : LedgerEntry) : Prop where
  generation : earlier.generation ≤ later.generation
  tombstone : earlier.desiredState = .cleanup → later.desiredState = .cleanup
  request : later.requestID = earlier.requestID
  device : later.deviceID = earlier.deviceID
  org : later.orgID = earlier.orgID

def Bound (e : LedgerEntry) : Prop := e.pid ≠ 0 ∧ e.processCreationTime.isSome ∧ e.jobName ≠ "" ∧ e.bootID ≠ ""

def Unbound (e : LedgerEntry) : Prop := e.pid = 0 ∧ e.processCreationTime = none ∧ e.jobName = "" ∧ e.bootID = ""

structure Consistent (uuidParse : String → Bool) (applyDigest : ApplyCommand → Except String String) (steps : List Step) :
    Prop where
  atomic : ∀ pre c post, steps = pre ++ .call c :: post →
    Atomic (run uuidParse applyDigest pre) c (invoke uuidParse applyDigest (run uuidParse applyDigest pre).store c).value
      (run uuidParse applyDigest (pre ++ [.call c]))
  follows : ∀ pre mid post, steps = pre ++ mid ++ post → ∀ id e e', Known (run uuidParse applyDigest pre) id e →
    Known (run uuidParse applyDigest (pre ++ mid)) id e' → Follows e e'
  whole : ∀ pre post, steps = pre ++ post → ∀ id e, Known (run uuidParse applyDigest pre) id e → Bound e ∨ Unbound e

def Complete : Call → Prop
  | .bindProcess _ _ _ _ process => process.pid ≠ 0 ∧ process.jobName ≠ "" ∧ process.bootID ≠ ""
  | _ => True

def Meets : Step → Prop
  | .call c => (firstError (persistSteps c.answers) = none → c.answers.chmodFile = none) ∧ Complete c
  | .crash c _ _ => Complete c
  | .restart _ => True

end Property

section Calls

variable {uuidParse : String → Bool} {applyDigest : ApplyCommand → Except String String} {s : Store}

/-- A call is refused, finds its entry already there, or replaces the entry of its actuation. -/
inductive Change (s : Store) (c : Call) (o : Outcome Unit) : Prop
  | refused (e : StoreError) (hv : o.value = .error e) (hs : o.store = s) (hw : o.writes = [])
  | kept (e : LedgerEntry) (hl : s.loadErr = none) (he : s.entries.lookup c.key = some e) (hr : Requested c e)
      (hv : o.value = .ok ()) (hs : o.store = s) (hw : o.writes = [])
  | replaced (next : LedgerEntry) (hl : s.loadErr = none) (hr : Requested c next)
      (hf : ∀ p, s.entries.lookup c.key = some p → Follows p next)
      (hb : Complete c → (∀ p, s.entries.lookup c.key = some p → Bound p ∨ Unbound p) → Bound next ∨ Unbound next)
      (hq : o.writes ≠ [] → firstError (persistSteps c.answers) = none)
      (ho : Replaced s c.answers c.key next () o)

lemma replaceLocked_writes {α : Type} (a : PersistAnswers) (key : String) (next : LedgerEntry) (done : α)
    (h : (replaceLocked s a key next done).writes ≠ []) : firstError (persistSteps a) = none := by
  cases he : firstError (persistSteps a) with
  | none => rfl
  | some e => simp [replaceLocked, persistLocked, he] at h

lemma replaced_forget {α : Type} {a : PersistAnswers} {key : String} {next : LedgerEntry} {done : α} {o : Outcome α}
    (h : Replaced s a key next done o) : Replaced s a key next () (forget o) := by
  cases h with
  | unwritten hv hw hl hs =>
    obtain ⟨e, he⟩ := hv
    exact .unwritten ⟨e, by simp [forget, he, Except.map]⟩ hw hl hs
  | rolledBack hv hw hl hs hc =>
    obtain ⟨e, he⟩ := hv
    exact .rolledBack ⟨e, by simp [forget, he, Except.map]⟩ hw hl hs hc
  | changed => exact .changed

variable {a : PersistAnswers} {now : Time} {o : Outcome Decision} {u : Outcome Unit}

lemma change_prepareApply {cmd : ApplyCommand} (ho : PrepareApplyCases uuidParse s a now cmd o) :
    Change s (.prepareApply a now cmd) (forget o) := by
  cases ho with
  | refused e => exact .refused e rfl rfl rfl
  | duplicate previous hl he hactive hgen hids => exact .kept previous hl he ⟨hactive, hgen, hids⟩ rfl rfl rfl
  | recorded digest hl he hv =>
    refine .replaced (activeEntry cmd digest now) hl ⟨rfl, rfl, rfl, rfl, rfl⟩ (fun p hp => ?_) (fun _ _ => ?_)
      (replaceLocked_writes a _ _ Decision.apply) (replaced_forget (replaceLocked_replaced ..))
    · rw [Call.key, he] at hp
      cases hp
    · exact Or.inr ⟨rfl, rfl, rfl, rfl⟩

lemma tombstone_whole {cmd : CleanupCommand} {previous : Option LedgerEntry}
    (h : ∀ p, previous = some p → Bound p ∨ Unbound p) : Bound (tombstone cmd previous now) ∨ Unbound (tombstone cmd previous now) := by
  cases previous with
  | none => exact Or.inr ⟨rfl, rfl, rfl, rfl⟩
  | some p => exact h p rfl

lemma change_prepareCleanup {cmd : CleanupCommand} (ho : PrepareCleanupCases uuidParse s a now cmd o) :
    Change s (.prepareCleanup a now cmd) (forget o) := by
  cases ho with
  | refused e => exact .refused e rfl rfl rfl
  | duplicate previous hl he hclean hgen hids => exact .kept previous hl he ⟨hclean, hgen, hids⟩ rfl rfl rfl
  | recorded hl hv hp =>
    refine .replaced _ hl ?_ (fun p hpp => ?_) (fun _ hw => tombstone_whole hw)
      (replaceLocked_writes a _ _ Decision.cleanup) (replaced_forget (replaceLocked_replaced ..))
    · exact ⟨rfl, rfl, rfl, rfl, rfl⟩
    · obtain ⟨hgen, hreq, hdev, horg⟩ := hp p hpp
      exact ⟨UInt64.le_of_lt hgen, fun _ => rfl, hreq.symm, hdev.symm, horg.symm⟩

lemma change_replace {c : Call} {state : DesiredState} {generation : UInt64} {next : LedgerEntry → LedgerEntry}
    (hu : ReplaceCases s c.answers c.key state generation next u)
    (hr : ∀ e, e.desiredState = state → e.generation = generation → Requested c (next e)) (hf : ∀ e, Follows e (next e))
    (hb : ∀ e, Complete c → Bound (next e) ∨ Unbound (next e)) : Change s c u := by
  cases hu with
  | refused e => exact .refused e rfl rfl rfl
  | recorded entry hl he hstate hgen =>
    refine .replaced _ hl (hr entry hstate hgen) (fun p hp => ?_) (fun hc _ => hb entry hc) (replaceLocked_writes _ _ _ ())
      (replaceLocked_replaced ..)
    rw [he] at hp
    cases hp
    exact hf entry

lemma invoke_change (c : Call) : Change s c (invoke uuidParse applyDigest s c) := by
  cases c with
  | prepareApply a now cmd => exact change_prepareApply (prepareApply_cases cmd)
  | prepareCleanup a now cmd => exact change_prepareCleanup (prepareCleanup_cases cmd)
  | bindProcess a now id generation process =>
    exact change_replace (bindProcess_cases id generation process) (fun _ hactive hgen => ⟨hactive, hgen, rfl, rfl, rfl, rfl⟩)
      (fun _ => ⟨UInt64.le_refl _, fun h => h, rfl, rfl, rfl⟩) fun _ hc => Or.inl ⟨hc.1, rfl, hc.2.1, hc.2.2⟩
  | clearProcessIdentity a now id generation =>
    exact change_replace (clearProcessIdentity_cases id generation) (fun _ hclean hgen => ⟨hclean, hgen, rfl, rfl, rfl, rfl⟩)
      (fun _ => ⟨UInt64.le_refl _, fun h => h, rfl, rfl, rfl⟩) fun _ _ => Or.inr ⟨rfl, rfl, rfl, rfl⟩

end Calls

section Invariant

def Whole (es : Entries) : Prop := ∀ id e, es.lookup id = some e → Bound e ∨ Unbound e

def Evolves (es es' : Entries) : Prop := ∀ id e, es.lookup id = some e → ∃ e', es'.lookup id = some e' ∧ Follows e e'

structure Inv (sys : System) : Prop where
  agree : sys.store.loadErr = none → Same (loaded sys) sys.store.entries
  empty : sys.store.loadErr ≠ none → ∀ k, sys.store.entries.lookup k = none
  whole : Whole (loaded sys)

lemma Follows.refl (e : LedgerEntry) : Follows e e := ⟨UInt64.le_refl _, fun h => h, rfl, rfl, rfl⟩

lemma Follows.trans {e₁ e₂ e₃ : LedgerEntry} (h : Follows e₁ e₂) (h' : Follows e₂ e₃) : Follows e₁ e₃ :=
  ⟨UInt64.le_trans h.generation h'.generation, fun hc => h'.tombstone (h.tombstone hc), h'.request.trans h.request,
    h'.device.trans h.device, h'.org.trans h.org⟩

lemma Evolves.refl (es : Entries) : Evolves es es := fun _ e he => ⟨e, he, Follows.refl e⟩

lemma Evolves.trans {es₁ es₂ es₃ : Entries} (h : Evolves es₁ es₂) (h' : Evolves es₂ es₃) : Evolves es₁ es₃ := by
  intro id e he
  obtain ⟨e₂, he₂, hf₂⟩ := h id e he
  obtain ⟨e₃, he₃, hf₃⟩ := h' id e₂ he₂
  exact ⟨e₃, he₃, hf₂.trans hf₃⟩

lemma Inv.known {sys : System} (h : Inv sys) {id : String} {e : LedgerEntry} (hk : Known sys id e) :
    (loaded sys).lookup id = some e := by
  rcases hk with hk | hk
  · cases hl : sys.store.loadErr with
    | none => rwa [h.agree hl] at hk
    | some err =>
      rw [h.empty (by simp [hl])] at hk
      cases hk
  · exact hk

variable {uuidParse : String → Bool} {applyDigest : ApplyCommand → Except String String} {sys : System}

variable {c : Call} {steps : List Step}

lemma writes_evolve (h : Inv sys) (hc : Complete c) {es : Entries}
    (hes : es ∈ (invoke uuidParse applyDigest sys.store c).writes) : Evolves (loaded sys) es ∧ Whole es := by
  have hch : Change sys.store c (invoke uuidParse applyDigest sys.store c) := invoke_change c
  generalize invoke uuidParse applyDigest sys.store c = o at hch hes
  cases hch with
  | refused e hv hs hw | kept e hl he hr hv hs hw => simp [hw] at hes
  | replaced next hl hr hf hb hq ho =>
    have hagree := h.agree hl
    have hnext : Bound next ∨ Unbound next := hb hc fun p hp => h.whole c.key p (by rwa [← hagree])
    have heq : es = sys.store.entries.insert c.key next := by
      cases ho with
      | unwritten hv hw hl hs => simp [hw] at hes
      | rolledBack hv hw hl hs hch => simpa [hw] using hes
      | changed => simpa using hes
    subst heq
    refine ⟨fun id e he => ?_, fun id e he => ?_⟩
    · rw [← hagree] at he
      by_cases hid : id = c.key
      · subst hid
        exact ⟨next, AList.lookup_insert _, hf e he⟩
      · exact ⟨e, by rwa [AList.lookup_insert_ne hid], Follows.refl e⟩
    · by_cases hid : id = c.key
      · subst hid
        rw [AList.lookup_insert] at he
        cases he
        exact hnext
      · rw [AList.lookup_insert_ne hid, hagree] at he
        exact h.whole id e he

lemma written_cases (disk : Option Entries) (writes : List Entries) :
    written disk writes = disk ∨ ∃ es ∈ writes, written disk writes = some es := by
  induction writes generalizing disk with
  | nil => exact Or.inl rfl
  | cons es writes ih =>
    rcases ih (some es) with h | ⟨es', hes', h⟩
    · exact Or.inr ⟨es, List.mem_cons_self, h⟩
    · exact Or.inr ⟨es', List.mem_cons_of_mem _ hes', h⟩

lemma disk_evolves (h : Inv sys) (hc : Complete c) {writes : List Entries} {store : Store}
    (hw : ∀ es ∈ writes, es ∈ (invoke uuidParse applyDigest sys.store c).writes) :
    Evolves (loaded sys) (loaded ⟨store, written sys.disk writes⟩) ∧ Whole (loaded ⟨store, written sys.disk writes⟩) := by
  rcases written_cases sys.disk writes with hd | ⟨es, hes, hd⟩
  · rw [hd]
    exact ⟨Evolves.refl _, h.whole⟩
  · rw [hd]
    exact writes_evolve h hc (hw es hes)

lemma restart_inv {disk : Option Entries} (hw : Whole (loaded ⟨{}, disk⟩)) (readErr : Option String) :
    Inv (restart disk readErr) := by
  cases readErr with
  | none => exact ⟨fun _ _ => rfl, fun h => absurd rfl h, hw⟩
  | some e => exact ⟨nofun, fun _ _ => rfl, hw⟩

lemma perform_inv (h : Inv sys) (hm : Meets (.call c)) : Inv (perform uuidParse applyDigest sys c) := by
  have hwhole : Whole (loaded (perform uuidParse applyDigest sys c)) := (disk_evolves h hm.2 fun _ hes => hes).2
  have hch : Change sys.store c (invoke uuidParse applyDigest sys.store c) := invoke_change c
  simp only [perform] at hwhole ⊢
  generalize invoke uuidParse applyDigest sys.store c = o at hch hwhole ⊢
  cases hch with
  | refused e hv hs hw | kept e hl he hr hv hs hw =>
    rw [hs, hw]
    exact h
  | replaced next hload hr hf hb hq ho =>
    cases ho with
    | unwritten hv hw hl hs =>
      rw [hw]
      exact ⟨fun _ k => (hs k).trans (h.agree hload k), fun hne => absurd (hl.trans hload) hne, h.whole⟩
    | rolledBack hv hw hl hs hc => exact absurd (hm.1 (hq (by simp [hw]))) hc
    | changed => exact ⟨fun _ _ => rfl, fun hne => absurd hload hne, hwhole⟩

lemma perform_atomic (h : Inv sys) (hm : Meets (.call c)) :
    Atomic sys c (invoke uuidParse applyDigest sys.store c).value (perform uuidParse applyDigest sys c) := by
  have hch : Change sys.store c (invoke uuidParse applyDigest sys.store c) := invoke_change c
  simp only [perform]
  generalize invoke uuidParse applyDigest sys.store c = o at hch ⊢
  cases hch with
  | refused e hv hs hw =>
    rw [hv, hs, hw]
    exact ⟨fun _ => rfl, fun _ => rfl⟩
  | kept e hl he hr hv hs hw =>
    rw [hv, hs, hw]
    exact ⟨e, hr, he, (h.agree hl c.key).symm.trans he, fun k _ => ⟨rfl, rfl⟩⟩
  | replaced next hload hr hf hb hq ho =>
    cases ho with
    | unwritten hv hw hl hs =>
      obtain ⟨e, he⟩ := hv
      rw [he, hw]
      exact ⟨hs, fun _ => rfl⟩
    | rolledBack hv hw hl hs hc => exact absurd (hm.1 (hq (by simp [hw]))) hc
    | changed =>
      refine ⟨next, hr, AList.lookup_insert _, AList.lookup_insert _, fun k hk => ⟨AList.lookup_insert_ne hk, ?_⟩⟩
      exact (AList.lookup_insert_ne hk).trans (h.agree hload k)

lemma step_inv (h : Inv sys) {st : Step} (hm : Meets st) : Inv (step uuidParse applyDigest sys st) := by
  cases st with
  | call c => exact perform_inv h hm
  | crash c writes readErr => exact restart_inv (disk_evolves h hm fun _ hes => List.mem_of_mem_take hes).2 readErr
  | restart readErr => exact restart_inv h.whole readErr

lemma step_evolves (h : Inv sys) {st : Step} (hm : Meets st) :
    Evolves (loaded sys) (loaded (step uuidParse applyDigest sys st)) := by
  cases st with
  | call c => exact (disk_evolves h hm.2 fun _ hes => hes).1
  | crash c writes readErr => exact (disk_evolves h hm fun _ hes => List.mem_of_mem_take hes).1
  | restart readErr => exact Evolves.refl _

lemma runFrom_inv (h : Inv sys) (hm : ∀ st ∈ steps, Meets st) : Inv (steps.foldl (step uuidParse applyDigest) sys) ∧
      Evolves (loaded sys) (loaded (steps.foldl (step uuidParse applyDigest) sys)) := by
  induction steps generalizing sys with
  | nil => exact ⟨h, Evolves.refl _⟩
  | cons st steps ih =>
    have hst : Meets st := hm st List.mem_cons_self
    obtain ⟨hinv, hev⟩ := ih (step_inv h hst) fun st' hst' => hm st' (List.mem_cons_of_mem _ hst')
    exact ⟨hinv, (step_evolves h hst).trans hev⟩

lemma run_append (steps steps' : List Step) : run uuidParse applyDigest (steps ++ steps') =
    steps'.foldl (step uuidParse applyDigest) (run uuidParse applyDigest steps) := by
  simp [run]

lemma initial_inv : Inv {} := ⟨fun _ _ => rfl, fun h => absurd rfl h, fun id e he => by cases he⟩

lemma run_inv (hm : ∀ st ∈ steps, Meets st) : Inv (run uuidParse applyDigest steps) :=
  (runFrom_inv initial_inv hm).1

end Invariant

theorem ledger_consistent {uuidParse : String → Bool} {applyDigest : ApplyCommand → Except String String} {steps : List Step}
    (hm : ∀ st ∈ steps, Meets st) : Consistent uuidParse applyDigest steps where
  atomic := by
    rintro pre c post rfl
    have hpre : Inv (run uuidParse applyDigest pre) := run_inv fun st hst => hm st (by simp [hst])
    rw [run_append]
    exact perform_atomic hpre (hm _ (by simp))
  follows := by
    rintro pre mid post rfl id e e' he he'
    have hpre : Inv (run uuidParse applyDigest pre) := run_inv fun st hst => hm st (by simp [hst])
    rw [run_append] at he'
    obtain ⟨hlast, hev⟩ : Inv (mid.foldl (step uuidParse applyDigest) (run uuidParse applyDigest pre)) ∧
        Evolves _ (loaded (mid.foldl (step uuidParse applyDigest) (run uuidParse applyDigest pre))) :=
      runFrom_inv hpre fun st hst => hm st (by simp [hst])
    obtain ⟨e'', hlater, hf⟩ := hev id e (hpre.known he)
    rw [hlast.known he'] at hlater
    cases hlater
    exact hf
  whole := by
    rintro pre post rfl id e he
    have hpre : Inv (run uuidParse applyDigest pre) := run_inv fun st hst => hm st (by simp [hst])
    exact hpre.whole id e (hpre.known he)

section Scenario

def applied : ApplyCommand where
  protocolVersion := 2
  actuationID := "one"
  generation := 1
  requestID := "request"
  deviceID := "device"
  orgID := "org"
  targetPath := "target"
  targetHash := none
  subjectUsername := "user"
  expiresAt := 10
  serverTime := 5
  maxRemainingLifetimeMS := 1

def cleaned : CleanupCommand where
  protocolVersion := 2
  actuationID := "one"
  generation := 2
  requestID := "request"
  deviceID := "device"
  orgID := "org"

def life : List Step :=
  [.call (.prepareApply { write := some "no space" } 1 applied), .call (.prepareApply {} 1 applied),
    .call (.bindProcess {} 2 "one" 1 { pid := 7, jobName := "job", bootID := "boot" }),
    .call (.prepareCleanup {} 3 cleaned), .restart none, .call (.clearProcessIdentity {} 4 "one" 2)]

theorem ledger_consistent_life :
    (∀ st ∈ life, Meets st) ∧ Consistent (fun _ => true) (fun _ => .ok "digest") life := by
  have hm : ∀ st ∈ life, Meets st := by
    simp [life, Meets, Complete, Call.answers]
  exact ⟨hm, ledger_consistent hm⟩

/-- The new ledger is on disk when its mode cannot be set, and the call reports an error. -/
theorem failed_call_reaches_disk :
    ¬ Consistent (fun _ => true) (fun _ => .ok "digest") [.call (.prepareApply { chmodFile := some "denied" } 1 applied)] := by
  intro h
  have hatomic := h.atomic [] _ [] rfl
  have hsame := hatomic.2 "one"
  exact absurd (congrArg Option.isSome hsame) (by decide +kernel)

end Scenario

end Breeze.Pam.Atomicity
