import Breeze.Pam.AtMostOnce
import Breeze.Pam.Discipline

/-! Admission after a failure, over every interleaving of the sections of the calls. -/

namespace Breeze.Pam.Admission

open Breeze.Lib.Sections Ledger Manager Durability Interleaving Discipline

section Since

variable {E : Type} {M : E → Prop} {P P' : List E → Prop}

def Since (M : E → Prop) (P : List E → Prop) : List E → Prop
  | [] => True
  | e :: rest => (M e → P rest) ∧ Since M P rest

variable {events : List E} {e : E}

lemma Since.snoc (h : Since M P events) (hold : ∀ rest, P rest → P' (rest ++ [e]))
    (hnew : M e → P' []) : Since M P' (events ++ [e]) := by
  induction events with
  | nil => exact ⟨hnew, trivial⟩
  | cons e' rest ih => exact ⟨fun hm => hold rest (h.1 hm), ih h.2⟩

lemma Since.rest {pre rest : List E} (h : Since M P (pre ++ e :: rest)) (he : M e) : P rest := by
  induction pre with
  | nil => exact h.1 he
  | cons e' pre ih => exact ih h.2

lemma Since.mono (h : Since M P events) (hP : ∀ rest, P rest → P' rest) : Since M P' events := by
  induction events with
  | nil => trivial
  | cons e rest ih => exact ⟨fun hm => hP rest (h.1 hm), ih h.2⟩

lemma Since.both (h : Since M P events) (h' : Since M P' events) : Since M (fun rest => P rest ∧ P' rest) events := by
  induction events with
  | nil => trivial
  | cons e rest ih => exact ⟨fun hm => ⟨h.1 hm, h'.1 hm⟩, ih h.2 h'.2⟩

lemma since_all (h : ∀ rest, P rest) : Since M P events := by
  induction events with
  | nil => trivial
  | cons e rest ih => exact ⟨fun _ => h rest, ih⟩

end Since

variable (uuidParse : String → Bool) (applyDigest : ApplyCommand → Except String String)

abbrev Taken := ℕ × Label × LifecycleManager

def Marks (e : Taken) : Prop := ∃ origin key generation, e.2.1 = .marked origin key generation

def Reopened (events : List Taken) : Prop :=
  ∃ (c : ℕ) (m m' : LifecycleManager) (before between after : List Taken),
    events = before ++ (c, .enableRead, m) :: between ++ (c, .enabled, m') :: after

def marking (t : Thread LifecycleManager Label) : Bool :=
  match t.program.label? with
  | some (.marked _ _ _) => true
  | _ => false

def atOpening (t : Thread LifecycleManager Label) : Bool :=
  match t.program.label? with
  | some .openAdmission => true
  | _ => false

def meets (sys : System) : Step → Bool
  | .advance i => !(sys.threads[i]?).any marking || !sys.threads.any atOpening
  | _ => true

def meetsAll : System → List Step → Bool
  | _, [] => true
  | sys, st :: steps => meets sys st && meetsAll (step uuidParse applyDigest sys st) steps

def Admits (e : Taken) : Prop := e.2.1 = .admission ∧ admitted e.2.2 = true

def ClosedUntilReopened (events : List Taken) : Prop :=
  ∀ pre mid post e e', events = pre ++ e :: (mid ++ e' :: post) → Marks e → Admits e' → Reopened mid

def StaysClosed (events : List Taken) : Prop :=
  Since Marks (fun rest => ∀ mid e post, rest = mid ++ e :: post → Admits e → Reopened mid) events

def Reopening (threads : List (Thread LifecycleManager Label)) (events : List Taken) : Prop :=
  ∃ c t m, threads[c]? = some t ∧ t.program.label? = some .enabled ∧ (c, .enableRead, m) ∈ events

section Shape

variable {α : Type}

lemma label_ne_of_neverOpens {p : Prog α} (h : NeverOpens p) (m : LifecycleManager) : p.label? ≠ some .openAdmission := by
  cases p with
  | done a => nofun
  | atom label update next =>
    intro hl
    cases hl
    exact (h m m trivial).1 rfl

lemma neverOpens_pure (a : α) : NeverOpens (pure a : Prog α) := fun _ => Safe.pure fun _ _ => trivial

def opening : Prog (Option String) := do
  sec .openAdmission (modify fun m => { m with enabled := true, admissionOpen := true })
  sec .enabled (pure ())
  return none

lemma neverOpens_sec {β : Type} {x : Op α} (label : Label) (h : label ≠ .openAdmission) (b : β) :
    NeverOpens (sec label x >>= fun _ => (pure b : Prog β)) :=
  fun m => by
  have hsec : Safe (fun _ _ => True) (fun label _ _ => label ≠ Label.openAdmission) (fun _ _ => True) (sec label x) m :=
    Safe.lift fun _ _ => ⟨h, fun _ _ => trivial⟩
  exact hsec.bind (fun _ => trivial) fun _ s _ => neverOpens_pure b s

lemma neverOpens_void {p : Prog α} (h : NeverOpens p) : NeverOpens (p >>= fun _ => pure ()) :=
  fun m => Safe.bind (fun _ => trivial) (h m) fun _ s _ => neverOpens_pure _ s

inductive Shape : Prog Unit → Prop
  | closed {p : Prog Unit} (h : NeverOpens p) : Shape p
  | enabling : Shape (enableP >>= fun _ => pure ())
  | opening : Shape (opening >>= fun _ => pure ())

lemma Shape.next {label : Label} {update : LifecycleManager → LifecycleManager} {next : LifecycleManager → Prog Unit}
    (h : Shape (.atom label update next)) (m : LifecycleManager) :
    Shape (next m) ∧ ((next m).label? = some .openAdmission → label = .enableRead) ∧
      (label = .openAdmission → (next m).label? = some .enabled) := by
  generalize hp : Program.atom label update next = p at h
  cases h with
  | closed h =>
    subst hp
    obtain ⟨hlabel, hnext⟩ := h m m trivial
    have hnever : NeverOpens (next m) := fun _ => hnext.later (fun _ _ _ _ _ => trivial) trivial
    exact ⟨.closed hnever, fun hl => absurd hl (label_ne_of_neverOpens hnever m), fun hl => absurd hl hlabel⟩
  | enabling =>
    cases hp
    refine ⟨?_, fun _ => rfl, nofun⟩
    change Shape ((if !m.available || !m.unresolved.keys.isEmpty then _ else if m.enabled && m.admissionOpen then _ else _ : Prog (Option String)) >>= fun _ => pure ())
    split_ifs
    · exact .closed (neverOpens_void (neverOpens_pure _))
    · exact .closed (neverOpens_void (neverOpens_sec .enabled nofun none))
    · exact .opening
  | opening =>
    cases hp
    exact ⟨.closed (neverOpens_void (neverOpens_sec .enabled nofun none)), nofun, fun _ => rfl⟩

lemma shape_call (c : Call) :
    Shape (c.program uuidParse applyDigest) ∧ (c.program uuidParse applyDigest).label? ≠ some .openAdmission := by
  have hnever {p : Prog Unit} (h : NeverOpens p) : Shape p ∧ p.label? ≠ some .openAdmission :=
    ⟨.closed h, label_ne_of_neverOpens h {}⟩
  have hclosed (h : Opens c = false) : NeverOpens (c.program uuidParse applyDigest) := by
    have hobeys : Obeys uuidParse (!Opens c) c.inside (fun s => Keyed s.entries) (c.program uuidParse applyDigest)
        fun _ _ => True := obeys_call c
    exact hobeys.opens (by rw [h]; rfl)
  cases c with
  | apply ans cmd | cleanup gate ans cmd | reconcile ans | acquireLegacyActuation gate => exact hnever (hclosed rfl)
  | setEnabled ans enabled =>
    cases enabled with
    | false => exact hnever (hclosed rfl)
    | true =>
      simp only [Call.program, setEnabledP]
      cases ans.gate with
      | error e => exact hnever (neverOpens_void (neverOpens_sec (.marked .setEnabled "__account__" 0) (by simp) _))
      | ok u => exact ⟨.enabling, fun hl => by cases hl⟩

end Shape

section Invariant

variable {uuidParse : String → Bool} {applyDigest : ApplyCommand → Except String String} {sys : System}

structure Guarded (sys : System) : Prop where
  past : StaysClosed sys.history
  shape : ∀ t ∈ sys.threads, Shape t.program
  opening : ∀ c t, sys.threads[c]? = some t → t.program.label? = some .openAdmission →
    Since Marks (fun rest => ∃ m, (c, Label.enableRead, m) ∈ rest) sys.history
  reopened : sys.state.admissionOpen = true → Since Marks (fun rest => Reopened rest ∨ Reopening sys.threads rest) sys.history

variable {events : List Taken} {i : ℕ} {t : Thread LifecycleManager Label} {label : Label}

lemma Reopened.snoc (h : Reopened events) (e : Taken) : Reopened (events ++ [e]) := by
  obtain ⟨c, m, m', before, between, after, rfl⟩ := h
  exact ⟨c, m, m', before, between, after ++ [e], by simp⟩

lemma reopened_of_answer {c : ℕ} {m m' : LifecycleManager} (h : (c, .enableRead, m) ∈ events) :
    Reopened (events ++ [(c, .enabled, m')]) := by
  obtain ⟨before, between, rfl⟩ := List.append_of_mem h
  exact ⟨c, m, m', before, between, [], by simp⟩

lemma Reopening.mono {threads threads' : List (Thread LifecycleManager Label)}
    (h : Reopening threads events) (hth : ∀ c, c ≠ i → threads'[c]? = threads[c]?) (e : Taken) :
    Reopening threads' (events ++ [e]) ∨ ∃ t m, threads[i]? = some t ∧ t.program.label? = some .enabled ∧
      (i, .enableRead, m) ∈ events := by
  obtain ⟨c, t, m, hc, hl, hm⟩ := h
  by_cases hci : c = i
  · subst hci
    exact Or.inr ⟨t, m, hc, hl, hm⟩
  · exact Or.inl ⟨c, t, m, (hth c hci).trans hc, hl, List.mem_append_left _ hm⟩

def State (uuidParse : String → Bool) (m : LifecycleManager) : Prop := Records uuidParse False m ∧ Honest m

lemma kept_next (h : Kept Rely (Guar uuidParse) (State uuidParse) sys) (st : Step) :
    Kept Rely (Guar uuidParse) (State uuidParse) (step uuidParse applyDigest sys st) := by
  refine Discipline.kept_step h (fun m hm => hm.1.memory.keyed) (fun readErr => ⟨h.state.1.restarted readErr, fun _ => rfl⟩) st ?_
  intro i t label m' _ _ _ hg
  exact ⟨hg.records False False False.elim h.state.1, hg.honest h.state.2⟩

lemma inside_of_label
    (h : Kept Rely (Guar uuidParse) (State uuidParse) sys) (ht : t ∈ sys.threads) (hl : t.program.label? = some label)
    (hgate : Gated label) : t.inside = true := by
  have hsafe := h.threads t ht
  obtain ⟨inside, program⟩ := t
  cases program with
  | done a => cases hl
  | atom l update next =>
    cases hl
    exact (hsafe sys.state ((contract uuidParse).refl _ _)).1.gate hgate

lemma holds_of_label (hin : t.inside = true) (hl : t.program.label? = some label) : t.holds = true := by
  obtain ⟨inside, program⟩ := t
  cases program with
  | done a => cases hl
  | atom l update next => exact Bool.and_eq_true_iff.mpr ⟨hin, rfl⟩

lemma snoc_split {E : Type} {rest mid post : List E} {x e : E} (h : rest ++ [x] = mid ++ e :: post) :
    (mid = rest ∧ e = x) ∨ ∃ post', rest = mid ++ e :: post' := by
  rcases List.eq_nil_or_concat post with rfl | ⟨post', y, rfl⟩
  · obtain ⟨hmid, he⟩ := List.append_inj' h rfl
    cases he
    exact Or.inl ⟨hmid.symm, rfl⟩
  · refine Or.inr ⟨post', ?_⟩
    rw [List.concat_eq_append, ← List.cons_append, ← List.append_assoc] at h
    exact (List.append_inj' h rfl).1

lemma Guarded.advance (h : Guarded sys) (hk : Kept Rely (Guar uuidParse) (State uuidParse) sys)
    (hm : meets sys (.advance i) = true) {inside : Bool} {update : LifecycleManager → LifecycleManager}
    {next : LifecycleManager → Prog Unit} (hi : sys.threads[i]? = some ⟨inside, .atom label update next⟩) :
    Guarded { state := update sys.state, threads := sys.threads.set i ⟨inside, next sys.state⟩,
              history := sys.history ++ [(i, label, sys.state)] } := by
  have hmem := List.mem_of_getElem? hi
  have hlt : i < sys.threads.length := (List.getElem?_eq_some_iff.mp hi).1
  have hguar : Guar uuidParse inside label sys.state (update sys.state) :=
    (hk.threads _ hmem sys.state ((contract uuidParse).refl _ _)).1
  obtain ⟨hshape, hread, hanswer⟩ := (h.shape _ hmem).next sys.state
  have hself : (sys.threads.set i ⟨inside, next sys.state⟩)[i]? = some ⟨inside, next sys.state⟩ := by
    rw [List.getElem?_set_self hlt]
  have hother (c : ℕ) (hc : c ≠ i) : (sys.threads.set i ⟨inside, next sys.state⟩)[c]? = sys.threads[c]? :=
    List.getElem?_set_ne (Ne.symm hc)
  have hmarked (hmk : Marks (i, label, sys.state)) : (update sys.state).admissionOpen = false := by
    obtain ⟨origin, key, generation, hlabel⟩ := hmk
    exact (hguar.marks origin key generation hlabel).1
  refine ⟨?_, ?_, ?_, ?_⟩
  · -- an admission now comes after the answer nil, since the call that admits has the gate
    have hnow : Since Marks (fun rest => Admits (i, label, sys.state) → Reopened rest) sys.history := by
      by_cases hadmits : Admits (i, label, sys.state)
      · obtain ⟨hlabel, hadmitted⟩ := hadmits
        dsimp only at hlabel hadmitted
        subst hlabel
        refine (h.reopened (Bool.and_eq_true_iff.mp hadmitted).2).mono fun rest hr _ => ?_
        rcases hr with hr | ⟨c, t, m, hc, hl, -⟩
        · exact hr
        · have hin : inside = true := hguar.gate trivial
          have hci : c = i := by
            refine hk.exclusive c i t _ hc hi ?_ (by simp [Thread.holds, hin, Program.finished])
            exact holds_of_label (inside_of_label hk (List.mem_of_getElem? hc) hl trivial) hl
          subst hci
          rw [hi] at hc
          cases hc
          cases hl
      · exact since_all fun _ hadm => absurd hadm hadmits
    refine (h.past.both hnow).snoc (fun rest hr mid e post heq hadm => ?_) fun _ mid e post heq => ?_
    · rcases snoc_split heq with ⟨rfl, rfl⟩ | ⟨post', hrest⟩
      · exact hr.2 hadm
      · exact hr.1 mid e post' hrest hadm
    · simp at heq
  · intro t ht
    rcases List.mem_or_eq_of_mem_set ht with ht | rfl
    · exact h.shape t ht
    · exact hshape
  · intro c t hc hl
    by_cases hci : c = i
    · subst hci
      rw [hself] at hc
      cases hc
      have hlabel := hread hl
      subst hlabel
      refine (since_all (P := fun _ => True) fun _ => trivial).snoc (fun rest _ => ⟨sys.state, by simp⟩) fun hmk => ?_
      obtain ⟨_, _, _, hmk⟩ := hmk
      cases hmk
    · rw [hother c hci] at hc
      refine (h.opening c t hc hl).snoc (fun rest hr => hr.imp fun m => List.mem_append_left _) fun hmk => ?_
      obtain ⟨origin, key, generation, hmk⟩ := hmk
      have hmarking : (sys.threads[i]?).any marking = true := by
        rw [hi]
        change label = _ at hmk
        simp [marking, Program.label?, hmk]
      have hnone : sys.threads.any atOpening = false := by simpa [meets, hmarking] using hm
      have hat : atOpening t = true := by simp [atOpening, hl]
      exact absurd hat (List.any_eq_false.mp hnone t (List.mem_of_getElem? hc))
  · intro hopen
    by_cases hop : label = .openAdmission
    · subst hop
      refine (h.opening i _ hi rfl).snoc (fun rest hr => Or.inr ?_) fun hmk => ?_
      · obtain ⟨m, hr⟩ := hr
        exact ⟨i, _, m, hself, hanswer rfl, List.mem_append_left _ hr⟩
      · rw [hmarked hmk] at hopen
        cases hopen
    · refine (h.reopened (hguar.shut hop hopen)).snoc (fun rest hr => ?_) fun hmk => ?_
      · rcases hr with hr | hr
        · exact Or.inl (hr.snoc _)
        · rcases hr.mono hother (i, label, sys.state) with hr | ⟨t, m, ht, hl, hr⟩
          · exact Or.inr hr
          · rw [hi] at ht
            cases ht
            cases hl
            exact Or.inl (reopened_of_answer hr)
      · rw [hmarked hmk] at hopen
        cases hopen

lemma Guarded.started (h : Guarded sys) (hshape : Shape t.program)
    (hlabel : t.program.label? ≠ some .openAdmission) : Guarded { sys with threads := sys.threads ++ [t] } := by
  refine ⟨h.past, fun u hu => ?_, fun c u hc hl => ?_, fun hopen => (h.reopened hopen).mono fun rest hr => ?_⟩
  · rcases List.mem_append.mp hu with hu | hu
    · exact h.shape u hu
    · rw [List.mem_singleton.mp hu]
      exact hshape
  · rcases lt_or_ge c sys.threads.length with hlt | hge
    · rw [List.getElem?_append_left hlt] at hc
      exact h.opening c u hc hl
    · have hu : u ∈ [t] := by
        rw [List.getElem?_append_right hge] at hc
        exact List.mem_of_getElem? hc
      rw [List.mem_singleton.mp hu] at hl
      exact absurd hl hlabel
  · refine hr.imp_right fun ⟨c, u, m, hc, hl, hm⟩ => ⟨c, u, m, ?_, hl, hm⟩
    exact (List.getElem?_append_left (List.getElem?_eq_some_iff.mp hc).1).trans hc

lemma Guarded.step (h : Guarded sys) (hk : Kept Rely (Guar uuidParse) (State uuidParse) sys) {st : Step} (hm : meets sys st = true) :
    Guarded (Interleaving.step uuidParse applyDigest sys st) := by
  cases st with
  | restart readErr => exact ⟨trivial, nofun, nofun, fun _ => trivial⟩
  | call c =>
    obtain ⟨hshape, hlabel⟩ := shape_call uuidParse applyDigest c
    have hmoved := sys.step_moved (.start (c.thread uuidParse applyDigest))
    change Guarded (sys.step (.start (c.thread uuidParse applyDigest)))
    generalize hthread : c.thread uuidParse applyDigest = t at hmoved ⊢
    generalize sys.step (.start t) = sys' at hmoved ⊢
    cases hmoved with
    | idle => exact h
    | started _ _ => exact h.started (hthread ▸ hshape) (hthread ▸ hlabel)
  | advance i =>
    have hmoved := sys.step_moved (.advance i)
    change Guarded (sys.step (.advance i))
    generalize sys.step (.advance i) = sys' at hmoved ⊢
    cases hmoved with
    | idle => exact h
    | taken _ inside label update next hi => exact h.advance hk hm hi

lemma kept_steps (steps : List Step) (h : Kept Rely (Guar uuidParse) (State uuidParse) sys) :
    Kept Rely (Guar uuidParse) (State uuidParse) (steps.foldl (step uuidParse applyDigest) sys) := by
  induction steps generalizing sys with
  | nil => exact h
  | cons st steps ih => exact ih (kept_next h st)

lemma guarded_steps {steps : List Step} (hm : meetsAll uuidParse applyDigest sys steps = true) (h : Guarded sys)
    (hk : Kept Rely (Guar uuidParse) (State uuidParse) sys) : Guarded (steps.foldl (step uuidParse applyDigest) sys) := by
  induction steps generalizing sys with
  | nil => exact h
  | cons st steps ih =>
    obtain ⟨hst, hrest⟩ := Bool.and_eq_true_iff.mp hm
    exact ih hrest (h.step hk hst) (kept_next hk st)

lemma kept_initial : Kept Rely (Guar uuidParse) (State uuidParse) { state := {} } :=
  ⟨⟨records_initial, fun _ => rfl⟩, nofun, nofun⟩

end Invariant

/-- At most one call has the gate, a section of a call without it leaves the ledger as it is, and no section removes an entry or
lowers the generation it covers. -/
theorem ledger_guarded (steps : List Step) (i : ℕ) :
    let sys := run uuidParse applyDigest steps
    let next := step uuidParse applyDigest sys (.advance i)
    sys.Exclusive ∧ (next.state.store = sys.state.store ∨ ∃ t, sys.threads[i]? = some t ∧ t.holds = true) ∧
      ∀ k e, sys.state.store.entries.lookup k = some e → ∃ e', next.state.store.entries.lookup k = some e' ∧ cover e ≤ cover e' := by
  intro sys next
  have hkept : Kept Rely (Guar uuidParse) (State uuidParse) sys := kept_steps steps kept_initial
  have hmoved : sys.Moved (.advance i) next := sys.step_moved (.advance i)
  refine ⟨hkept.exclusive, ?_⟩
  clear_value next
  cases hmoved with
  | idle => exact ⟨.inl rfl, fun _ e he => ⟨e, he, le_rfl⟩⟩
  | taken _ inside label update next hi =>
    have hguar := (hkept.threads _ (List.mem_of_getElem? hi) sys.state ((contract uuidParse).refl _ _)).1
    refine ⟨?_, hguar.grows.entries⟩
    cases inside with
    | false => exact .inl (hguar.outside rfl)
    | true => exact .inr ⟨_, hi, rfl⟩

theorem admission_closed_until_reopened (steps : List Step) :
    Honest (run uuidParse applyDigest steps).state ∧
      (meetsAll uuidParse applyDigest { state := {} } steps = true →
        ClosedUntilReopened (run uuidParse applyDigest steps).history) := by
  refine ⟨(kept_steps steps kept_initial).state.2, fun hm pre mid post e e' heq hmarks hadmits => ?_⟩
  have hpast := (guarded_steps hm ⟨trivial, nofun, nofun, fun _ => trivial⟩ kept_initial).past
  change StaysClosed (run uuidParse applyDigest steps).history at hpast
  rw [heq] at hpast
  exact hpast.rest hmarks mid e' post rfl hadmits

section Scenario

open AtMostOnce (cleanOk cleanupOf launchOk applyOne)

def closing : List Step :=
  [.call (.cleanup false cleanOk (cleanupOf "one")), .advance 0, .call (.cleanup true cleanOk (cleanupOf "one")), .advance 1,
    .advance 1, .call (.setEnabled { gate := .ok (), account := ⟨.ok "boot", none, none, .ok false⟩, cleanup := fun _ => cleanOk } true)]

def reopening : List Step := closing ++ [.advance 2, .advance 2, .advance 2, .call (.apply launchOk applyOne), .advance 3]

theorem admission_reopened :
    meetsAll (fun _ => true) (fun _ => .ok "digest") { state := {} } reopening = true ∧
      ClosedUntilReopened (run (fun _ => true) (fun _ => .ok "digest") reopening).history := by
  have h : meetsAll (fun _ => true) (fun _ => .ok "digest") { state := {} } reopening = true := by decide +kernel
  exact ⟨h, (admission_closed_until_reopened _ _ reopening).2 h⟩

def overtaken : List Step :=
  closing ++ [.advance 2, .call (.cleanup false cleanOk (cleanupOf "one")), .advance 3, .advance 2, .advance 2,
    .call (.cleanup true cleanOk (cleanupOf "one")), .advance 4, .advance 4, .call (.apply launchOk applyOne), .advance 5]

def reads (e : Taken) : Bool :=
  match e.2.1 with
  | .enableRead => true
  | _ => false

def marks (e : Taken) : Bool :=
  match e.2.1 with
  | .marked _ _ _ => true
  | _ => false

def admits (e : Taken) : Bool :=
  match e.2.1 with
  | .admission => admitted e.2.2
  | _ => false

lemma marks_spec {e : Taken} (h : marks e = true) : Marks e := by
  obtain ⟨t, label, m⟩ := e
  cases label with
  | marked origin key generation => exact ⟨origin, key, generation, rfl⟩
  | _ => cases h

lemma admits_spec {e : Taken} (h : admits e = true) : Admits e := by
  obtain ⟨t, label, m⟩ := e
  cases label with
  | admission => exact ⟨rfl, h⟩
  | _ => cases h

lemma split_at {events : List Taken} {i : ℕ} {p : Taken → Bool} (h : (events[i]?).any p = true) :
    ∃ e, p e = true ∧ events = events.take i ++ e :: events.drop (i + 1) := by
  obtain ⟨e, he, hp⟩ := (Option.any_eq_true _ _).mp h
  obtain ⟨hlt, hget⟩ := List.getElem?_eq_some_iff.mp he
  refine ⟨e, hp, ?_⟩
  rw [← hget, ← List.drop_eq_getElem_cons hlt, List.take_append_drop]

lemma not_closed_of_check {events : List Taken} {i n : ℕ} (hmark : (events[i]?).any marks = true)
    (hadmitted : ((events.drop (i + 1))[n]?).any admits = true)
    (hreads : ((events.drop (i + 1)).take n).any reads = false) : ¬ ClosedUntilReopened events := by
  intro hclosed
  obtain ⟨e, he, hevents⟩ := split_at hmark
  obtain ⟨e', he', hrest⟩ := split_at hadmitted
  rw [hrest] at hevents
  obtain ⟨c, m, m', before, between, after, hmid⟩ := hclosed _ _ _ e e' hevents (marks_spec he) (admits_spec he')
  rw [hmid] at hreads
  simp [reads] at hreads

/-- The SetEnabled(true) call writes the flags it has read before the mark, and the next successful Cleanup lets Apply in. -/
theorem stale_enable_reopens :
    ¬ ClosedUntilReopened (run (fun _ => true) (fun _ => .ok "digest") overtaken).history :=
  not_closed_of_check (i := 4) (n := 4) (by decide +kernel) (by decide +kernel) (by decide +kernel)

end Scenario

end Breeze.Pam.Admission
