import Breeze.NetworkDiagnostic.Retention

/-! The life of a journal file: any calls, failed writes, crashes and reopenings. A step starts once, a cancelled command starts
nothing more, and a result that the open journal holds is never replaced. -/

namespace Breeze.NetworkDiagnostic

open Lib

variable (expiry : String → String → Time)

def Step.Orderly (sys : System) : Step → Prop
  | .call c _ => ∀ d ∈ sys.journal, c.Orderly expiry d
  | .crash c _ => ∀ d ∈ sys.journal, c.Orderly expiry d
  | .open_ _ _ _ => True
  | .close => True

instance (sys : System) : DecidablePred (Step.Orderly expiry sys)
  | .call c _ => inferInstanceAs (Decidable (∀ d ∈ sys.journal, c.Orderly expiry d))
  | .crash c _ => inferInstanceAs (Decidable (∀ d ∈ sys.journal, c.Orderly expiry d))
  | .open_ _ _ _ => isTrue trivial
  | .close => isTrue trivial

def Orderly : System → List Step → Prop
  | _, [] => True
  | sys, st :: steps => st.Orderly expiry sys ∧ Orderly (step sys st) steps

instance Orderly.decidable : ∀ (sys : System) (steps : List Step), Decidable (Orderly expiry sys steps)
  | _, [] => isTrue trivial
  | sys, st :: steps => @instDecidableAnd _ _ _ (Orderly.decidable (step sys st) steps)

def System.stored (sys : System) : JournalData := sys.file.getD {}

structure Knows (log : List Event) (d : JournalData) : Prop where
  formed : Formed expiry d
  remembers : ∀ event ∈ log, Remembers expiry d event

structure Inv (sys : System) : Prop where
  file : Knows expiry sys.log sys.stored
  journal : ∀ d ∈ sys.journal, Knows expiry sys.log d
  log : sys.log.Pairwise Event.Allows
  -- the file has every result that the open journal has
  results : ∀ d ∈ sys.journal, ∀ s e x, d.entries.lookup s = some e → e.result = some x → Holds expiry e.key x sys.stored

def HoldsBoth (key : StepKey) (x : StepResult) (sys : System) : Prop :=
  Holds expiry key x sys.stored ∧ ∀ d ∈ sys.journal, Holds expiry key x d

variable {expiry} {sys : System} {log events : List Event} {d next : JournalData}

section

variable (h : Knows expiry log d) (hnext : Succeeds expiry d next events)

include h hnext

lemma Knows.succeeds : Knows expiry (log ++ events) next where
  formed := hnext.formed
  remembers := by
    intro event hevent
    rcases List.mem_append.mp hevent with hold | hnew
    · exact hnext.later.remembers (h.remembers event hold)
    · exact hnext.kept event hnew

lemma Knows.later : Knows expiry log next where
  formed := hnext.formed
  remembers := fun event hevent => hnext.later.remembers (h.remembers event hevent)

lemma Knows.allowed (hlog : log.Pairwise Event.Allows) :
    (log ++ events).Pairwise Event.Allows := by
  rw [List.pairwise_append]
  refine ⟨hlog, ?_, fun past hpast event hevent => hnext.allowed event hevent past (h.remembers past hpast)⟩
  match events, hnext.single with
  | [], _ => exact List.Pairwise.nil
  | [event], _ => exact List.pairwise_singleton _ _

end

variable {x : StepResult} {key : StepKey}

lemma Formed.holds (h : Formed expiry d) {s : String} {e : JournalEntry} (he : d.entries.lookup s = some e)
    (hx : e.result = some x) : Holds expiry e.key x d := by
  obtain rfl := h.key s e he
  exact Or.inl ⟨e, he, rfl, hx⟩

variable (expiry) in
/-- What one step does: nothing to the data, or it reads the file, or it commits a journal that succeeds the one it worked on. -/
inductive Moves (sys : System) : System → Prop
  | answer : Moves sys sys
  | closed : Moves sys { sys with journal := none }
  | opened : sys.journal = none → Moves sys { sys with journal := some sys.stored }
  | committed {d next : JournalData} {events : List Event} : (d ∈ sys.journal ∨ d = sys.stored) → Succeeds expiry d next events →
    Moves sys { file := some next, journal := some next, log := sys.log ++ events }
  | written {d next : JournalData} {events : List Event} {journal : Option JournalData} : (d ∈ sys.journal ∨ d = sys.stored) →
    Succeeds expiry d next events → (journal = sys.journal ∨ journal = none) →
    Moves sys { file := some next, journal := journal, log := sys.log }

lemma moves_commit (hd : d ∈ sys.journal ∨ d = sys.stored) (hnext : Succeeds expiry d next events) (write : Write) :
    Moves expiry sys (commit sys write next events) := by
  rcases write with _ | replaced
  · exact .committed hd hnext
  · cases replaced
    · exact .answer
    · exact .written hd hnext (Or.inl rfl)

lemma Attempt.map_answer {α β : Type} {f : α → β} {a : Attempt α} {b : β} (h : a.map f = .answer (.ok b)) :
    ∃ x, a = .answer (.ok x) ∧ b = f x := by
  rcases a with (e | x) | ⟨next, x⟩
  · cases h
  · cases h
    exact ⟨x, rfl, rfl⟩
  · cases h

variable {now₁ now₂ : Time} {sys' : System} {steps : List Step}

lemma startStep_answer {initial : Option StepResult} {b : Bool}
    (h : d.startStep now₁ now₂ key initial = .answer (.ok b)) : b = false := by
  rw [JournalData.startStep] at h
  cases he : d.entries.lookup key.string with
  | some e =>
    rw [he] at h
    cases h
    rfl
  | none =>
    rw [he] at h
    cases hr : d.commands.lookup key.commandId with
    | none =>
      rw [hr] at h
      cases h
    | some r =>
      rw [hr] at h
      dsimp only at h
      split_ifs at h <;> cases h

lemma cancel_answer {c runId attemptId : String} {u : Unit} : d.cancel now₁ now₂ c runId attemptId ≠ .answer (.ok u) := by
  intro h
  rw [JournalData.cancel] at h
  cases hr : (d.cleanup now₁).commands.lookup c with
  | some r | none =>
    rw [hr] at h
    dsimp only at h
    split_ifs at h
    cases h

lemma attempt_answer {c : Call} (h : c.attempt d = .answer (.ok events)) : events = [] := by
  cases c with
  | accept now command | finishStep key result | recover now => exact (Attempt.map_answer h).choose_spec.2
  | startStep now₁ now₂ key initial =>
    obtain ⟨b, hb, rfl⟩ := Attempt.map_answer h
    rw [startStep_answer hb]
    rfl
  | cancel now₁ now₂ c runId attemptId =>
    obtain ⟨u, hu, -⟩ := Attempt.map_answer h
    exact absurd hu cancel_answer

lemma Inv.moves_openJournal (h : Inv expiry sys) (now : Time) (readable : Bool) (write : Write) :
    Moves expiry sys (openJournal sys now readable write) := by
  rw [openJournal]
  cases hd : sys.journal with
  | some d => exact .answer
  | none =>
    cases hf : sys.file with
    | none =>
      have hstored : sys.stored = {} := by rw [System.stored, hf, Option.getD_none]
      have hopened : Moves expiry sys { sys with journal := some sys.stored } := .opened hd
      rwa [hstored, hf] at hopened
    | some data =>
      have hstored : sys.stored = data := by rw [System.stored, hf, Option.getD_some]
      dsimp only
      split_ifs with hcorrupt
      · exact .answer
      · cases hr : data.recover now with
        | answer r =>
          have hopened : Moves expiry sys { sys with journal := some sys.stored } := .opened hd
          rwa [hstored, hf] at hopened
        | commit next results =>
          have hformed : Formed expiry data := hstored ▸ h.file.formed
          exact moves_commit (Or.inr hstored.symm) (hformed.recover hr) write

lemma Inv.moves (h : Inv expiry sys) {st : Step} (horderly : st.Orderly expiry sys) : Moves expiry sys (step sys st) := by
  cases st with
  | open_ now readable write => exact h.moves_openJournal now readable write
  | close => exact .closed
  | call c write =>
    rw [step]
    cases hd : sys.journal with
    | none => exact .answer
    | some d =>
      dsimp only
      cases ha : c.attempt d with
      | answer r =>
        cases r with
        | error e => exact .answer
        | ok events =>
          rw [attempt_answer ha, perform, List.append_nil]
          exact .answer
      | commit next events =>
        exact moves_commit (Or.inl hd) ((h.journal d hd).formed.attempt (horderly d hd) ha) write
  | crash c replaced =>
    rw [step]
    cases hd : sys.journal with
    | none => exact .answer
    | some d =>
      dsimp only
      cases ha : c.attempt d with
      | answer r => exact .closed
      | commit next events =>
        cases replaced
        · exact .closed
        · exact .written (Or.inl hd) ((h.journal d hd).formed.attempt (horderly d hd) ha) (Or.inr rfl)

lemma Inv.base (h : Inv expiry sys) (hd : d ∈ sys.journal ∨ d = sys.stored) : Knows expiry sys.log d := by
  rcases hd with hd | rfl
  · exact h.journal d hd
  · exact h.file

lemma Inv.moved (h : Inv expiry sys) (hm : Moves expiry sys sys') : Inv expiry sys' := by
  cases hm with
  | answer => exact h
  | closed => exact ⟨h.file, fun _ hd => (by cases hd), h.log, fun _ hd => (by cases hd)⟩
  | opened hnone =>
    refine ⟨h.file, ?_, h.log, ?_⟩
    · rintro d ⟨⟩
      exact h.file
    · rintro d ⟨⟩ s e x he hx
      exact h.file.formed.holds he hx
  | committed hd hnext =>
    have hknows := (h.base hd).succeeds hnext
    refine ⟨hknows, ?_, (h.base hd).allowed hnext h.log, ?_⟩
    · rintro d ⟨⟩
      exact hknows
    · rintro d ⟨⟩ s e x he hx
      exact hnext.formed.holds he hx
  | written hd hnext hjournal =>
    refine ⟨(h.base hd).later hnext, ?_, h.log, ?_⟩
    · intro d' hd'
      rcases hjournal with rfl | rfl
      · exact h.journal d' hd'
      · cases hd'
    · intro d' hd' s e x he hx
      rcases hjournal with rfl | rfl
      · rcases hd with hd | rfl
        · obtain rfl := Option.some.inj (hd.symm.trans hd')
          exact hnext.later.holds ((h.journal _ hd).formed.holds he hx)
        · exact hnext.later.holds (h.results d' hd' s e x he hx)
      · cases hd'

lemma HoldsBoth.moved (h : HoldsBoth expiry key x sys) (hm : Moves expiry sys sys') :
    HoldsBoth expiry key x sys' := by
  have hbase : ∀ d, d ∈ sys.journal ∨ d = sys.stored → Holds expiry key x d := by
    rintro d (hd | rfl)
    · exact h.2 d hd
    · exact h.1
  cases hm with
  | answer => exact h
  | closed => exact ⟨h.1, fun _ hd => by cases hd⟩
  | opened hnone =>
    refine ⟨h.1, ?_⟩
    rintro d ⟨⟩
    exact h.1
  | committed hd hnext =>
    refine ⟨hnext.later.holds (hbase _ hd), ?_⟩
    rintro d ⟨⟩
    exact hnext.later.holds (hbase _ hd)
  | written hd hnext hjournal =>
    refine ⟨hnext.later.holds (hbase _ hd), fun d' hd' => ?_⟩
    rcases hjournal with rfl | rfl
    · exact h.2 d' hd'
    · cases hd'

lemma Inv.run (h : Inv expiry sys) (horderly : Orderly expiry sys steps) : Inv expiry (run sys steps) := by
  induction steps generalizing sys with
  | nil => exact h
  | cons st steps ih => exact ih (h.moved (h.moves horderly.1)) horderly.2

lemma HoldsBoth.run (h : Inv expiry sys) (hx : HoldsBoth expiry key x sys)
    (horderly : Orderly expiry sys steps) : HoldsBoth expiry key x (run sys steps) := by
  induction steps generalizing sys with
  | nil => exact hx
  | cons st steps ih => exact ih (h.moved (h.moves horderly.1)) (hx.moved (h.moves horderly.1)) horderly.2

lemma Orderly.append {more : List Step} (h : Orderly expiry sys (steps ++ more)) :
    Orderly expiry sys steps ∧ Orderly expiry (run sys steps) more := by
  induction steps generalizing sys with
  | nil => exact ⟨trivial, h⟩
  | cons st steps ih => exact ⟨⟨h.1, (ih h.2).1⟩, (ih h.2).2⟩

def System.Shows (sys : System) (key : StepKey) (x : StepResult) : Prop :=
  ∃ d ∈ sys.journal, ∃ e, d.entries.lookup key.string = some e ∧ e.key.triple = key.triple ∧ e.result = some x

def System.Keeps (sys : System) (key : StepKey) (x : StepResult) : Prop :=
  ∀ d, d ∈ sys.journal ∨ d ∈ sys.file → ∀ e, d.entries.lookup key.string = some e → e.key.triple = key.triple → e.result = some x

lemma Holds.result (h : Holds expiry key x d) {e : JournalEntry}
    (he : d.entries.lookup key.string = some e) (htriple : e.key.triple = key.triple) : e.result = some x := by
  rcases h with ⟨e', he', -, hx⟩ | ⟨-, hnone⟩
  · obtain rfl := Option.some.inj (he.symm.trans he')
    exact hx
  · exact absurd htriple (hnone e he)

lemma HoldsBoth.keeps (h : HoldsBoth expiry key x sys) : sys.Keeps key x := by
  rintro d (hd | hd) e he htriple
  · exact (h.2 d hd).result he htriple
  · have hstored : sys.stored = d := by rw [System.stored, hd, Option.getD_some]
    exact (hstored ▸ h.1).result he htriple

lemma Holds.congr {key' : StepKey} (htriple : key.triple = key'.triple) (h : Holds expiry key x d) :
    Holds expiry key' x d := by
  rw [Holds, StepKey.string_eq htriple, htriple] at h
  exact h.imp_right fun ⟨hlapsed, hnone⟩ => ⟨hlapsed.congr htriple, hnone⟩

def ping (commandId : String) (expiresAt : Time) : Command :=
  { commandId := commandId, runId := "run-" ++ commandId, attemptId := "1", planDigest := "plan", expiresAt := expiresAt }

def opening : Step := .open_ 0 true .done

end Breeze.NetworkDiagnostic
