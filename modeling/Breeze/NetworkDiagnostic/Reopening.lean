import Breeze.NetworkDiagnostic.Retention

/-! Every file that is written can be opened again, as long as no step is started on a command that the same call deletes. -/

namespace Breeze.NetworkDiagnostic

open Lib

def JournalData.Owned (d : JournalData) (k : StepKey) : Prop :=
  ∃ r, d.commands.lookup k.commandId = some r ∧ r.runId = k.runId ∧ r.attemptId = k.attemptId

variable {d next : JournalData} {now : Time} {key : StepKey}

lemma consistent_iff : consistent d = true ↔
    d.size ≤ 10000 ∧ ∀ s e, d.entries.lookup s = some e → s = e.key.string ∧ d.Owned e.key := by
  simp [consistent, JournalData.Owned, Table.lookup_eq_some_iff, Option.any_eq_true, Sigma.forall]

section Writes

variable (h : consistent d = true)
include h

lemma consistent_cleanup : consistent (d.cleanup now) = true := by
  obtain ⟨hsize, hentries⟩ := consistent_iff.mp h
  refine consistent_iff.mpr ⟨le_trans ?_ hsize, fun s e he => ?_⟩
  · rw [JournalData.cleanup]
    split_ifs
    · exact le_rfl
    · exact Nat.add_le_add (List.length_filter_le _ _) (List.length_filter_le _ _)
  · obtain ⟨he, hkept⟩ := of_cleanup_entry he
    obtain ⟨hs, r, hr, hsame⟩ := hentries s e he
    exact ⟨hs, r, hkept r hr, hsame⟩

lemma consistent_insertCommand {c : String} {r : JournalCommand}
    (hold : (∃ r', d.commands.lookup c = some r' ∧ r.runId = r'.runId ∧ r.attemptId = r'.attemptId) ∨
      d.commands.lookup c = none ∧ d.size < 10000) :
    consistent { d with commands := d.commands.insert c r } = true := by
  obtain ⟨hsize, hentries⟩ := consistent_iff.mp h
  refine consistent_iff.mpr ⟨?_, fun s e he => ?_⟩
  · rw [JournalData.size] at hsize hold ⊢
    rcases hold with ⟨r', hr', -⟩ | ⟨-, hlt⟩
    · rwa [Table.length_insert_of_some hr']
    · have := Table.length_insert_le d.commands c r
      dsimp only
      omega
  · obtain ⟨hs, r₀, hr₀, hrun, hattempt⟩ := hentries s e he
    refine ⟨hs, ?_⟩
    rw [JournalData.Owned, Table.lookup_insert_ite]
    split_ifs with hc
    · rw [hc] at hr₀
      rcases hold with ⟨r', hr', hrun', hattempt'⟩ | ⟨hnone, -⟩
      · obtain rfl := Option.some.inj (hr'.symm.trans hr₀)
        exact ⟨r, rfl, hrun'.trans hrun, hattempt'.trans hattempt⟩
      · rw [hnone] at hr₀
        cases hr₀
    · exact ⟨r₀, hr₀, hrun, hattempt⟩

lemma consistent_insertEntry {e : JournalEntry} (hsize : d.size < 10000) :
    consistent { d with entries := d.entries.insert e.key.string e } = true ↔ d.Owned e.key := by
  constructor
  · intro hnext
    exact ((consistent_iff.mp hnext).2 _ e (AList.lookup_insert _)).2
  · refine fun howned => consistent_iff.mpr ⟨?_, fun s e' he' => ?_⟩
    · have := Table.length_insert_le d.entries e.key.string e
      rw [JournalData.size] at hsize ⊢
      dsimp only
      omega
    · rcases Table.of_insert he' with ⟨hs, rfl⟩ | ⟨-, he'⟩
      · exact ⟨hs, howned⟩
      · exact (consistent_iff.mp h).2 s e' he'

lemma consistent_results {entries : Table String JournalEntry} (hlength : entries.entries.length = d.entries.entries.length)
    (horigin : ∀ s e', entries.lookup s = some e' → ∃ e, d.entries.lookup s = some e ∧ e'.key = e.key) :
    consistent { d with entries := entries } = true := by
  obtain ⟨hsize, hentries⟩ := consistent_iff.mp h
  refine consistent_iff.mpr ⟨?_, fun s e' he' => ?_⟩
  · rw [JournalData.size] at hsize ⊢
    rwa [hlength]
  · obtain ⟨e, he, hkey⟩ := horigin s e' he'
    rw [hkey]
    exact hentries s e he

lemma consistent_recover {results : List StepResult} (hnext : d.recover now = .commit next results) :
    consistent next = true := by
  obtain rfl := recover_commit hnext
  refine consistent_results h (List.length_map _) fun s e' he' => ?_
  rw [Table.lookup_mapRows] at he'
  obtain ⟨e, he, rfl⟩ := Option.map_eq_some_iff.mp he'
  refine ⟨e, he, ?_⟩
  rw [JournalEntry.recovered]
  split_ifs <;> rfl

end Writes

/-- `StartStep` reads the clock for the deadline and again for the cleanup; the second reading keeps the command. -/
def Call.Steady (d : JournalData) : Call → Prop
  | .startStep now₁ now₂ key initial => ∀ next b, d.startStep now₁ now₂ key initial = .commit next b →
    ∃ r, d.commands.lookup key.commandId = some r ∧ now₂ < max d.lastClock (r.expiresAt + day)
  | .accept _ _ | .finishStep _ _ | .recover _ | .cancel _ _ _ _ _ => True

lemma owned_cleanup {r : JournalCommand} (hr : d.commands.lookup key.commandId = some r) (hrun : r.runId = key.runId)
    (hattempt : r.attemptId = key.attemptId) : (d.cleanup now).Owned key ↔ now < max d.lastClock (r.expiresAt + day) := by
  rw [lt_max_iff, JournalData.cleanup, JournalData.Owned]
  split_ifs with hnow
  · exact iff_of_true ⟨r, hr, hrun, hattempt⟩ (Or.inl hnow)
  · rw [or_iff_right hnow]
    by_cases hlive : now < r.expiresAt + day
    · simp [Table.lookup_filterRows, hr, JournalCommand.over, hlive, hrun, hattempt]
    · simp [Table.lookup_filterRows, hr, JournalCommand.over, hlive]

lemma consistent_attempt {c : Call} {events : List Event} (h : consistent d = true) (hnext : c.attempt d = .commit next events) :
    consistent next = true ↔ c.Steady d := by
  cases c with
  | accept now command =>
    obtain ⟨b, hcommit, -⟩ := Attempt.map_commit hnext
    obtain ⟨hnone, hsize, r, -, -, -, rfl⟩ := accept_commit hcommit
    exact iff_of_true (consistent_insertCommand (consistent_cleanup h) (Or.inr ⟨hnone, hsize⟩)) trivial
  | startStep now₁ now₂ key initial =>
    obtain ⟨b, hcommit, -⟩ := Attempt.map_commit hnext
    obtain ⟨-, -, ⟨r, hr, hrun, hattempt, -⟩, hsize, rfl⟩ := startStep_commit hcommit
    rw [consistent_insertEntry (e := { intent := initial, key := key }) (consistent_cleanup h) hsize, owned_cleanup hr hrun hattempt]
    refine ⟨fun hlt _ _ _ => ⟨r, hr, hlt⟩, fun hsteady => ?_⟩
    obtain ⟨r', hr', hlt⟩ := hsteady _ _ hcommit
    obtain rfl := Option.some.inj (hr'.symm.trans hr)
    exact hlt
  | finishStep key result =>
    obtain ⟨b, hcommit, -⟩ := Attempt.map_commit hnext
    obtain ⟨e, he, -, rfl⟩ := finishStep_commit hcommit
    refine iff_of_true (consistent_results h (Table.length_insert_of_some he) fun s e' he' => ?_) trivial
    rcases Table.of_insert he' with ⟨rfl, rfl⟩ | ⟨-, he'⟩
    · exact ⟨e, he, rfl⟩
    · exact ⟨e', he', rfl⟩
  | recover now =>
    obtain ⟨b, hcommit, -⟩ := Attempt.map_commit hnext
    exact iff_of_true (consistent_recover h hcommit) trivial
  | cancel now₁ now₂ c runId attemptId =>
    obtain ⟨b, hcommit, -⟩ := Attempt.map_commit hnext
    obtain ⟨r, -, rfl, rfl, hr, rfl⟩ := cancel_commit hcommit
    refine iff_of_true (consistent_insertCommand (consistent_cleanup h) ?_) trivial
    rcases hr with ⟨r', hr', hr⟩ | ⟨hnone, -, hsize⟩
    · exact Or.inl ⟨r', hr', by rw [hr], by rw [hr]⟩
    · exact Or.inr ⟨hnone, hsize⟩

section Runs

def Call.SteadyIn (sys : System) (c : Call) (write : Write) : Prop := ∀ d ∈ sys.journal, write = .failed false ∨ c.Steady d

/-- The calls whose file takes the place of the old one are steady. -/
def Step.Steady (sys : System) : Step → Prop
  | .call c write => c.SteadyIn sys write
  | .crash c replaced => c.SteadyIn sys (.failed replaced)
  | .open_ _ _ _ | .close => True

def Steady : System → List Step → Prop
  | _, [] => True
  | sys, st :: steps => st.Steady sys ∧ Steady (step sys st) steps

structure System.Sound (sys : System) : Prop where
  file : ∀ data ∈ sys.file, consistent data = true
  journal : ∀ d ∈ sys.journal, consistent d = true

variable {sys : System} {c : Call} {events : List Event} {write : Write} {st : Step} {steps : List Step}

lemma crash_eq (replaced : Bool) :
    step sys (.crash c replaced) = { sys with file := (step sys (.call c (.failed replaced))).file, journal := none } := by
  obtain ⟨file, _ | d, log⟩ := sys
  · rfl
  · dsimp only [step]
    rcases c.attempt d with (_ | _) | _ <;> rfl

variable (h : sys.Sound)
include h

lemma System.Sound.commit (hnext : write = .failed false ∨ consistent next = true) : (commit sys write next events).Sound := by
  rcases write with _ | _ | _
  · have hnext := hnext.resolve_left Write.noConfusion
    exact ⟨by rintro _ ⟨⟩; exact hnext, by rintro _ ⟨⟩; exact hnext⟩
  · exact h
  · have hnext := hnext.resolve_left (by simp)
    exact ⟨by rintro _ ⟨⟩; exact hnext, h.journal⟩

lemma System.Sound.call (hsteady : c.SteadyIn sys write) : (step sys (.call c write)).Sound := by
  rw [step]
  cases hj : sys.journal with
  | none => exact h
  | some d =>
    dsimp only
    cases ha : c.attempt d with
    | answer r =>
      rcases r with e | events
      · exact h
      · exact ⟨h.file, h.journal⟩
    | commit next events => exact h.commit ((hsteady d hj).imp_right (consistent_attempt (h.journal d hj) ha).mpr)

lemma System.Sound.step (hsteady : st.Steady sys) : (step sys st).Sound := by
  cases st with
  | open_ now readable write =>
    rw [NetworkDiagnostic.step, openJournal]
    rcases hj : sys.journal with _ | d <;> rcases hf : sys.file with _ | data <;> dsimp only
    · exact ⟨by rintro _ ⟨⟩, by rintro _ ⟨⟩; rfl⟩
    · have hdata := h.file data hf
      split_ifs
      · exact h
      · rcases hr : data.recover now with r | ⟨next, results⟩
        · exact ⟨by rintro _ ⟨⟩; exact hdata, by rintro _ ⟨⟩; exact hdata⟩
        · exact h.commit (Or.inr (consistent_recover hdata hr))
    · exact h
    · exact h
  | close => exact ⟨h.file, by rintro _ ⟨⟩⟩
  | call c write => exact h.call hsteady
  | crash c replaced =>
    rw [crash_eq]
    exact ⟨(h.call hsteady).file, by rintro _ ⟨⟩⟩

end Runs

end Breeze.NetworkDiagnostic
