import Breeze.NetworkDiagnostic.Journal

/-! What one call leaves of a journal. Entries and records are deleted a day after their expiry by the clock of the caller, so
what is remembered of a run and attempt depends on the expiry that all their commands share. -/

namespace Breeze.NetworkDiagnostic

open Lib

def StepKey.triple (k : StepKey) : String × String × String := (k.runId, k.attemptId, k.stepId)

lemma StepKey.string_eq {k k' : StepKey} (h : k.triple = k'.triple) : k.string = k'.string := by
  obtain ⟨hrun, hattempt, hstep⟩ : k.runId = k'.runId ∧ k.attemptId = k'.attemptId ∧ k.stepId = k'.stepId := by
    simpa [triple] using h
  rw [string, string, hrun, hattempt, hstep]

def Event.Allows : Event → Event → Prop
  | .started k, .started k' => k.triple ≠ k'.triple
  | .cancelled commandId runId attemptId, .started k => ¬ (k.commandId = commandId ∧ k.runId = runId ∧ k.attemptId = attemptId)
  | _, .cancelled _ _ _ => True

instance : DecidableRel Event.Allows
  | .started k, .started k' => inferInstanceAs (Decidable (k.triple ≠ k'.triple))
  | .cancelled c r a, .started k => inferInstanceAs (Decidable (¬ (k.commandId = c ∧ k.runId = r ∧ k.attemptId = a)))
  | .started _, .cancelled _ _ _ => isTrue trivial
  | .cancelled _ _ _, .cancelled _ _ _ => isTrue trivial

section Journals

variable (expiry : String → String → Time)

def Lapsed (key : StepKey) (d : JournalData) : Prop := expiry key.runId key.attemptId + day ≤ d.lastClock

/-- The entries belong to their commands, and no command expires before its run and attempt do. -/
structure Formed (d : JournalData) : Prop where
  key : ∀ s e, d.entries.lookup s = some e → s = e.key.string
  command : ∀ s e, d.entries.lookup s = some e →
    (∃ r, d.commands.lookup e.key.commandId = some r ∧ r.runId = e.key.runId ∧ r.attemptId = e.key.attemptId) ∨ Lapsed expiry e.key d
  expiry : ∀ c r, d.commands.lookup c = some r →
    expiry r.runId r.attemptId ≤ r.expiresAt ∧ (r.cancelled = false → r.expiresAt = expiry r.runId r.attemptId)

structure Later (d d' : JournalData) : Prop where
  clock : d.lastClock ≤ d'.lastClock
  entries : ∀ s e, d.entries.lookup s = some e →
    (∃ e', d'.entries.lookup s = some e' ∧ e'.key = e.key ∧ ∀ x, e.result = some x → e'.result = some x) ∨
      (Lapsed expiry e.key d' ∧ ∀ e', d'.entries.lookup s = some e' → e'.key.triple ≠ e.key.triple)
  commands : ∀ c r, d.commands.lookup c = some r →
    (∃ r', d'.commands.lookup c = some r' ∧ r'.runId = r.runId ∧ r'.attemptId = r.attemptId ∧ (r.cancelled = true → r'.cancelled = true)) ∨
      expiry r.runId r.attemptId + day ≤ d'.lastClock
  origin : ∀ s e', d'.entries.lookup s = some e' →
    (∃ e, d.entries.lookup s = some e ∧ e.key = e'.key) ∨ ¬ Lapsed expiry e'.key d

variable {expiry} {d d' : JournalData}

lemma Lapsed.congr {k k' : StepKey} (hk : k.triple = k'.triple) (h : Lapsed expiry k d) : Lapsed expiry k' d := by
  obtain ⟨hrun, hattempt, -⟩ : k.runId = k'.runId ∧ k.attemptId = k'.attemptId ∧ k.stepId = k'.stepId := by
    simpa [StepKey.triple] using hk
  rwa [Lapsed, ← hrun, ← hattempt]

section Cleanup

variable (d) (now : Time)

lemma le_cleanup : d.lastClock ≤ (d.cleanup now).lastClock := by
  rw [JournalData.cleanup]
  split_ifs with h
  · exact le_rfl
  · exact not_lt.mp h

variable {d}

variable {c s : String} {e : JournalEntry}

variable {r : JournalCommand}

lemma cleanup_command (h : d.commands.lookup c = some r) : (d.cleanup now).commands.lookup c = some r ∨
      ((d.cleanup now).commands.lookup c = none ∧ r.expiresAt + day ≤ (d.cleanup now).lastClock) := by
  rw [JournalData.cleanup]
  split_ifs with hnow
  · exact Or.inl h
  · dsimp only
    rw [Table.lookup_filterRows, h]
    by_cases hover : r.expiresAt + day ≤ now
    · exact Or.inr ⟨by simp [JournalCommand.over, hover], hover⟩
    · exact Or.inl (by simp [JournalCommand.over, hover])

variable {now}

lemma of_cleanup_command (h : (d.cleanup now).commands.lookup c = some r) :
    d.commands.lookup c = some r := by
  rw [JournalData.cleanup] at h
  split_ifs at h with hnow
  · exact h
  · dsimp only at h
    rw [Table.lookup_filterRows] at h
    exact (Option.filter_eq_some_iff.mp h).1

lemma cleanup_command_none (h : d.commands.lookup c = none) : (d.cleanup now).commands.lookup c = none :=
  Option.eq_none_iff_forall_ne_some.mpr fun r hr => by simp [of_cleanup_command hr] at h

lemma cleanup_entry (h : d.entries.lookup s = some e) : (d.cleanup now).entries.lookup s = some e ∨
      ((d.cleanup now).entries.lookup s = none ∧
        ∃ r, d.commands.lookup e.key.commandId = some r ∧ r.expiresAt + day ≤ (d.cleanup now).lastClock) := by
  rw [JournalData.cleanup]
  split_ifs with hnow
  · exact Or.inl h
  · dsimp only
    rw [Table.lookup_filterRows, h]
    cases hr : d.commands.lookup e.key.commandId with
    | none => exact Or.inl (by simp [hr])
    | some r =>
      by_cases hover : r.expiresAt + day ≤ now
      · exact Or.inr ⟨by simp [hr, JournalCommand.over, hover], r, rfl, hover⟩
      · exact Or.inl (by simp [hr, JournalCommand.over, hover])

lemma of_cleanup_entry (h : (d.cleanup now).entries.lookup s = some e) : d.entries.lookup s = some e ∧
      ∀ r, d.commands.lookup e.key.commandId = some r → (d.cleanup now).commands.lookup e.key.commandId = some r := by
  rw [JournalData.cleanup] at h ⊢
  split_ifs at h ⊢ with hnow
  · exact ⟨h, fun _ hr => hr⟩
  · dsimp only at h ⊢
    rw [Table.lookup_filterRows, Option.filter_eq_some_iff] at h
    refine ⟨h.1, fun r hr => ?_⟩
    have hover : r.over now = false := by simpa [hr] using h.2
    rw [Table.lookup_filterRows, hr]
    simp [hover]

lemma cleanup_entry_none (h : d.entries.lookup s = none) : (d.cleanup now).entries.lookup s = none :=
  Option.eq_none_iff_forall_ne_some.mpr fun e he => by simp [(of_cleanup_entry he).1] at h

lemma Formed.lapsed_of_command (h : Formed expiry d) {t : Time}
    (he : d.entries.lookup s = some e) (hr : d.commands.lookup e.key.commandId = some r) (ht : d.lastClock ≤ t)
    (hover : r.expiresAt + day ≤ t) : expiry e.key.runId e.key.attemptId + day ≤ t := by
  rcases h.command s e he with ⟨r', hr', hrun, hattempt⟩ | hlapsed
  · obtain rfl : r' = r := Option.some.inj (hr'.symm.trans hr)
    have hle := (h.expiry _ _ hr).1
    rw [hrun, hattempt] at hle
    linarith
  · exact le_trans hlapsed ht

lemma Formed.cleanup (h : Formed expiry d) : Formed expiry (d.cleanup now) where
  key := fun s e he => h.key s e (of_cleanup_entry he).1
  command := by
    intro s e he
    obtain ⟨he₀, hkept⟩ := of_cleanup_entry he
    rcases h.command s e he₀ with ⟨r, hr, hsame⟩ | hlapsed
    · exact Or.inl ⟨r, hkept r hr, hsame⟩
    · exact Or.inr (le_trans hlapsed (le_cleanup d now))
  expiry := fun c r hr => h.expiry c r (of_cleanup_command hr)

lemma Formed.later_cleanup (h : Formed expiry d) : Later expiry d (d.cleanup now) where
  clock := le_cleanup d now
  entries := by
    intro s e he
    rcases cleanup_entry he with hkept | ⟨hgone, r, hr, hover⟩
    · exact Or.inl ⟨e, hkept, rfl, fun _ hx => hx⟩
    · refine Or.inr ⟨h.lapsed_of_command he hr (le_cleanup d now) hover, fun e' he' => ?_⟩
      rw [hgone] at he'
      cases he'
  commands := by
    intro c r hr
    rcases cleanup_command now hr with hkept | ⟨-, hover⟩
    · exact Or.inl ⟨r, hkept, rfl, rfl, fun hc => hc⟩
    · exact Or.inr (le_trans (add_le_add_left (h.expiry c r hr).1 day) hover)
  origin := fun s e he => Or.inl ⟨e, (of_cleanup_entry he).1, rfl⟩

end Cleanup

section Writes

variable {c s : String} {r r' : JournalCommand} {e e' : JournalEntry}

lemma Formed.insertCommand (h : Formed expiry d)
    (hold : ∀ r', d.commands.lookup c = some r' → r.runId = r'.runId ∧ r.attemptId = r'.attemptId)
    (hr : expiry r.runId r.attemptId ≤ r.expiresAt ∧ (r.cancelled = false → r.expiresAt = expiry r.runId r.attemptId)) :
    Formed expiry { d with commands := d.commands.insert c r } where
  key := h.key
  command := by
    intro s e he
    rcases h.command s e he with ⟨r', hr', hrun, hattempt⟩ | hlapsed
    · left
      dsimp only
      rw [Table.lookup_insert_ite]
      split_ifs with hc
      · obtain ⟨hrun', hattempt'⟩ := hold r' (hc ▸ hr')
        exact ⟨r, rfl, hrun'.trans hrun, hattempt'.trans hattempt⟩
      · exact ⟨r', hr', hrun, hattempt⟩
    · exact Or.inr hlapsed
  expiry := by
    intro c' r' hr'
    rcases Table.of_insert hr' with ⟨-, rfl⟩ | ⟨-, hr'⟩
    · exact hr
    · exact h.expiry c' r' hr'

lemma Later.insertCommand (h : Later expiry d d')
    (hold : ∀ r', d'.commands.lookup c = some r' →
      r.runId = r'.runId ∧ r.attemptId = r'.attemptId ∧ (r'.cancelled = true → r.cancelled = true)) :
    Later expiry d { d' with commands := d'.commands.insert c r } where
  clock := h.clock
  entries := h.entries
  commands := by
    intro c' r₀ hr₀
    rcases h.commands c' r₀ hr₀ with ⟨r', hr', hrun, hattempt, hcancelled⟩ | hlapsed
    · left
      dsimp only
      rw [Table.lookup_insert_ite]
      split_ifs with hc
      · obtain ⟨hrun', hattempt', hcancelled'⟩ := hold r' (hc ▸ hr')
        exact ⟨r, rfl, hrun'.trans hrun, hattempt'.trans hattempt, fun hcan => hcancelled' (hcancelled hcan)⟩
      · exact ⟨r', hr', hrun, hattempt, hcancelled⟩
    · exact Or.inr hlapsed
  origin := h.origin

lemma Formed.insertEntry (h : Formed expiry d)
    (hcommand : (∃ r, d.commands.lookup e.key.commandId = some r ∧ r.runId = e.key.runId ∧ r.attemptId = e.key.attemptId) ∨
      Lapsed expiry e.key d) :
    Formed expiry { d with entries := d.entries.insert e.key.string e } where
  key := by
    intro s e' he'
    rcases Table.of_insert he' with ⟨hs, rfl⟩ | ⟨-, he'⟩
    · exact hs
    · exact h.key s e' he'
  command := by
    intro s e' he'
    rcases Table.of_insert he' with ⟨-, rfl⟩ | ⟨-, he'⟩
    · exact hcommand
    · exact h.command s e' he'
  expiry := h.expiry

lemma Later.insertEntry (h : Later expiry d d') (hnone : d.entries.lookup s = none) (hnone' : d'.entries.lookup s = none)
    (hkey : ¬ Lapsed expiry e.key d) : Later expiry d { d' with entries := d'.entries.insert s e } where
  clock := h.clock
  entries := by
    intro s' e₀ he₀
    have hs : s' ≠ s := by
      rintro rfl
      rw [hnone] at he₀
      cases he₀
    dsimp only
    rw [AList.lookup_insert_ne hs]
    exact h.entries s' e₀ he₀
  commands := h.commands
  origin := by
    intro s' e' he'
    rcases Table.of_insert he' with ⟨-, rfl⟩ | ⟨-, he'⟩
    · exact Or.inr hkey
    · exact h.origin s' e' he'

section Results

variable {entries : Table String JournalEntry} {f : String → JournalEntry → JournalEntry}
  (hmap : ∀ s, entries.lookup s = (d.entries.lookup s).map (f s)) (hkey : ∀ s e, (f s e).key = e.key)
include hmap hkey

lemma Formed.results (h : Formed expiry d) : Formed expiry { d with entries := entries } where
  key := by
    intro s e' he'
    obtain ⟨e, he, rfl⟩ := Option.map_eq_some_iff.mp ((hmap s).symm.trans he')
    rw [hkey]
    exact h.key s e he
  command := by
    intro s e' he'
    obtain ⟨e, he, rfl⟩ := Option.map_eq_some_iff.mp ((hmap s).symm.trans he')
    rw [hkey]
    exact h.command s e he
  expiry := h.expiry

lemma Later.results (hresult : ∀ s e x, d.entries.lookup s = some e → e.result = some x → (f s e).result = some x) :
    Later expiry d { d with entries := entries } where
  clock := le_rfl
  entries := by
    intro s e he
    refine Or.inl ⟨f s e, ?_, hkey s e, fun x => hresult s e x he⟩
    dsimp only
    rw [hmap, he, Option.map_some]
  commands := fun _ r hr => Or.inl ⟨r, hr, rfl, rfl, fun hc => hc⟩
  origin := by
    intro s e' he'
    obtain ⟨e, he, rfl⟩ := Option.map_eq_some_iff.mp ((hmap s).symm.trans he')
    exact Or.inl ⟨e, he, (hkey s e).symm⟩

end Results

end Writes

section Memory

variable (expiry) in
def Remembers (d : JournalData) : Event → Prop
  | .started key => (∃ e, d.entries.lookup key.string = some e ∧ e.key.triple = key.triple) ∨ Lapsed expiry key d
  | .cancelled commandId runId attemptId =>
    (∃ r, d.commands.lookup commandId = some r ∧ r.cancelled = true ∧ r.runId = runId ∧ r.attemptId = attemptId) ∨
      expiry runId attemptId + day ≤ d.lastClock

lemma Later.remembers (h : Later expiry d d') {event : Event} (hevent : Remembers expiry d event) : Remembers expiry d' event := by
  cases event with
  | started key =>
    rcases hevent with ⟨e, he, htriple⟩ | hlapsed
    · rcases h.entries _ e he with ⟨e', he', hkey, -⟩ | ⟨hlapsed, -⟩
      · exact Or.inl ⟨e', he', by rw [hkey, htriple]⟩
      · exact Or.inr (hlapsed.congr htriple)
    · exact Or.inr (le_trans hlapsed h.clock)
  | cancelled commandId runId attemptId =>
    rcases hevent with ⟨r, hr, hcancelled, rfl, rfl⟩ | hlapsed
    · rcases h.commands _ r hr with ⟨r', hr', hrun, hattempt, hcancelled'⟩ | hlapsed
      · exact Or.inl ⟨r', hr', hcancelled' hcancelled, hrun, hattempt⟩
      · exact Or.inr hlapsed
    · exact Or.inr (le_trans hlapsed h.clock)

variable (expiry) in
def Holds (key : StepKey) (x : StepResult) (d : JournalData) : Prop :=
  (∃ e, d.entries.lookup key.string = some e ∧ e.key.triple = key.triple ∧ e.result = some x) ∨
    (Lapsed expiry key d ∧ ∀ e, d.entries.lookup key.string = some e → e.key.triple ≠ key.triple)

lemma Later.holds (h : Later expiry d d') {key : StepKey} {x : StepResult} (hx : Holds expiry key x d) : Holds expiry key x d' := by
  rcases hx with ⟨e, he, htriple, hx⟩ | ⟨hlapsed, hnone⟩
  · rcases h.entries _ e he with ⟨e', he', hkey, hresult⟩ | ⟨hlapsed, hother⟩
    · exact Or.inl ⟨e', he', by rw [hkey, htriple], hresult x hx⟩
    · exact Or.inr ⟨hlapsed.congr htriple, fun e' he' => htriple ▸ hother e' he'⟩
  · refine Or.inr ⟨le_trans hlapsed h.clock, fun e' he' htriple => ?_⟩
    rcases h.origin _ e' he' with ⟨e, he, hkey⟩ | hnot
    · exact hnone e he (hkey ▸ htriple)
    · exact hnot (hlapsed.congr htriple.symm)

end Memory

section Calls

variable {next : JournalData}

variable {now : Time} {b : Bool} {key : StepKey} {initial : Option StepResult} {result : StepResult} {u : Unit}
  {results : List StepResult}

lemma accept_commit {command : Command} (h : d.accept now command = .commit next b) :
    (d.cleanup now).commands.lookup command.commandId = none ∧ (d.cleanup now).size < 10000 ∧
      ∃ r, r.expiresAt = command.expiresAt ∧ r.runId = command.runId ∧ r.attemptId = command.attemptId ∧
        next = { d.cleanup now with commands := (d.cleanup now).commands.insert command.commandId r } := by
  rw [JournalData.accept] at h
  cases hc : d.commands.lookup command.commandId with
  | some old =>
    rw [hc] at h
    dsimp only at h
    split_ifs at h
  | none =>
    rw [hc] at h
    dsimp only at h
    split_ifs at h with hother hfull
    obtain ⟨rfl, -⟩ := Attempt.commit.inj h
    exact ⟨cleanup_command_none hc, not_le.mp hfull, _, rfl, rfl, rfl, rfl⟩

lemma startStep_commit {now₁ now₂ : Time} (h : d.startStep now₁ now₂ key initial = .commit next b) :
    b = true ∧ d.entries.lookup key.string = none ∧
      (∃ r, d.commands.lookup key.commandId = some r ∧ r.runId = key.runId ∧ r.attemptId = key.attemptId ∧ r.cancelled = false ∧
        now₁ < r.expiresAt) ∧ (d.cleanup now₂).size < 10000 ∧ next = { d.cleanup now₂ with
        entries := (d.cleanup now₂).entries.insert key.string { intent := initial, key := key } } := by
  rw [JournalData.startStep] at h
  cases he : d.entries.lookup key.string with
  | some e =>
    rw [he] at h
    cases h
  | none =>
    rw [he] at h
    dsimp only at h
    cases hr : d.commands.lookup key.commandId with
    | none =>
      rw [hr] at h
      cases h
    | some r =>
      rw [hr] at h
      dsimp only at h
      split_ifs at h with hother hcancelled hexpired hfull
      obtain ⟨rfl, rfl⟩ := Attempt.commit.inj h
      rw [not_or, not_not, not_not] at hother
      exact ⟨rfl, rfl, ⟨r, rfl, hother.1, hother.2, by simpa using hcancelled, not_le.mp hexpired⟩, not_le.mp hfull, rfl⟩

lemma finishStep_commit (h : d.finishStep key result = .commit next u) :
    ∃ e, d.entries.lookup key.string = some e ∧ e.result = none ∧
      next = { d with entries := d.entries.insert key.string { e with result := some result } } := by
  rw [JournalData.finishStep] at h
  cases he : d.entries.lookup key.string with
  | none =>
    rw [he] at h
    cases h
  | some e =>
    rw [he] at h
    dsimp only at h
    split_ifs at h with hid hresult
    obtain ⟨rfl, -⟩ := Attempt.commit.inj h
    exact ⟨e, rfl, by simpa using hresult, rfl⟩

lemma recover_commit (h : d.recover now = .commit next results) :
    next = { d with entries := d.entries.mapRows (·.recovered now) } := by
  rw [JournalData.recover] at h
  split_ifs at h
  exact (Attempt.commit.inj h).1.symm

lemma cancel_commit {now₁ now₂ : Time} {c runId attemptId : String}
    (h : d.cancel now₁ now₂ c runId attemptId = .commit next u) :
    ∃ r, r.cancelled = true ∧ r.runId = runId ∧ r.attemptId = attemptId ∧
      ((∃ r', (d.cleanup now₁).commands.lookup c = some r' ∧ r = { r' with cancelled := true }) ∨
        (d.cleanup now₁).commands.lookup c = none ∧ r.expiresAt = now₂ + 120 * second ∧ (d.cleanup now₁).size < 10000) ∧
      next = { d.cleanup now₁ with commands := (d.cleanup now₁).commands.insert c r } := by
  rw [JournalData.cancel] at h
  cases hr : (d.cleanup now₁).commands.lookup c with
  | some r =>
    rw [hr] at h
    dsimp only at h
    split_ifs at h with hother
    obtain ⟨rfl, -⟩ := Attempt.commit.inj h
    rw [not_or, not_not, not_not] at hother
    exact ⟨{ r with cancelled := true }, rfl, hother.1, hother.2, Or.inl ⟨r, rfl, rfl⟩, rfl⟩
  | none =>
    rw [hr] at h
    dsimp only at h
    split_ifs at h with hfull
    obtain ⟨rfl, -⟩ := Attempt.commit.inj h
    exact ⟨_, rfl, rfl, rfl, Or.inr ⟨rfl, rfl, not_le.mp hfull⟩, rfl⟩

variable (expiry) (d) in
def Call.Orderly : Call → Prop
  | .accept _ command => command.expiresAt = expiry command.runId command.attemptId
  | .startStep now₁ _ _ _ => d.lastClock ≤ now₁ + day
  | .cancel now₁ now₂ c runId attemptId =>
    (d.cleanup now₁).commands.lookup c = none → expiry runId attemptId ≤ now₂ + 120 * second
  | .finishStep _ _ => True
  | .recover _ => True

instance : DecidablePred (Call.Orderly expiry d)
  | .accept _ command => inferInstanceAs (Decidable (command.expiresAt = expiry command.runId command.attemptId))
  | .startStep now₁ _ _ _ => inferInstanceAs (Decidable (d.lastClock ≤ now₁ + day))
  | .cancel now₁ now₂ c runId attemptId =>
    inferInstanceAs (Decidable ((d.cleanup now₁).commands.lookup c = none → expiry runId attemptId ≤ now₂ + 120 * second))
  | .finishStep _ _ => isTrue trivial
  | .recover _ => isTrue trivial

variable (expiry) in
/-- A journal committed after another: nothing is lost, and what the caller is told is new and kept. -/
structure Succeeds (d next : JournalData) (events : List Event) : Prop where
  formed : Formed expiry next
  later : Later expiry d next
  single : events.length ≤ 1
  kept : ∀ event ∈ events, Remembers expiry next event
  allowed : ∀ event ∈ events, ∀ past, Remembers expiry d past → past.Allows event

lemma Succeeds.silent (hformed : Formed expiry next) (hlater : Later expiry d next) : Succeeds expiry d next [] where
  formed := hformed
  later := hlater
  single := Nat.zero_le 1
  kept := fun event hevent => by cases hevent
  allowed := fun event hevent => by cases hevent

lemma Attempt.map_commit {α β : Type} {f : α → β} {a : Attempt α} {b : β} (h : a.map f = .commit next b) :
    ∃ x, a = .commit next x ∧ b = f x := by
  cases a with
  | answer r => cases h
  | commit next' x =>
    obtain ⟨rfl, rfl⟩ := Attempt.commit.inj h
    exact ⟨x, rfl, rfl⟩

variable (hf : Formed expiry d)
include hf

lemma Formed.accept {command : Command} (hexpiry : command.expiresAt = expiry command.runId command.attemptId)
    (h : d.accept now command = .commit next b) : Succeeds expiry d next [] := by
  obtain ⟨hnone, -, r, hexpires, hrun, hattempt, rfl⟩ := accept_commit h
  have hr : r.expiresAt = expiry r.runId r.attemptId := by rw [hexpires, hrun, hattempt, hexpiry]
  apply Succeeds.silent
  · apply hf.cleanup.insertCommand
    · intro r' hr'
      rw [hnone] at hr'
      cases hr'
    · exact ⟨hr.ge, fun _ => hr⟩
  · apply hf.later_cleanup.insertCommand
    intro r' hr'
    rw [hnone] at hr'
    cases hr'

lemma Formed.startStep {now₁ now₂ : Time} (hclock : d.lastClock ≤ now₁ + day)
    (h : d.startStep now₁ now₂ key initial = .commit next b) : b = true ∧ Succeeds expiry d next [.started key] := by
  obtain ⟨hb, hnone, ⟨r, hr, hrun, hattempt, hcancelled, hlive⟩, -, rfl⟩ := startStep_commit h
  have hexpires : r.expiresAt = expiry key.runId key.attemptId := by
    rw [← hrun, ← hattempt]
    exact (hf.expiry _ r hr).2 hcancelled
  -- the deadline has not passed, so the run and attempt cannot have been cleaned up
  have hnot : ¬ expiry key.runId key.attemptId + day ≤ d.lastClock := by
    rw [← hexpires]
    intro hle
    linarith
  refine ⟨hb, ?_, ?_, le_rfl, ?_, ?_⟩
  · apply hf.cleanup.insertEntry (e := { intent := initial, key := key })
    rcases cleanup_command now₂ hr with hkept | ⟨-, hover⟩
    · exact Or.inl ⟨r, hkept, hrun, hattempt⟩
    · rw [hexpires] at hover
      exact Or.inr hover
  · exact hf.later_cleanup.insertEntry hnone (cleanup_entry_none hnone) hnot
  · intro event hevent
    rw [List.mem_singleton.mp hevent]
    exact Or.inl ⟨_, AList.lookup_insert _, rfl⟩
  · intro event hevent past hpast
    rw [List.mem_singleton.mp hevent]
    cases past with
    | started key' =>
      intro htriple
      rcases hpast with ⟨e, he, -⟩ | hlapsed
      · rw [StepKey.string_eq htriple, hnone] at he
        cases he
      · exact hnot (hlapsed.congr htriple)
    | cancelled c runId attemptId =>
      rintro ⟨rfl, rfl, rfl⟩
      rcases hpast with ⟨r', hr', hcancelled', -⟩ | hlapsed
      · obtain rfl := Option.some.inj (hr'.symm.trans hr)
        rw [hcancelled] at hcancelled'
        cases hcancelled'
      · exact hnot hlapsed

lemma Formed.finishStep (h : d.finishStep key result = .commit next u) : Succeeds expiry d next [] := by
  obtain ⟨e, he, hresult, rfl⟩ := finishStep_commit h
  have hmap : ∀ s, (d.entries.insert key.string { e with result := some result }).lookup s =
      (d.entries.lookup s).map fun e => if s = key.string then { e with result := some result } else e := by
    intro s
    rw [Table.lookup_insert_ite]
    split_ifs with hs
    · rw [hs, he, Option.map_some]
    · rw [Option.map_id']
  have hkey : ∀ (s : String) (e : JournalEntry), (if s = key.string then { e with result := some result } else e).key = e.key := by
    intro s e
    split_ifs <;> rfl
  apply Succeeds.silent (hf.results hmap hkey)
  apply Later.results hmap hkey
  intro s e' x he' hx
  split_ifs with hs
  · rw [hs, he] at he'
    rw [← Option.some.inj he', hresult] at hx
    cases hx
  · exact hx

lemma Formed.recover (h : d.recover now = .commit next results) : Succeeds expiry d next [] := by
  obtain rfl := recover_commit h
  have hmap : ∀ s, (d.entries.mapRows (·.recovered now)).lookup s = (d.entries.lookup s).map (·.recovered now) :=
    Table.lookup_mapRows _ d.entries
  have hkey : ∀ (_ : String) (e : JournalEntry), (e.recovered now).key = e.key := by
    intro _ e
    rw [JournalEntry.recovered]
    split_ifs <;> rfl
  apply Succeeds.silent (hf.results hmap hkey)
  apply Later.results hmap hkey
  intro s e x _ hx
  rw [JournalEntry.recovered, hx]
  exact hx

lemma Formed.cancel {now₁ now₂ : Time} {c runId attemptId : String}
    (hexpiry : (d.cleanup now₁).commands.lookup c = none → expiry runId attemptId ≤ now₂ + 120 * second)
    (h : d.cancel now₁ now₂ c runId attemptId = .commit next u) : Succeeds expiry d next [.cancelled c runId attemptId] := by
  obtain ⟨r, hcancelled, rfl, rfl, hr, rfl⟩ := cancel_commit h
  have hold : ∀ r', (d.cleanup now₁).commands.lookup c = some r' → r.runId = r'.runId ∧ r.attemptId = r'.attemptId := by
    intro r' hr'
    rcases hr with ⟨r₀, hr₀, rfl⟩ | ⟨hnone, -⟩
    · obtain rfl := Option.some.inj (hr₀.symm.trans hr')
      exact ⟨rfl, rfl⟩
    · rw [hnone] at hr'
      cases hr'
  have hexpires : expiry r.runId r.attemptId ≤ r.expiresAt := by
    rcases hr with ⟨r₀, hr₀, rfl⟩ | ⟨hnone, hexpires, -⟩
    · exact (hf.cleanup.expiry c r₀ hr₀).1
    · rw [hexpires]
      exact hexpiry hnone
  refine ⟨?_, ?_, le_rfl, ?_, ?_⟩
  · apply hf.cleanup.insertCommand hold
    refine ⟨hexpires, fun hlive => ?_⟩
    rw [hcancelled] at hlive
    cases hlive
  · apply hf.later_cleanup.insertCommand
    exact fun r' hr' => ⟨(hold r' hr').1, (hold r' hr').2, fun _ => hcancelled⟩
  · intro event hevent
    rw [List.mem_singleton.mp hevent]
    exact Or.inl ⟨r, AList.lookup_insert _, hcancelled, rfl, rfl⟩
  · intro event hevent past _
    rw [List.mem_singleton.mp hevent]
    cases past <;> trivial

lemma Formed.attempt {c : Call} {events : List Event} (horderly : c.Orderly expiry d) (h : c.attempt d = .commit next events) :
    Succeeds expiry d next events := by
  cases c with
  | accept now command =>
    obtain ⟨b, hcommit, rfl⟩ := Attempt.map_commit h
    exact hf.accept horderly hcommit
  | startStep now₁ now₂ key initial =>
    obtain ⟨b, hcommit, rfl⟩ := Attempt.map_commit h
    obtain ⟨rfl, hsucceeds⟩ := hf.startStep horderly hcommit
    exact hsucceeds
  | finishStep key result =>
    obtain ⟨u, hcommit, rfl⟩ := Attempt.map_commit h
    exact hf.finishStep hcommit
  | recover now =>
    obtain ⟨results, hcommit, rfl⟩ := Attempt.map_commit h
    exact hf.recover hcommit
  | cancel now₁ now₂ c runId attemptId =>
    obtain ⟨u, hcommit, rfl⟩ := Attempt.map_commit h
    exact hf.cancel horderly hcommit

end Calls

end Journals

end Breeze.NetworkDiagnostic
