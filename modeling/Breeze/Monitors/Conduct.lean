import Breeze.Lib.Commits
import Breeze.Monitors.Episodes

/-! The calls on a pair beside each other. Every change of the pair is committed by a call that holds its state row, so that an
evaluation commits on the rows it has read; a detach takes the episode first and the state row after it. -/

namespace Breeze.Monitors

open Lib Lib.Transactions

def Open (episodes : Table EpisodeId Episode) (id : EpisodeId) : Prop := ∃ e, episodes.lookup id = some e ∧ e.endedAt = none

structure Sane (state : Option DeviceState) (episodes : Table EpisodeId Episode) : Prop where
  unique : ∀ id id', Open episodes id → Open episodes id' → id = id'
  current : ∀ row id, state = some row → row.currentEpisodeId = some id → Open episodes id
  row : ∀ id, Open episodes id → state.isSome = true

def Database.Sane (db : Database) : Prop := Monitors.Sane db.state db.episodes

def Recurs (monitor : Monitor) (e : Evaluation) : Prop :=
  ∃ threshold windowHours, monitor.recurrenceThreshold = some threshold ∧ monitor.recurrenceWindowHours = some windowHours ∧
    windowHours ≠ 0 ∧ threshold ≤ (startedSince e.episodes (cutoff e.now windowHours e.state.resetAt)).length

def Evaluation.Opens (e : Evaluation) : Prop := e.state.currentEpisodeId = none ∧ e.result.episodeId.isSome = true

def endEach (now : Time) (reason : EndReason) (ids : List EpisodeId) (episodes : Table EpisodeId Episode) : Table EpisodeId Episode :=
  ids.foldl (fun episodes id => episodes.modify id (·.finish now reason)) episodes

section EndEach

variable (now : Time) (reason : EndReason) (ids : List EpisodeId) (episodes : Table EpisodeId Episode)

lemma lookup_endEach (id : EpisodeId) :
    (endEach now reason ids episodes).lookup id = episodes.lookup id ∨
      id ∈ ids ∧ (endEach now reason ids episodes).lookup id = (episodes.lookup id).map (·.finish now reason) := by
  induction ids generalizing episodes with
  | nil => exact Or.inl rfl
  | cons a ids ih =>
    have hstep := Table.lookup_modify a id (·.finish now reason) episodes
    rcases ih (episodes.modify a (·.finish now reason)) with h | ⟨hmem, h⟩
    · rw [hstep] at h
      split_ifs at h with ha
      · subst ha
        exact Or.inr ⟨List.mem_cons_self, h⟩
      · exact Or.inl h
    · rw [hstep] at h
      split_ifs at h with ha
      · subst ha
        refine Or.inr ⟨List.mem_cons_self, h.trans ?_⟩
        rw [Option.map_map]
        rfl
      · exact Or.inr ⟨List.mem_cons_of_mem _ hmem, h⟩

variable {now reason ids episodes}

lemma of_open_endEach {id : EpisodeId} (h : Open (endEach now reason ids episodes) id) : Open episodes id := by
  obtain ⟨e, he, hopen⟩ := h
  rcases lookup_endEach now reason ids episodes id with h | ⟨-, h⟩
  · exact ⟨e, h ▸ he, hopen⟩
  · obtain ⟨e₀, -, rfl⟩ := Option.map_eq_some_iff.mp (h.symm.trans he)
    cases hopen

lemma changed_endEach {held : List Row} (hids : ∀ id ∈ ids, .episode id ∈ held) (id : EpisodeId) :
    (endEach now reason ids episodes).lookup id = episodes.lookup id ∨
      (.episode id ∈ held ∧ (episodes.lookup id).isSome = true ∧ ((endEach now reason ids episodes).lookup id).isSome = true) := by
  rcases lookup_endEach now reason ids episodes id with h | ⟨hmem, h⟩
  · exact Or.inl h
  · rw [h]
    cases episodes.lookup id with
    | none => exact Or.inl rfl
    | some e => exact Or.inr ⟨hids id hmem, rfl, rfl⟩

lemma Sane.endEach {state : Option DeviceState} (h : Sane state episodes) :
    Sane (state.map fun row => { row with currentEpisodeId := none }) (endEach now reason ids episodes) where
  unique := fun id id' hid hid' => h.unique id id' (of_open_endEach hid) (of_open_endEach hid')
  current := by
    intro row id hrow hid
    obtain ⟨row₀, -, rfl⟩ := Option.map_eq_some_iff.mp hrow
    cases hid
  row := fun id hid => by rw [Option.isSome_map]; exact h.row id (of_open_endEach hid)

end EndEach

lemma isOpen_iff {db : Database} {id : EpisodeId} : db.isOpen id = true ↔ Open db.episodes id := by
  rw [Database.isOpen, Option.any_eq_true]
  simp only [Option.isNone_iff_eq_none, Open]

lemma mem_openEpisodes {db : Database} {id : EpisodeId} : id ∈ db.openEpisodes ↔ Open db.episodes id := by
  rw [Database.openEpisodes, Table.mem_keysWhere]
  simp only [Option.isNone_iff_eq_none, Open]

section Changes

variable (monitor : Monitor)

structure Evaluates (n : ℕ) (held : List Row) (db : Database) (e : Evaluation) (row : DeviceState) : Prop where
  found : e.state = db.state.getD {}
  latches : e.result.latched = true ↔ e.Opens ∧ e.state.escalatedAt = none ∧ Recurs monitor e
  reports : e.observation = .breach → e.result.needsEscalationAlert = e.state.needsEscalationAlert
  escalated : row.escalatedAt.isSome = (e.state.escalatedAt.isSome || e.result.latched)
  alert : row.escalationAlertId = e.state.escalationAlertId
  sane : db.Sane → Sane (some row) e.episodes
  episodes : ∀ id, e.episodes.lookup id = db.episodes.lookup id ∨ (id = .inserted n ∧ db.episodes.lookup id = none) ∨
    (.episode id ∈ held ∧ (db.episodes.lookup id).isSome = true ∧ (e.episodes.lookup id).isSome = true)

inductive Change (n : ℕ) (held : List Row) (db : Database) : Database → Prop
  | same : Change n held db db
  | raised (latch : Option ℕ) : Change n held db (db.record (.raised latch))
  | evaluated (e : Evaluation) (row : DeviceState) (hstate : .state ∈ held) (h : Evaluates monitor n held db e row) :
      Change n held db { state := some row, episodes := e.episodes, log := .evaluated e :: db.log }
  | stamped (latch : Option ℕ) (alert : AlertId) (hstate : .state ∈ held) (hraised : .raised latch ∈ db.log) :
      Change n held db ((db.setState fun row => { row with escalationAlertId := some alert }).record (.stamped latch))
  | reset (set : DeviceState → DeviceState) (hstate : .state ∈ held)
      (hset : ∀ row, set row = { set row with
        currentEpisodeId := row.currentEpisodeId, escalatedAt := none, escalationAlertId := none }) :
      Change n held db ((db.setState set).record .reset)
  | detached (now : Time) (ids : List EpisodeId) (hstate : .state ∈ held) (hids : ∀ id ∈ ids, .episode id ∈ held) :
      Change n held db
        { db with
          state := db.state.map fun row => { row with currentEpisodeId := none }
          episodes := endEach now .monitorDetached ids db.episodes }

structure Rely (n : ℕ) (held : List Row) (db db' : Database) : Prop where
  sane : db.Sane → db'.Sane
  log : db.log ⊆ db'.log
  own : db.episodes.lookup (.inserted n) = none → db'.episodes.lookup (.inserted n) = none
  row : db.state.isSome = true → db'.state.isSome = true
  state : .state ∈ held → db'.state = db.state ∧ db'.episodes = db.episodes
  persists : ∀ id, (db.episodes.lookup id).isSome = true → (db'.episodes.lookup id).isSome = true
  episode : ∀ id, .episode id ∈ held → (db.episodes.lookup id).isSome = true → db'.episodes.lookup id = db.episodes.lookup id

variable {monitor} {n m : ℕ} {held : List Row} {db db' : Database}

lemma Sane.setState {state : Option DeviceState} {episodes : Table EpisodeId Episode} (h : Sane state episodes)
    {set : DeviceState → DeviceState}
    (hset : ∀ row id, (set row).currentEpisodeId = some id → row.currentEpisodeId = some id) : Sane (state.map set) episodes where
  unique := h.unique
  current := by
    intro row' id hrow' hid
    obtain ⟨row, hrow, rfl⟩ := Option.map_eq_some_iff.mp hrow'
    exact h.current row id hrow (hset row id hid)
  row := fun id hid => by rw [Option.isSome_map]; exact h.row id hid

section

variable (h : Change monitor n held db db')

include h

lemma Change.sane (hdb : db.Sane) : db'.Sane := by
  cases h with
  | same | raised latch => exact hdb
  | evaluated e row hstate h => exact h.sane hdb
  | stamped latch alert hstate hraised => exact Sane.setState hdb fun _ _ hid => hid
  | reset set hstate hset =>
    refine Sane.setState hdb fun row id hid => ?_
    rw [hset] at hid
    exact hid
  | detached now ids hstate hids => exact Sane.endEach hdb

lemma Change.log : db.log ⊆ db'.log := by
  cases h with
  | same | detached now ids hstate hids => exact List.Subset.refl _
  | raised latch | evaluated e row hstate h | stamped latch alert hstate hraised | reset set hstate hset =>
    exact List.subset_cons_self _ _

lemma Change.lookup (id : EpisodeId) :
    db'.episodes.lookup id = db.episodes.lookup id ∨ (id = .inserted n ∧ db.episodes.lookup id = none) ∨
      (.episode id ∈ held ∧ (db.episodes.lookup id).isSome = true ∧ (db'.episodes.lookup id).isSome = true) := by
  cases h with
  | same | raised latch | stamped latch alert hstate hraised | reset set hstate hset => exact Or.inl rfl
  | evaluated e row hstate h => exact h.episodes id
  | detached now ids hstate hids => exact (changed_endEach hids id).imp_right Or.inr

lemma Change.row (hrow : db.state.isSome = true) : db'.state.isSome = true := by
  cases h with
  | same | raised latch => exact hrow
  | evaluated e row hstate h => rfl
  | stamped latch alert hstate hraised | reset set hstate hset => rwa [Database.record, Database.setState, Option.isSome_map]
  | detached now ids hstate hids => rwa [Option.isSome_map]

lemma Change.same_of_free (hheld : .state ∉ held) :
    db'.state = db.state ∧ db'.episodes = db.episodes := by
  cases h with
  | same | raised latch => exact ⟨rfl, rfl⟩
  | evaluated e row hstate | stamped latch alert hstate | reset set hstate | detached now ids hstate =>
    exact absurd hstate hheld

lemma Change.own (hnm : n ≠ m) (hm : db.episodes.lookup (.inserted m) = none) :
    db'.episodes.lookup (.inserted m) = none := by
  rcases h.lookup (.inserted m) with h | ⟨hmn, -⟩ | ⟨-, h, -⟩
  · rw [h, hm]
  · exact absurd (EpisodeId.inserted.inj hmn).symm hnm
  · rw [hm] at h
    cases h

lemma Change.persists {id : EpisodeId} (hid : (db.episodes.lookup id).isSome = true) :
    (db'.episodes.lookup id).isSome = true := by
  rcases h.lookup id with h | ⟨-, h⟩ | ⟨-, -, h⟩
  · rw [h, hid]
  · rw [h] at hid
    cases hid
  · exact h

lemma Change.lookup_of_free {id : EpisodeId} (hfree : .episode id ∉ held)
    (hid : (db.episodes.lookup id).isSome = true) : db'.episodes.lookup id = db.episodes.lookup id := by
  rcases h.lookup id with h | ⟨-, h⟩ | ⟨h, -⟩
  · exact h
  · rw [h] at hid
    cases hid
  · exact absurd h hfree

end

lemma Change.mono {held' : List Row} (hsub : held ⊆ held') (h : Change monitor n held db db') : Change monitor n held' db db' := by
  cases h with
  | same => exact .same
  | raised latch => exact .raised latch
  | evaluated e row hstate h =>
    exact .evaluated e row (hsub hstate)
      ⟨h.found, h.latches, h.reports, h.escalated, h.alert, h.sane,
        fun id => (h.episodes id).imp_right (Or.imp_right fun h => ⟨hsub h.1, h.2⟩)⟩
  | stamped latch alert hstate hraised => exact .stamped latch alert (hsub hstate) hraised
  | reset set hstate hset => exact .reset set (hsub hstate) hset
  | detached now ids hstate hids => exact .detached now ids (hsub hstate) fun id hid => hsub (hids id hid)

lemma Rely.refl : Rely n held db db := ⟨id, List.Subset.refl _, id, id, fun _ => ⟨rfl, rfl⟩, fun _ h => h, fun _ _ _ => rfl⟩

lemma Rely.trans {db'' : Database} (h : Rely n held db db') (h' : Rely n held db' db'') : Rely n held db db'' where
  sane hdb := h'.sane (h.sane hdb)
  log := List.Subset.trans h.log h'.log
  own hn := h'.own (h.own hn)
  row hrow := h'.row (h.row hrow)
  state hstate := ⟨(h'.state hstate).1.trans (h.state hstate).1, (h'.state hstate).2.trans (h.state hstate).2⟩
  persists id hid := h'.persists id (h.persists id hid)
  episode id hid hsome := (h'.episode id hid (h.persists id hsome)).trans (h.episode id hid hsome)

lemma Rely.mono {held' : List Row} (hsub : held ⊆ held') (h : Rely n held' db db') : Rely n held db db' :=
  ⟨h.sane, h.log, h.own, h.row, fun hs => h.state (hsub hs), h.persists, fun id hid => h.episode id (hsub hid)⟩

variable (monitor) in
def rules : Rules Database Row Call where
  change _ := Change monitor
  rely _ := Rely
  ready _ _ := True

def Fresh (m : ℕ) (db : Database) : Prop := db.episodes.lookup (.inserted m) = none

lemma sound {I : Database → Prop} (hI : ∀ n held db db', Change monitor n held db db' → I db → I db') :
    (rules monitor).Sound (fun _ _ => True) I Fresh where
  refl := Rely.refl
  trans := Rely.trans
  rely_mono := Rely.mono
  change_mono := Change.mono
  frame hnm _ hheld h :=
    ⟨h.sane, h.log, h.own hnm, h.row, fun hs => h.same_of_free (hheld _ hs), fun _ => h.persists,
      fun _ hid => h.lookup_of_free (hheld _ hid)⟩
  keeps h := hI _ _ _ _ h
  fresh hnm h := h.own hnm

lemma sound_true : (rules monitor).Sound (fun _ _ => True) (fun _ => True) Fresh := sound fun _ _ _ _ _ h => h

end Changes

end Breeze.Monitors
