import Breeze.Monitors.Conduct

/-! Every transaction of the calls commits one of these changes. -/

namespace Breeze.Monitors

open Lib Lib.Transactions

variable {monitor : Monitor} {i : Call} {n : ℕ} {held : List Row} {own : Database → Database} {db : Database}

section Statements

lemma commits_updateState (test : DeviceState → Bool) (set : DeviceState → DeviceState) :
    Commits (rules monitor) i n (updateState test set) held own db fun r held' own' db' =>
      Rely n held db db' ∧ held ⊆ held' ∧
        ((r = false ∧ own' = own ∧ ∃ db₀, Rely n held db db₀ ∧ (own db₀).state.any test = false) ∨
          (r = true ∧ .state ∈ held' ∧ own' = fun x => (own x).setState set)) := by
  rw [updateState]
  refine (Commits.update_one sound_true .state ?_).bind fun rows held' own' db' h => ?_
  · intro db
    split_ifs
    · exact Or.inr rfl
    · exact Or.inl rfl
  · obtain ⟨hrely, hsub, hcase⟩ := h
    refine ⟨hrely, hsub, ?_⟩
    rcases hcase with ⟨rfl, rfl, db₀, db₁, h₀, h₁, hfail⟩ | ⟨rfl, rfl, rfl, -⟩
    · left
      rcases hfail with hfail | hfail
      · exact ⟨rfl, rfl, db₀, h₀, by simpa using hfail⟩
      · exact ⟨rfl, rfl, db₁, Rely.trans h₀ h₁, hfail⟩
    · exact Or.inr ⟨rfl, List.mem_cons_self, rfl⟩

lemma commits_updateRow (set : DeviceState → DeviceState) (hown : ∀ db', Rely n held db db' → (own db').state.isSome = true) :
    Commits (rules monitor) i n (updateState (fun _ => true) set) held own db fun _ held' own' db' =>
      Rely n held db db' ∧ held ⊆ held' ∧ .state ∈ held' ∧ own' = fun x => (own x).setState set := by
  refine (commits_updateState _ _).weaken fun r held' own' db' h => ?_
  obtain ⟨hrely, hsub, ⟨-, -, db₀, h₀, hnone⟩ | ⟨-, hstate, heq⟩⟩ := h
  · obtain ⟨row, hrow⟩ := Option.isSome_iff_exists.mp (hown db₀ h₀)
    rw [hrow] at hnone
    cases hnone
  · exact ⟨hrely, hsub, hstate, heq⟩

lemma setAll_episodes (now : Time) (reason : EndReason) (ids : List EpisodeId) (db : Database) :
    setAll (fun row db => match row with
      | .episode id => db.setEpisode id (·.finish now reason)
      | .state => db) (ids.map Row.episode) db = { db with episodes := endEach now reason ids db.episodes } := by
  induction ids generalizing db with
  | nil => rfl
  | cons id ids ih => exact ih (db.setEpisode id (·.finish now reason))

lemma isOpen_setEpisode {id id' : EpisodeId} (h : id ≠ id') (set : Episode → Episode) (db : Database) :
    (db.setEpisode id' set).isOpen id = db.isOpen id := by
  rw [Database.isOpen, Database.setEpisode, Table.lookup_modify_ne _ _ h, Database.isOpen]

lemma commits_endEpisodes (test : EpisodeId → Bool) (now : Time) (reason : EndReason) :
    Commits (rules monitor) i n (endEpisodes test now reason) held id db fun rows held' own' db' =>
      Rely n held db db' ∧ held ⊆ held' ∧ ∃ ids, rows = ids.map Row.episode ∧
        own' = (fun x => { x with episodes := endEach now reason ids x.episodes }) ∧
        ∀ id ∈ ids, .episode id ∈ held' ∧ Open db'.episodes id := by
  rw [endEpisodes]
  refine Commits.see_bind fun db₀ h₀ => ?_
  have hfound : ∀ {id}, id ∈ db₀.episodes.keysWhere (fun id e => test id && e.endedAt.isNone) →
      (db₀.episodes.lookup id).isSome = true := by
    intro id hid
    obtain ⟨e, he, -⟩ := Table.mem_keysWhere.mp hid
    rw [he]
    rfl
  apply Commits.updateEach sound_true
  · exact List.Nodup.map (fun _ _ h => Row.episode.inj h) (Table.nodup_keysWhere _ _)
  · intro row hrow row' hrow' hne s
    obtain ⟨id, -, rfl⟩ := List.mem_map.mp hrow
    obtain ⟨id', -, rfl⟩ := List.mem_map.mp hrow'
    exact isOpen_setEpisode (fun h => hne (by rw [h])) _ s
  · intro row hrow held' s s' hheld hs hs'
    obtain ⟨id, hid, rfl⟩ := List.mem_map.mp hrow
    have hsome := Rely.persists hs id (hfound hid)
    simp only [Database.isOpen, Rely.episode hs' id hheld hsome, id_eq]
  · intro changed held' s hsub hs hchanged hpass
    obtain ⟨ids, -, rfl⟩ := List.sublist_map_iff.mp hchanged
    refine ⟨Rely.trans h₀ hs, hsub, ids, rfl, ?_, fun id hid => ?_⟩
    · funext x
      exact setAll_episodes now reason ids x
    · obtain ⟨hheld, htest⟩ := hpass (.episode id) (List.mem_map_of_mem hid)
      exact ⟨hheld, isOpen_iff.mp htest⟩

end Statements

section Humans

variable {α : Type}

def Committing (monitor : Monitor) (n : ℕ) (held : List Row) (own : Database → Database) (db : Database) : Prop :=
  ∀ db', Rely n held db db' → Change monitor n held db' (own db')

lemma commits_phase {p : Step α} (h : Commits (rules monitor) i n p held own db fun _ held own db => Committing monitor n held own db) :
    Commits (rules monitor) i n (Proc.phase p) held own db fun _ _ _ _ => True :=
  h.bind fun _ _ _ _ h db' hrely _ => ⟨h db' hrely, trivial⟩

lemma Rely.open {db' : Database} (h : Rely n held db db') {id : EpisodeId} (hid : .episode id ∈ held)
    (hopen : Open db.episodes id) : Open db'.episodes id := by
  obtain ⟨e, he, hended⟩ := hopen
  exact ⟨e, (h.episode id hid (by rw [he]; rfl)).trans he, hended⟩

lemma commits_detach (now : Time) (hdb : db.Sane) :
    Commits (rules monitor) i n (detachMonitorFromDevice now) [] id db fun _ _ _ _ => True := by
  rw [detachMonitorFromDevice]
  refine commits_phase ((commits_endEpisodes _ _ _).bind fun rows held₁ own₁ db₁ h => ?_)
  obtain ⟨h₁, -, ids, rfl, rfl, hids⟩ := h
  cases ids with
  | nil => exact fun db' _ => .same
  | cons id ids =>
    obtain ⟨hid, hopen⟩ := hids id List.mem_cons_self
    -- the episode stays open until the commit, so the row is there
    have hrow : ∀ db', Rely n held₁ db₁ db' → db'.state.isSome = true :=
      fun db' h' => (h'.sane (h₁.sane hdb)).row id (h'.open hid hopen)
    refine Commits.bind (commits_updateRow _ ?_) fun r held₂ own₂ db₂ h => ?_
    · exact hrow
    obtain ⟨-, hsub, hstate, rfl⟩ := h
    exact fun db' _ => .detached now (id :: ids) hstate fun id' hid' => hsub (hids id' hid').1

lemma commits_reset (now : Time) (visible : Bool) :
    Commits (rules monitor) i n (resetMonitorEscalation now visible) [] id db fun _ _ _ _ => True := by
  rw [resetMonitorEscalation]
  refine commits_phase ((commits_updateState _ _).bind fun r held₁ own₁ db₁ h => ?_)
  obtain ⟨-, -, ⟨rfl, rfl, -⟩ | ⟨rfl, hstate, rfl⟩⟩ := h
  · exact fun db' _ => .same
  · exact fun db' _ => .reset _ hstate fun _ => rfl

lemma commits_fire (raises stamps : Bool) (latch : Option ℕ) (hdb : db.state.isSome = true) :
    Commits (rules monitor) i n (fireEscalationLatch raises stamps latch n) [] id db fun _ _ _ _ => True := by
  rw [fireEscalationLatch]
  cases raises
  · trivial
  · refine ⟨rfl, rfl, fun db₁ h₁ _ => ⟨.raised latch, ?_⟩⟩
    cases stamps
    · trivial
    · have hsome : db₁.state.isSome = true := Rely.row h₁ hdb
      have hrow : ∀ db', Rely n [] (db₁.record (.raised latch)) db' → (id db').state.isSome = true := fun db' h' => h'.row hsome
      refine commits_phase ((commits_updateRow _ hrow).bind fun r held₂ own₂ db₂ h => ?_)
      obtain ⟨h₂, -, hstate, rfl⟩ := h
      exact fun db' h' => .stamped latch n hstate (h'.log (h₂.log List.mem_cons_self))

end Humans

section Evaluations

variable {observation : Observation} {now : Time} {result : RecordEvaluationResult} {set : DeviceState → DeviceState}
  {e : Evaluation}

lemma commits_conclude
    (hown : ∀ x, (own x).state.isSome = true) :
    Commits (rules monitor) i n (concludeEvaluation observation now result set) held own db fun r held' own' db' =>
      (∃ latch, r = .ok (result, latch)) ∧ Rely n held db db' ∧ held ⊆ held' ∧ own' = fun x =>
        { state := (own x).state.map set
          episodes := (own x).episodes
          log := .evaluated
            { observation := observation, now := now, state := (own x).state.getD {}, episodes := (own x).episodes, result := result } ::
              (own x).log } := by
  rw [concludeEvaluation]
  refine Commits.put_bind (Commits.bind (commits_updateRow _ ?_) fun r held₁ own₁ db₁ h => ?_)
  · exact fun x _ => hown x
  obtain ⟨h₁, hsub, -, rfl⟩ := h
  exact Commits.see_bind fun db₂ h₂ => ⟨⟨_, rfl⟩, Rely.trans h₁ (Rely.mono hsub h₂), hsub, rfl⟩

lemma commits_insertState :
    Commits (rules monitor) i n insertState [] id db fun _ _ own' db' => Rely n [] db db' ∧ own' = Database.ensureState := by
  rw [insertState]
  refine Commits.see_bind fun db₁ h₁ => ?_
  split_ifs
  · exact Commits.lockRow_bind fun db₂ h₂ => ⟨Rely.trans h₁ h₂, rfl⟩
  · exact ⟨h₁, rfl⟩

def Concluding (monitor : Monitor) (n : ℕ) {α : Type} (r : Except String α) (held : List Row) (own : Database → Database)
    (db : Database) : Prop :=
  ∀ a, r = .ok a → (∀ x, (own x).state.isSome = true) ∧ Committing monitor n held own db

lemma commits_transaction {α : Type} {p : Step (Except String α)} (h : Commits (rules monitor) i n p held own db (Concluding monitor n)) :
    Commits (rules monitor) i n (transaction p) held own db fun r held own db =>
      ∀ a, r = .ok a → held = [] ∧ own = id ∧ db.state.isSome = true := by
  refine h.bind fun r held₁ own₁ db₁ hr => ?_
  cases r with
  | error e => exact fun a ha => by cases ha
  | ok a => exact fun db' h' _ => ⟨(hr a rfl).2 db' h', fun _ _ => ⟨rfl, rfl, (hr a rfl).1 db'⟩⟩

lemma Sane.ensure {state : Option DeviceState} {episodes : Table EpisodeId Episode} (h : Sane state episodes) :
    Sane (some (state.getD {})) episodes where
  unique := h.unique
  current := by
    intro row id hrow hid
    obtain rfl := Option.some.inj hrow
    cases hs : state with
    | none =>
      rw [hs] at hid
      cases hid
    | some row =>
      rw [hs] at hid
      exact h.current row id hs hid
  row := fun _ _ => rfl

/-- The writes of an evaluation so far: the row is there, and the episodes are changed as given. -/
structure Prepared (episodes : Table EpisodeId Episode → Table EpisodeId Episode) (own : Database → Database) : Prop where
  state : ∀ x, (own x).state = some (x.state.getD {})
  episodes : ∀ x, (own x).episodes = episodes x.episodes
  log : ∀ x, (own x).log = x.log

lemma commits_quiet
    {episodes : Table EpisodeId Episode → Table EpisodeId Episode} (hown : Prepared episodes own) (hstate : .state ∈ held)
    (hlatched : result.latched = false) (hopens : (db.state.getD {}).currentEpisodeId = none → result.episodeId = none)
    (hreports : observation = .breach → result.needsEscalationAlert = (db.state.getD {}).needsEscalationAlert)
    (hescalated : ∀ row, (set row).escalatedAt = row.escalatedAt) (halert : ∀ row, (set row).escalationAlertId = row.escalationAlertId)
    (hsane : ∀ state t, Sane state t → Sane (state.map set) (episodes t))
    (hepisodes : ∀ (t : Table EpisodeId Episode) id, (episodes t).lookup id = t.lookup id ∨
      (.episode id ∈ held ∧ (t.lookup id).isSome = true ∧ ((episodes t).lookup id).isSome = true)) :
    Commits (rules monitor) i n (concludeEvaluation observation now result set) held own db (Concluding monitor n) := by
  have hsome : ∀ x, (own x).state.isSome = true := fun x => by rw [hown.state]; rfl
  refine (commits_conclude hsome).weaken fun _ held₁ own₁ db₁ h => ?_
  obtain ⟨-, h₁, hsub, rfl⟩ := h
  refine fun _ _ => ⟨fun x => (Option.isSome_map ..).trans (hsome x), fun db' h' => ?_⟩
  have hsame := (h₁.trans (h'.mono hsub)).state hstate
  rw [← hsame.1] at hopens hreports
  dsimp only
  rw [hown.state, hown.episodes, hown.log, Option.map_some, Option.getD_some]
  let e : Evaluation :=
    { observation := observation, now := now, state := db'.state.getD {}, episodes := episodes db'.episodes, result := result }
  have hnot : ¬ e.Opens := by
    rintro ⟨hnone, hopen⟩
    rw [hopens hnone] at hopen
    cases hopen
  refine .evaluated e _ (hsub hstate) ⟨rfl, ?_, hreports, ?_, halert _, fun hdb => hsane _ _ (Sane.ensure hdb), fun id => ?_⟩
  · rw [hlatched]
    exact ⟨nofun, fun h => absurd h.1 hnot⟩
  · rw [hescalated, hlatched, Bool.or_false]
  · exact (hepisodes _ id).imp_right fun h => Or.inr ⟨hsub h.1, h.2⟩

lemma recurrence_reached (hnow : e.now = now) :
    (recurrence monitor now e.state.resetAt e.episodes).reached = true ↔ Recurs monitor e := by
  subst hnow
  rw [recurrence, Recurs]
  cases ht : monitor.recurrenceThreshold with
  | none => simp
  | some threshold =>
    cases hw : monitor.recurrenceWindowHours with
    | none => simp
    | some windowHours =>
      dsimp only
      split_ifs with hzero
      · simp [hzero]
      · simp [hzero]

lemma evaluates_enter {id : EpisodeId} {window : Window} {responsesPaused : Bool} (hfound : e.state = db.state.getD {})
    (hnone : e.state.currentEpisodeId = none) (hid : e.result.episodeId = some id)
    (hlatched : e.result.latched = (e.state.escalatedAt.isNone && (recurrence monitor e.now e.state.resetAt e.episodes).reached))
    (hneeds : e.result.needsEscalationAlert = e.state.needsEscalationAlert) (hopen : ∀ id', Open e.episodes id' ↔ id' = id)
    (hepisodes : ∀ id, e.episodes.lookup id = db.episodes.lookup id ∨ (id = .inserted n ∧ db.episodes.lookup id = none)) :
    Evaluates monitor n held db e (e.state.enter e.now id window e.result.latched responsesPaused) where
  found := hfound
  latches := by
    rw [← recurrence_reached rfl, hlatched, Bool.and_eq_true, Option.isNone_iff_eq_none]
    simp [Evaluation.Opens, hnone, hid]
  reports := fun _ => hneeds
  escalated := by
    rw [DeviceState.enter]
    cases e.result.latched
    · rw [if_neg Bool.false_ne_true, Bool.or_false]
    · rw [if_pos rfl, Bool.or_true]
      rfl
  alert := rfl
  sane := by
    intro _
    refine ⟨fun a b ha hb => ?_, fun row id' hrow hid' => ?_, fun _ _ => rfl⟩
    · rw [(hopen a).mp ha, (hopen b).mp hb]
    · obtain rfl := Option.some.inj hrow
      exact (hopen id').mpr (Option.some.inj hid').symm
  episodes := fun id' => (hepisodes id').imp_right Or.inl

lemma commits_countAndLatch {id : EpisodeId} {opened : Bool}
    {episodes : Table EpisodeId Episode → Table EpisodeId Episode} (hown : Prepared episodes own) (hstate : .state ∈ held)
    (hnone : (db.state.getD {}).currentEpisodeId = none) (hopen : ∀ id', Open (episodes db.episodes) id' ↔ id' = id)
    (hepisodes : ∀ id, (episodes db.episodes).lookup id = db.episodes.lookup id ∨ (id = .inserted n ∧ db.episodes.lookup id = none)) :
    Commits (rules monitor) i n (countAndLatch monitor now (db.state.getD {}) id opened) held own db (Concluding monitor n) := by
  rw [countAndLatch]
  refine Commits.see_bind fun db₁ h₁ => ?_
  have hsome : ∀ x, (own x).state.isSome = true := fun x => by rw [hown.state]; rfl
  refine (commits_conclude hsome).weaken fun _ held₂ own₂ db₂ h => ?_
  obtain ⟨-, h₂, hsub, rfl⟩ := h
  refine fun _ _ => ⟨fun x => (Option.isSome_map ..).trans (hsome x), fun db' h' => ?_⟩
  -- the state row is held, so both the count and the commit are about the rows as they were
  have hsame₁ := Rely.state h₁ hstate
  have hsame := (Rely.trans h₁ (h₂.trans (h'.mono hsub))).state hstate
  dsimp only
  rw [hown.state, hown.episodes db', hown.episodes db₁, hown.log, hsame.1, hsame.2, hsame₁.2, Option.map_some, Option.getD_some]
  generalize hwindow : recurrence monitor now (db.state.getD {}).resetAt (episodes db.episodes) = window
  exact .evaluated
    { observation := .breach, now := now, state := db.state.getD {}, episodes := episodes db.episodes, result := _ } _ (hsub hstate)
    (evaluates_enter (by rw [hsame.1]) hnone rfl (by rw [hwindow]) rfl hopen fun id' => by rw [hsame.2]; exact hepisodes id')

lemma open_insert {episodes : Table EpisodeId Episode} (hnone : ∀ id, ¬ Open episodes id) (id : EpisodeId) :
    Open (episodes.insert (.inserted n) { startedAt := now }) id ↔ id = .inserted n := by
  constructor
  · rintro ⟨e, he, hended⟩
    rcases Table.of_insert he with ⟨hid, -⟩ | ⟨-, he⟩
    · exact hid
    · exact absurd ⟨e, he, hended⟩ (hnone id)
  · rintro rfl
    exact ⟨_, AList.lookup_insert _, rfl⟩

lemma commits_insertEpisode (now : Time) :
    Commits (rules monitor) i n (insertEpisode now n) held own db fun r held' own' db' =>
      held' = held ∧ Rely n held db db' ∧
        ((r = some (.inserted n) ∧ (∀ id, ¬ Open (own db').episodes id) ∧
            own' = fun x => { own x with episodes := (own x).episodes.insert (.inserted n) { startedAt := now } }) ∨
          (r = none ∧ own' = own)) := by
  rw [insertEpisode]
  refine Commits.see_bind fun db₁ h₁ => ?_
  split_ifs with hempty
  · refine Commits.put_bind ⟨rfl, h₁, Or.inl ⟨rfl, fun id hid => ?_, rfl⟩⟩
    have hmem := mem_openEpisodes.mpr hid
    rw [List.isEmpty_iff.mp hempty] at hmem
    cases hmem
  · exact ⟨rfl, h₁, Or.inr ⟨rfl, rfl⟩⟩

lemma commits_openOrAdopt (hstate : .state ∈ held) (hdb : db.Sane) (hfresh : db.episodes.lookup (.inserted n) = none)
    (hnone : (db.state.getD {}).currentEpisodeId = none) :
    Commits (rules monitor) i n (openOrAdopt monitor now n (db.state.getD {})) held Database.ensureState db
      (Concluding monitor n) := by
  rw [openOrAdopt]
  refine (commits_insertEpisode now).bind fun r held₁ own₁ db₁ h => ?_
  obtain ⟨rfl, h₁, hcase⟩ := h
  obtain ⟨hstate₁, hepisodes₁⟩ := h₁.state hstate
  rw [← hstate₁] at hnone ⊢
  rw [← hepisodes₁] at hfresh
  rcases hcase with ⟨rfl, hclosed, rfl⟩ | ⟨rfl, rfl⟩
  · have hprepared : Prepared (fun episodes => episodes.insert (.inserted n) { startedAt := now })
        (fun x => { x.ensureState with episodes := x.ensureState.episodes.insert (.inserted n) { startedAt := now } }) :=
      ⟨fun _ => rfl, fun _ => rfl, fun _ => rfl⟩
    refine commits_countAndLatch hprepared hstate hnone (open_insert hclosed) fun id => ?_
    rw [Table.lookup_insert_ite]
    split_ifs with hid
    · exact Or.inr ⟨hid, by rw [hid, hfresh]⟩
    · exact Or.inl rfl
  · refine Commits.see_bind fun db₂ h₂ => ?_
    obtain ⟨hstate₂, -⟩ := Rely.state h₂ hstate
    rw [← hstate₂] at hnone ⊢
    cases hhead : db₂.ensureState.openEpisodes.head? with
    | none => exact fun a ha => by cases ha
    | some id =>
      have hid : Open db₂.episodes id := mem_openEpisodes.mp (List.mem_of_head? hhead)
      have hsane := Rely.sane h₂ (h₁.sane hdb)
      have hprepared : Prepared (fun episodes => episodes) Database.ensureState := ⟨fun _ => rfl, fun _ => rfl, fun _ => rfl⟩
      refine commits_countAndLatch hprepared hstate hnone (fun id' => ⟨fun h => hsane.unique id' id h hid, ?_⟩) fun _ => Or.inl rfl
      rintro rfl
      exact hid

lemma commits_endCurrent (id : EpisodeId) (now : Time) :
    Commits (rules monitor) i n (endEpisodes (· = id) now .recovered) held Database.ensureState db fun _ held' own' db' =>
      Rely n held db db' ∧ held ⊆ held' ∧ ∃ ids, (∀ id ∈ ids, .episode id ∈ held') ∧
        Prepared (endEach now .recovered ids) own' := by
  have hone : ∀ db : Database, (db.episodes.keysWhere fun id' e => decide (id' = id) && e.endedAt.isNone) = [] ∨
      (db.episodes.keysWhere fun id' e => decide (id' = id) && e.endedAt.isNone) = [id] := by
    intro db
    refine Table.keysWhere_one (fun id' e h => ?_) _
    exact of_decide_eq_true ((Bool.and_eq_true _ _).mp h).1
  rw [endEpisodes]
  refine (Commits.update_one sound_true (.episode id) fun db => ?_).weaken fun rows held' own' db' h => ?_
  · exact (hone db).imp (fun h => by rw [h]; rfl) fun h => by rw [h]; rfl
  · obtain ⟨hrely, hsub, ⟨-, rfl, -⟩ | ⟨-, rfl, rfl, -⟩⟩ := h
    · exact ⟨hrely, hsub, [], fun _ h => (by cases h), fun _ => rfl, fun _ => rfl, fun _ => rfl⟩
    · refine ⟨hrely, hsub, [id], fun id' h => ?_, fun _ => rfl, fun _ => rfl, fun _ => rfl⟩
      rw [List.mem_singleton.mp h]
      exact List.mem_cons_self

lemma commits_recovered {ids : List EpisodeId} (hstate : .state ∈ held)
    (hids : ∀ id ∈ ids, .episode id ∈ held) (hown : Prepared (endEach now .recovered ids) own) (hresult : result.episodeId = none)
    (hlatched : result.latched = false) :
    Commits (rules monitor) i n (concludeEvaluation .ok now result
      fun row => { row with lastEvaluatedAt := some now, lastState := .ok, currentEpisodeId := none }) held own db
      (Concluding monitor n) := by
  refine commits_quiet hown hstate hlatched (fun _ => hresult) (fun h => by cases h) (fun _ => rfl) (fun _ => rfl) (fun state t h => ?_)
    fun t => changed_endEach hids
  have htouch : Sane (state.map fun row => { row with lastEvaluatedAt := some now, lastState := .ok }) t :=
    h.setState fun _ _ hid => hid
  have hsane : Sane _ (endEach now .recovered ids t) := htouch.endEach
  rwa [Option.map_map] at hsane

lemma commits_evaluate (observation : Observation) (now : Time) (hdb : db.Sane) (hfresh : db.episodes.lookup (.inserted n) = none) :
    Commits (rules monitor) i n (recordMonitorEvaluation monitor observation now n) [] id db fun r held own db =>
      ∀ a, r = .ok a → held = [] ∧ own = id ∧ db.state.isSome = true := by
  rw [recordMonitorEvaluation]
  refine commits_transaction (commits_insertState.bind fun _ held₁ own₁ db₁ h => ?_)
  obtain ⟨h₁, rfl⟩ := h
  refine Commits.lockRow_bind fun db₂ h₂ => Commits.see_bind fun db₃ h₃ => ?_
  have hstate : Row.state ∈ Row.state :: held₁ := List.mem_cons_self
  have hrely : Rely n [] db db₃ :=
    h₁.trans (Rely.trans (Rely.mono (List.nil_subset _) h₂) (Rely.mono (List.nil_subset _) h₃))
  have htouch : ∀ {state : Option DeviceState} {t : Table EpisodeId Episode}, Sane state t →
      Sane (state.map fun row => { row with lastEvaluatedAt := some now, lastState := observation }) t :=
    fun h => h.setState fun _ _ hid => hid
  cases observation with
  | unknown =>
    exact commits_quiet ⟨fun _ => rfl, fun _ => rfl, fun _ => rfl⟩ hstate rfl (fun h => h) (fun h => by cases h) (fun _ => rfl) (fun _ => rfl)
      (fun _ _ => htouch) fun _ _ => Or.inl rfl
  | ok =>
    dsimp only
    cases hcurrent : (db₃.ensureState.state.getD {}).currentEpisodeId with
    | some id =>
      refine (commits_endCurrent id now).bind fun _ held₄ own₄ db₄ h => ?_
      obtain ⟨-, hsub, ids, hids, hown⟩ := h
      exact commits_recovered (hsub hstate) hids hown rfl rfl
    | none =>
      have hown : Prepared (endEach now .recovered []) Database.ensureState := ⟨fun _ => rfl, fun _ => rfl, fun _ => rfl⟩
      exact commits_recovered hstate (fun _ h => by cases h) hown rfl rfl
  | breach =>
    dsimp only
    cases hcurrent : (db₃.ensureState.state.getD {}).currentEpisodeId with
    | some id =>
      refine commits_quiet ⟨fun _ => rfl, fun _ => rfl, fun _ => rfl⟩ hstate rfl (fun h => ?_) (fun _ => rfl) (fun _ => rfl) (fun _ => rfl)
        (fun _ _ => htouch) fun _ _ => Or.inl rfl
      exact absurd (hcurrent.symm.trans h) (Option.some_ne_none id)
    | none =>
      exact commits_openOrAdopt hstate (hrely.sane hdb) (hrely.own hfresh) hcurrent

lemma commits_sweep (input : SweepInput) (hdb : db.Sane) (hfresh : db.episodes.lookup (.inserted n) = none) :
    Commits (rules monitor) i n (sweep monitor input n) [] id db fun _ _ _ _ => True := by
  rw [sweep]
  refine (commits_evaluate _ _ hdb hfresh).bind fun r held₁ own₁ db₁ h => ?_
  cases r with
  | error e => trivial
  | ok a =>
    obtain ⟨rfl, rfl, hrow⟩ := h a rfl
    obtain ⟨result, latch⟩ := a
    dsimp only
    split_ifs
    · exact commits_fire _ _ _ hrow
    · trivial

end Evaluations

lemma commits_program (call : Call) (hdb : db.Sane) (hfresh : db.episodes.lookup (.inserted n) = none) :
    Commits (rules monitor) call n (call.program monitor n) [] id db fun _ _ _ _ => True := by
  cases call with
  | sweep input => exact commits_sweep input hdb hfresh
  | reset now visible => exact commits_reset now visible
  | detach now => exact commits_detach now hdb

section Runs

variable {I : Database → Prop}

lemma kept_step (hI : ∀ n held db db', Change monitor n held db db' → I db → I db') (hsane : ∀ db, I db → db.Sane)
    {c : Config Database Row Call} (hc : Kept (rules monitor) (fun _ _ => True) I Fresh c) (m : Move Call Empty) :
    Kept (rules monitor) (fun _ _ => True) I Fresh (Config.step (system monitor) c m) := by
  refine hc.step (sound hI) m (fun i _ => ⟨?_, fun _ _ _ _ => ⟨trivial, trivial⟩⟩) (fun e => e.elim) fun _ _ _ _ _ _ => trivial
  exact commits_program i (hsane _ hc.state) (hc.fresh _ (le_refl _))

lemma invariant_run (hI : ∀ n held db db', Change monitor n held db db' → I db → I db') (hsane : ∀ db, I db → db.Sane)
    {db : Database} (hdb : I db) (hfresh : ∀ n, db.episodes.lookup (.inserted n) = none) (moves : List (Move Call Empty)) :
    I (Config.run (system monitor) { state := db } moves).state := by
  suffices h : Kept (rules monitor) (fun _ _ => True) I Fresh (Config.run (system monitor) { state := db } moves) from h.state
  refine List.foldlRecOn moves _ ?_ fun c hc m _ => kept_step hI hsane hc m
  exact ⟨hdb, fun _ _ h => (by cases h), fun _ _ _ _ _ h => (by cases h), fun _ _ _ _ _ h => (by cases h), fun n _ => hfresh n⟩

end Runs

end Breeze.Monitors
