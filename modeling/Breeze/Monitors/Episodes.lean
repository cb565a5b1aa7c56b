import Breeze.Lib.Table
import Breeze.Lib.Transactions

/-! Breach episodes and the recurrence latch of one monitor on one device: the pair's row of monitor_device_state, its rows of
monitor_episodes, and the calls on them as transactions. Times are milliseconds. -/

namespace Breeze.Monitors

open Lib Lib.Transactions

abbrev Time := ℤ

/-- In the place of a random uuid, the number of the call that inserts the row; other rows were there before. -/
inductive EpisodeId where
  | earlier (k : ℕ)
  | inserted (n : ℕ)
  deriving DecidableEq

abbrev AlertId := ℕ

inductive Observation where
  | breach | ok | unknown
  deriving DecidableEq

inductive EndReason where
  | recovered | monitorDetached
  deriving DecidableEq

structure Episode where
  startedAt : Time
  endedAt : Option Time := none
  endReason : Option EndReason := none

structure DeviceState where
  currentEpisodeId : Option EpisodeId := none
  episodesInWindow : ℕ := 0
  windowStartedAt : Option Time := none
  escalatedAt : Option Time := none
  escalationAlertId : Option AlertId := none
  responsesPaused : Bool := false
  resetAt : Option Time := none
  lastEvaluatedAt : Option Time := none
  lastState : Observation := .unknown

structure Monitor where
  recurrenceThreshold : Option ℤ
  recurrenceWindowHours : Option ℤ
  pauseResponsesOnEscalation : Bool

structure RecordEvaluationResult where
  episodeId : Option EpisodeId
  episodeOpened : Bool := false
  episodeClosed : Bool := false
  episodesInWindow : ℕ
  latched : Bool := false
  needsEscalationAlert : Bool := false
  responsesPaused : Bool

structure Evaluation where
  observation : Observation
  now : Time
  state : DeviceState
  episodes : Table EpisodeId Episode
  result : RecordEvaluationResult

inductive Event where
  | evaluated (e : Evaluation)
  -- the requires-human alert exists, or its id is on the row; for the latch of this number
  | raised (latch : Option ℕ)
  | stamped (latch : Option ℕ)
  | reset

structure Database where
  state : Option DeviceState := none
  episodes : Table EpisodeId Episode := ∅
  -- not a column: what was committed, the newest first
  log : List Event := []

inductive Row where
  | state
  | episode (id : EpisodeId)
  deriving DecidableEq

abbrev Step := Proc Database Row

section Latches

def Event.latches : Event → Bool
  | .evaluated e => e.result.latched
  | _ => false

def inForce : List Event → Option ℕ
  | [] => none
  | .evaluated e :: past => if e.result.latched then some (past.countP Event.latches) else inForce past
  | .reset :: _ => none
  | .raised _ :: past => inForce past
  | .stamped _ :: past => inForce past

end Latches

section Statements

def Database.setState (db : Database) (set : DeviceState → DeviceState) : Database := { db with state := db.state.map set }

def Database.setEpisode (db : Database) (id : EpisodeId) (set : Episode → Episode) : Database :=
  { db with episodes := db.episodes.modify id set }

def Database.record (db : Database) (e : Event) : Database := { db with log := e :: db.log }

def Episode.finish (now : Time) (reason : EndReason) (e : Episode) : Episode := { e with endedAt := some now, endReason := some reason }

def Database.isOpen (db : Database) (id : EpisodeId) : Bool := (db.episodes.lookup id).any (·.endedAt.isNone)

def Database.openEpisodes (db : Database) : List EpisodeId := db.episodes.keysWhere fun _ e => e.endedAt.isNone

def Database.ensureState (db : Database) : Database := { db with state := some (db.state.getD {}) }

/-- INSERT … ON CONFLICT DO NOTHING: a row that another call is inserting is waited for. -/
def insertState : Step Unit := do
  let db ← Proc.see
  if db.state.isNone then Proc.lockRow .state
  Proc.put Database.ensureState

def updateState (test : DeviceState → Bool) (set : DeviceState → DeviceState) : Step Bool := do
  let rows ← Proc.update (fun db => if db.state.any test then [.state] else []) (fun _ _ db => db.state.any test)
    (fun _ db => db.setState set)
  return !rows.isEmpty

/-- INSERT … ON CONFLICT DO NOTHING against the one-open-episode index. The caller holds the state row: an open episode that a
detach is closing meanwhile stays open, as that detach waits for the state row. -/
def insertEpisode (now : Time) (n : ℕ) : Step (Option EpisodeId) := do
  let db ← Proc.see
  if db.openEpisodes.isEmpty then
    Proc.put fun db => { db with episodes := db.episodes.insert (.inserted n) { startedAt := now } }
    return some (.inserted n)
  else return none

/-- UPDATE … WHERE ended_at IS NULL of the episodes that pass; those that were closed. -/
def endEpisodes (test : EpisodeId → Bool) (now : Time) (reason : EndReason) : Step (List Row) :=
  Proc.update (fun db => (db.episodes.keysWhere fun id e => test id && e.endedAt.isNone).map Row.episode)
    (fun _ row db => match row with
      | .episode id => db.isOpen id
      | .state => false)
    (fun row db => match row with
      | .episode id => db.setEpisode id (·.finish now reason)
      | .state => db)

def transaction {α : Type} (p : Step (Except String α)) : Step (Except String α) := do
  match ← p with
  | .ok a => .commit (.done (.ok a))
  | .error e => .done (.error e)

end Statements

section Evaluations

structure SweepInput where
  observation : Observation
  now : Time
  -- whether the alert could be raised, and its id be written
  raises : Bool
  stamps : Bool

def cutoff (now : Time) (windowHours : ℤ) (resetAt : Option Time) : Time :=
  let windowStart := now - windowHours * 60 * 60 * 1000
  match resetAt with
  | some at_ => if windowStart < at_ then at_ else windowStart
  | none => windowStart

def startedSince (episodes : Table EpisodeId Episode) (since : Time) : List Time :=
  (episodes.entries.map fun e => e.2.startedAt).filter (since ≤ ·)

def oldest (times : List Time) : Option Time :=
  times.foldl (fun oldest started => if oldest.all (started < ·) then some started else oldest) none

structure Window where
  episodesInWindow : ℕ := 0
  windowStartedAt : Option Time := none
  reached : Bool := false

def recurrence (monitor : Monitor) (now : Time) (resetAt : Option Time) (episodes : Table EpisodeId Episode) : Window :=
  match monitor.recurrenceThreshold, monitor.recurrenceWindowHours with
  | some threshold, some windowHours =>
    if windowHours = 0 then {}
    else
      let rows := startedSince episodes (cutoff now windowHours resetAt)
      { episodesInWindow := rows.length, windowStartedAt := oldest rows, reached := threshold ≤ rows.length }
  | _, _ => {}

def DeviceState.needsEscalationAlert (current : DeviceState) : Bool := current.escalatedAt.isSome && current.escalationAlertId.isNone

def concludeEvaluation (observation : Observation) (now : Time) (result : RecordEvaluationResult) (set : DeviceState → DeviceState) :
    Step (Except String (RecordEvaluationResult × Option ℕ)) := do
  Proc.put fun db => db.record (.evaluated
    { observation := observation, now := now, state := db.state.getD {}, episodes := db.episodes, result := result })
  let _ ← updateState (fun _ => true) set
  let db ← Proc.see
  return .ok (result, inForce db.log)

def DeviceState.enter (now : Time) (episodeId : EpisodeId) (window : Window) (latched responsesPaused : Bool) (row : DeviceState) :
    DeviceState :=
  { row with
    currentEpisodeId := some episodeId, episodesInWindow := window.episodesInWindow, windowStartedAt := window.windowStartedAt,
    lastEvaluatedAt := some now, lastState := .breach,
    escalatedAt := if latched then some now else row.escalatedAt,
    responsesPaused := if latched then responsesPaused else row.responsesPaused }

def countAndLatch (monitor : Monitor) (now : Time) (current : DeviceState) (episodeId : EpisodeId) (episodeOpened : Bool) :
    Step (Except String (RecordEvaluationResult × Option ℕ)) := do
  let db ← Proc.see
  let window := recurrence monitor now current.resetAt db.episodes
  let latched := current.escalatedAt.isNone && window.reached
  let responsesPaused := if latched then monitor.pauseResponsesOnEscalation else current.responsesPaused
  concludeEvaluation .breach now
    { episodeId := some episodeId, episodeOpened := episodeOpened, episodesInWindow := window.episodesInWindow, latched := latched,
      needsEscalationAlert := current.needsEscalationAlert, responsesPaused := responsesPaused }
    (·.enter now episodeId window latched responsesPaused)

def openOrAdopt (monitor : Monitor) (now : Time) (n : ℕ) (current : DeviceState) :
    Step (Except String (RecordEvaluationResult × Option ℕ)) := do
  match ← insertEpisode now n with
  | some inserted => countAndLatch monitor now current inserted true
  | none => do
    let db ← Proc.see
    match db.openEpisodes.head? with
    | none => return .error "Admitted breach has no open episode"
    | some existing => countAndLatch monitor now current existing false

def recordMonitorEvaluation (monitor : Monitor) (observation : Observation) (now : Time) (n : ℕ) :
    Step (Except String (RecordEvaluationResult × Option ℕ)) :=
  transaction do
    insertState
    Proc.lockRow .state
    let db ← Proc.see
    let current := db.state.getD {}
    let touch (row : DeviceState) : DeviceState := { row with lastEvaluatedAt := some now, lastState := observation }
    match observation with
    | .unknown =>
      concludeEvaluation .unknown now
        { episodeId := current.currentEpisodeId, episodesInWindow := current.episodesInWindow,
          responsesPaused := current.responsesPaused } touch
    | .ok => do
      match current.currentEpisodeId with
      | some id => let _ ← endEpisodes (· = id) now .recovered
      | none => pure ()
      concludeEvaluation .ok now
        { episodeId := none, episodeClosed := current.currentEpisodeId.isSome, episodesInWindow := current.episodesInWindow,
          responsesPaused := current.responsesPaused }
        fun row => { touch row with currentEpisodeId := none }
    | .breach =>
      match current.currentEpisodeId with
      | some id =>
        concludeEvaluation .breach now
          { episodeId := some id, episodesInWindow := current.episodesInWindow,
            needsEscalationAlert := current.needsEscalationAlert, responsesPaused := current.responsesPaused } touch
      | none => openOrAdopt monitor now n current

def fireEscalationLatch (raises stamps : Bool) (latch : Option ℕ) (n : ℕ) : Step Unit := do
  if raises then
    let _ ← Proc.perform fun db => db.record (.raised latch)
    if stamps then
      Proc.phase do
        let _ ← updateState (fun _ => true) fun row => { row with escalationAlertId := some n }
        Proc.put fun db => db.record (.stamped latch)

def sweep (monitor : Monitor) (input : SweepInput) (n : ℕ) : Step Unit := do
  match ← recordMonitorEvaluation monitor input.observation input.now n with
  | .error _ => return ()
  | .ok (result, latch) =>
    if (result.latched || result.needsEscalationAlert) && result.episodeId.isSome then
      fireEscalationLatch input.raises input.stamps latch n

end Evaluations

def resetMonitorEscalation (now : Time) (visible : Bool) : Step Unit :=
  Proc.phase do
    let reset ← updateState (fun row => visible && row.escalatedAt.isSome) fun row =>
      { row with
        escalatedAt := none, escalationAlertId := none, responsesPaused := false, episodesInWindow := 0, windowStartedAt := none,
        resetAt := some now }
    if reset then Proc.put fun db => db.record .reset

def detachMonitorFromDevice (now : Time) : Step Unit :=
  Proc.phase do
    let closed ← endEpisodes (fun _ => true) now .monitorDetached
    if closed.isEmpty then return ()
    else
      let _ ← updateState (fun _ => true) fun row => { row with currentEpisodeId := none }

inductive Call where
  | sweep (input : SweepInput)
  | reset (now : Time) (visible : Bool)
  | detach (now : Time)

def Call.program (monitor : Monitor) : Call → ℕ → Step Unit
  | .sweep input, n => Monitors.sweep monitor input n
  | .reset now visible, _ => resetMonitorEscalation now visible
  | .detach now, _ => detachMonitorFromDevice now

def system (monitor : Monitor) : System Database Row Call Empty where
  program := Call.program monitor
  nature := Empty.elim

end Breeze.Monitors
