import Breeze.Lib.Table

/-! The journal of network diagnostics (`networkdiagnostic/journal.go`): one file that is replaced whole, and the copy that the
open journal works on. A call answers from the copy, or replaces the file and then the copy. Times are nanoseconds. -/

namespace Breeze.NetworkDiagnostic

open Lib

abbrev Time := ℤ

def second : Time := 1000000000

def day : Time := 24 * 60 * 60 * second

structure StepKey where
  commandId : String
  runId : String
  attemptId : String
  stepId : String
  deriving DecidableEq

def StepKey.string (k : StepKey) : String := k.runId ++ ":" ++ k.attemptId ++ ":" ++ k.stepId

structure StepResult where
  id : String
  state : String
  reason : Option String := none
  quality : String
  finishedAt : Option Time := none
  deriving DecidableEq

structure Command where
  commandId : String
  runId : String
  attemptId : String
  planDigest : String
  expiresAt : Time

structure JournalCommand where
  cancelled : Bool := false
  runId : String
  attemptId : String
  digest : String := ""
  expiresAt : Time

structure JournalEntry where
  intent : Option StepResult
  key : StepKey
  result : Option StepResult := none

structure JournalData where
  commands : Table String JournalCommand := ∅
  entries : Table String JournalEntry := ∅
  lastClock : Time := 0

inductive JournalError where
  | full | cancelled | conflict | expired
  deriving DecidableEq

/-- What a call comes to: an answer, or a new journal to commit and the answer once that is written. -/
inductive Attempt (α : Type) where
  | answer (r : Except JournalError α)
  | commit (next : JournalData) (a : α)

def Attempt.map {α β : Type} (f : α → β) : Attempt α → Attempt β
  | .answer r => .answer (r.map f)
  | .commit next a => .commit next (f a)

def JournalData.size (data : JournalData) : ℕ := data.commands.entries.length + data.entries.entries.length

def JournalCommand.over (now : Time) (command : JournalCommand) : Bool := command.expiresAt + day ≤ now

def JournalData.cleanup (data : JournalData) (now : Time) : JournalData :=
  if now < data.lastClock then data
  else
    { commands := data.commands.filterRows fun _ command => !command.over now
      entries := data.entries.filterRows fun _ entry => !((data.commands.lookup entry.key.commandId).any (·.over now))
      lastClock := now }

def JournalData.accept (data : JournalData) (now : Time) (command : Command) : Attempt Bool :=
  match data.commands.lookup command.commandId with
  | some old =>
    if old.cancelled ∧ old.runId = command.runId ∧ old.attemptId = command.attemptId then .answer (.error .cancelled)
    else if old.runId ≠ command.runId ∨ old.attemptId ≠ command.attemptId ∨ old.digest ≠ command.planDigest ∨
        old.expiresAt ≠ command.expiresAt then .answer (.error .conflict)
    else .answer (.ok false)
  | none =>
    let next := data.cleanup now
    if next.commands.any fun _ old => old.runId = command.runId ∧ old.attemptId = command.attemptId then
      .answer (.error .conflict)
    else if 10000 ≤ next.size then .answer (.error .full)
    else
      .commit
        { next with
          commands := next.commands.insert command.commandId
            { runId := command.runId, attemptId := command.attemptId, digest := command.planDigest, expiresAt := command.expiresAt } }
        true

-- the clock is read twice, for the deadline and for the cleanup
def JournalData.startStep (data : JournalData) (now₁ now₂ : Time) (key : StepKey) (initial : Option StepResult) : Attempt Bool :=
  match data.entries.lookup key.string with
  | some _ => .answer (.ok false)
  | none =>
    match data.commands.lookup key.commandId with
    | none => .answer (.error .conflict)
    | some command =>
      if command.runId ≠ key.runId ∨ command.attemptId ≠ key.attemptId then .answer (.error .conflict)
      else if command.cancelled then .answer (.error .cancelled)
      else if command.expiresAt ≤ now₁ then .answer (.error .expired)
      else
        let next := data.cleanup now₂
        if 10000 ≤ next.size then .answer (.error .full)
        else .commit { next with entries := next.entries.insert key.string { intent := initial, key := key } } true

def JournalData.finishStep (data : JournalData) (key : StepKey) (result : StepResult) : Attempt Unit :=
  match data.entries.lookup key.string with
  | none => .answer (.error .conflict)
  | some entry =>
    if result.id ≠ key.stepId then .answer (.error .conflict)
    else if entry.result.isSome then .answer (.ok ())
    else .commit { data with entries := data.entries.insert key.string { entry with result := some result } } ()

def indeterminate (now : Time) (entry : JournalEntry) : StepResult :=
  match entry.intent with
  | some intent => { intent with state := "execution_error", reason := some "outcome_indeterminate", finishedAt := some now }
  | none =>
    { id := entry.key.stepId, state := "execution_error", reason := some "outcome_indeterminate", quality := "unknown",
      finishedAt := some now }

def JournalEntry.recovered (now : Time) (entry : JournalEntry) : JournalEntry :=
  if entry.result.isSome then entry else { entry with result := some (indeterminate now entry) }

def JournalData.recover (data : JournalData) (now : Time) : Attempt (List StepResult) :=
  let pending := data.entries.entries.filter fun e => e.2.result.isNone
  if pending.isEmpty then .answer (.ok [])
  else .commit { data with entries := data.entries.mapRows (·.recovered now) } (pending.map fun e => indeterminate now e.2)

def JournalData.cancel (data : JournalData) (now₁ now₂ : Time) (commandId runId attemptId : String) : Attempt Unit :=
  let next := data.cleanup now₁
  match next.commands.lookup commandId with
  | some command =>
    if command.runId ≠ runId ∨ command.attemptId ≠ attemptId then .answer (.error .conflict)
    else .commit { next with commands := next.commands.insert commandId { command with cancelled := true } } ()
  | none =>
    if 10000 ≤ next.size then .answer (.error .full)
    else
      .commit
        { next with
          commands := next.commands.insert commandId
            { cancelled := true, runId := runId, attemptId := attemptId, expiresAt := now₂ + 120 * second } }
        ()

section System

inductive Call where
  | accept (now : Time) (command : Command)
  | startStep (now₁ now₂ : Time) (key : StepKey) (initial : Option StepResult)
  | finishStep (key : StepKey) (result : StepResult)
  | recover (now : Time)
  | cancel (now₁ now₂ : Time) (commandId runId attemptId : String)

inductive Event where
  | started (key : StepKey)
  | cancelled (commandId runId attemptId : String)
  deriving DecidableEq

/-- What the caller is told that matters here: `StartStep` returned true, `Cancel` returned nil. -/
def Call.attempt (data : JournalData) : Call → Attempt (List Event)
  | .accept now command => (data.accept now command).map fun _ => []
  | .startStep now₁ now₂ key initial => (data.startStep now₁ now₂ key initial).map fun started => if started then [.started key] else []
  | .finishStep key result => (data.finishStep key result).map fun _ => []
  | .recover now => (data.recover now).map fun _ => []
  | .cancel now₁ now₂ commandId runId attemptId =>
    (data.cancel now₁ now₂ commandId runId attemptId).map fun _ => [.cancelled commandId runId attemptId]

/-- How a write of the file ends: it fails before or after the file was replaced, or succeeds. -/
inductive Write where
  | done
  | failed (replaced : Bool)

structure System where
  file : Option JournalData := none
  -- the copy of the open journal
  journal : Option JournalData := none
  log : List Event := []

inductive Step where
  | open_ (now : Time) (readable : Bool) (write : Write)
  | close
  | call (c : Call) (write : Write)
  -- the process dies in the call, before or after the file was replaced
  | crash (c : Call) (replaced : Bool)

def commit (sys : System) (write : Write) (next : JournalData) (events : List Event) : System :=
  match write with
  | .done => { file := some next, journal := some next, log := sys.log ++ events }
  | .failed replaced => { sys with file := if replaced then some next else sys.file }

def perform (sys : System) (write : Write) : Attempt (List Event) → System
  | .answer (.ok events) => { sys with log := sys.log ++ events }
  | .answer (.error _) => sys
  | .commit next events => commit sys write next events

def consistent (data : JournalData) : Bool :=
  data.size ≤ 10000 ∧ data.entries.entries.all fun e =>
    e.1 = e.2.key.string ∧ (data.commands.lookup e.2.key.commandId).any fun command =>
      command.runId = e.2.key.runId ∧ command.attemptId = e.2.key.attemptId

def openJournal (sys : System) (now : Time) (readable : Bool) (write : Write) : System :=
  match sys.journal, sys.file with
  -- the lock is taken
  | some _, _ => sys
  | none, none => { sys with journal := some {} }
  | none, some data =>
    if !readable || !consistent data then sys
    else
      match data.recover now with
      | .answer _ => { sys with journal := some data }
      | .commit next _ => commit sys write next []

def step (sys : System) : Step → System
  | .open_ now readable write => openJournal sys now readable write
  | .close => { sys with journal := none }
  | .call c write =>
    match sys.journal with
    | none => sys
    | some data => perform sys write (c.attempt data)
  | .crash c replaced =>
    match sys.journal with
    | none => sys
    | some data =>
      match c.attempt data with
      | .answer _ => { sys with journal := none }
      | .commit next _ => { sys with file := if replaced then some next else sys.file, journal := none }

def run (sys : System) (steps : List Step) : System := steps.foldl step sys

end System

end Breeze.NetworkDiagnostic
