import BuildCommands.Session

/-!
# Builds on several threads

Events may be handled by a pool of threads.  A thread that is done with an event goes on to the next
one, so as many events as there are threads are under way, the first ones that are not finished.
Adding the records of an event is one step, and so is counting it; between the steps of one event
those of others may be taken.

A schedule tells which of the events under way goes on, by how many steps are left.
-/

namespace BuildCommands

/-! ## Steps -/

/-- What a thread does at once. -/
inductive SessionStep where
  /-- It takes up an event, unless the build is finished. -/
  | begin
  | note (entry : LogEntry)
  | record (event : BuildEvent)
  | count (event : BuildEvent)
  deriving DecidableEq, Repr

/-- The steps that handle an event. -/
def BuildEvent.steps (base : String) (event : BuildEvent) : List SessionStep :=
  .begin :: ((event.outcome base).notes event).map .note ++ [.record event, .count event]

/-- Takes a step. -/
def Session.take (session : Session) : SessionStep → Except SessionFault Session
  | .begin =>
    match session.database? with
    | none => .error (.finished {})
    | some _ => .ok session
  | .note entry => .ok { session with log := session.log.push entry }
  | .record event =>
    match session.database? with
    | none => .error (.finished {})
    | some db =>
      match db.record (event.outcome session.base) with
      | .error fault => .error (.unnamed fault)
      | .ok db => .ok { session with database? := some db }
  | .count event =>
    .ok { session with statistics := session.statistics.count (event.outcome session.base) }

/-! ## Schedules -/

/-- Puts the items of several queues in one row, each queue in its order.  The next item comes from
one of the first queues that are not empty, as many as the window is wide; `left` is the number of
items that are left. -/
def interleave {α : Type} (window : Nat) (schedule : Nat → Nat) : Nat → List (List α) → List α
  | 0, _ => []
  | left + 1, queues =>
    let waiting := queues.filter (!·.isEmpty)
    let k := schedule left % min window waiting.length
    match waiting[k]? with
    | some (item :: queue) => item :: interleave window schedule left (waiting.set k queue)
    | _ => []

/-- Records events on so many threads. -/
def Session.processOn (session : Session) (threads : Nat) (schedule : Nat → Nat)
    (events : List BuildEvent) : Except SessionFault Session :=
  if threads ≤ 1 then session.process events
  else
    let queues := events.map (·.steps session.base)
    (interleave threads schedule queues.flatten.length queues).foldlM Session.take session

end BuildCommands
