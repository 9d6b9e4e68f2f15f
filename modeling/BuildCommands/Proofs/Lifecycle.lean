import BuildCommands.Proofs.Reordering

/-!
# The life of a session

A session is under way until it is finished.  Under way it takes every call; the call that finishes
it hands off the records so far; and from then on it refuses every call but that for no events, and
nothing about it changes any more.

    under way :  (session.run calls).1 = session.replay (the events of the calls)   (fst_run_live)
    finished  :  session.run calls     = (session, refusals)                        (run_finished)
-/

namespace BuildCommands

namespace Session

/-! ## Definitions -/

/-- A call on a session. -/
inductive Call where
  | handle (event : BuildEvent)
  | process (events : List BuildEvent)
  /-- The records so far are read. -/
  | database
  | finish
  deriving DecidableEq, Repr

/-- What a call answers. -/
inductive Answer where
  | handled (kind? : Option ToolKind)
  | processed (statistics : Statistics)
  | records (db : Database)
  | refused (fault : SessionFault)
  deriving DecidableEq, Repr

/-- Handles events up to the first that is refused: the session then, and the fault. -/
def advance (session : Session) : List BuildEvent → Session × Option SessionFault
  | [] => (session, none)
  | event :: events =>
    match session.handle event with
    | .ok (next, _) => next.advance events
    | .error fault => (session, some fault)

/-- The session after a call, and the answer. -/
def call (session : Session) : Call → Session × Answer
  | .handle event =>
    match session.handle event with
    | .ok (next, kind?) => (next, .handled kind?)
    | .error fault => (session, .refused fault)
  | .process events =>
    match session.advance events with
    | (last, none) => (last, .processed last.statistics)
    | (last, some fault) => (last, .refused fault)
  | .database =>
    match session.database with
    | .ok db => (session, .records db)
    | .error state => (session, .refused (.finished state))
  | .finish =>
    match session.finish with
    | .ok (last, db) => (last, .records db)
    | .error state => (session, .refused (.finished state))

/-- The session after some calls, and each call with its answer. -/
def run (session : Session) : List Call → Session × List (Call × Answer)
  | [] => (session, [])
  | call :: calls =>
    let (next, answer) := session.call call
    let (last, answered) := next.run calls
    (last, (call, answer) :: answered)

/-- The events that a call hands in. -/
def Call.events : Call → List BuildEvent
  | .handle event => [event]
  | .process events => events
  | .database | .finish => []

/-- What a finished session answers: only a call that hands in no events is not refused. -/
def Call.belated (statistics : Statistics) : Call → Answer
  | .process [] => .processed statistics
  | _ => .refused (.finished {})

/-! ## Histories of calls -/

theorem run_cons (session : Session) (c : Call) (calls : List Call) :
    session.run (c :: calls) =
      (((session.call c).1.run calls).1,
        (c, (session.call c).2) :: ((session.call c).1.run calls).2) := rfl

theorem run_append (calls more : List Call) : ∀ session : Session,
    session.run (calls ++ more) =
      (((session.run calls).1.run more).1,
        (session.run calls).2 ++ ((session.run calls).1.run more).2) := by
  induction calls with
  | nil =>
    intro session
    rfl
  | cons c calls ih =>
    intro session
    rw [List.cons_append, run_cons, ih, run_cons, List.cons_append]

/-! ## Sessions under way -/

/-- Handling events one after the other comes to what handling each and stopping at a fault does. -/
theorem process_eq (events : List BuildEvent) : ∀ session : Session,
    session.process events =
      match session.advance events with
      | (last, none) => .ok last
      | (_, some fault) => .error fault := by
  induction events with
  | nil =>
    intro session
    rfl
  | cons event events ih =>
    intro session
    unfold process advance
    cases session.handle event with
    | ok result => exact ih result.1
    | error fault => rfl

section

variable {session : Session}

theorem advance_live (h : session.database?.isSome) (events : List BuildEvent) :
    session.advance events = (session.replay events, none) := by
  have hprocess := process_live events session h
  rw [process_eq] at hprocess
  cases hadvance : session.advance events with
  | mk last fault? =>
    rw [hadvance] at hprocess
    cases fault? with
    | none => rw [Except.ok.inj hprocess]
    | some fault => cases hprocess

theorem call_handle_live (h : session.database?.isSome) (event : BuildEvent) :
    session.call (.handle event) =
      (session.replay [event], .handled (event.outcome session.base).kind?) := by
  rw [call, handle_live h]

theorem fst_call_live (h : session.database?.isSome) {c : Call} (hc : c ≠ .finish) :
    (session.call c).1 = session.replay c.events := by
  cases c with
  | handle event => rw [call_handle_live h, Call.events]
  | process events => rw [call, advance_live h, Call.events]
  | database =>
    obtain ⟨db, hdb⟩ := Option.isSome_iff_exists.mp h
    rw [call, database, hdb, Call.events, replay_nil]
  | finish => exact absurd rfl hc

end

/-- Until it is finished a session comes to what the events of the calls come to. -/
theorem fst_run_live {calls : List Call} (hcalls : .finish ∉ calls) : ∀ session : Session,
    session.database?.isSome →
      (session.run calls).1 = session.replay (calls.flatMap Call.events) := by
  induction calls with
  | nil =>
    intro session _
    rw [List.flatMap_nil, replay_nil]
    rfl
  | cons c calls ih =>
    intro session h
    rw [List.mem_cons, not_or] at hcalls
    have hlive : (session.replay c.events).database?.isSome := by rwa [isSome_replay]
    rw [run_cons, fst_call_live h (Ne.symm hcalls.1), List.flatMap_cons, replay_append]
    exact ih hcalls.2 _ hlive

/-! ## Finished sessions -/

section

variable {session : Session}

/-- The call that finishes a session hands off its records, which leaves a note and no warning. -/
theorem call_finish {db : Database} (h : session.database? = some db) :
    (session.call .finish).2 = .records db ∧ (session.call .finish).1.database? = none ∧
      (session.call .finish).1.statistics = session.statistics ∧
      (session.call .finish).1.warnings = session.warnings := by
  rw [call, finish, h]
  refine ⟨rfl, rfl, rfl, ?_⟩
  unfold warnings
  rw [Array.toList_push, List.filter_append]
  exact List.append_nil _

theorem call_finished (h : session.database? = none) (c : Call) :
    session.call c = (session, c.belated session.statistics) := by
  cases c with
  | handle event =>
    rw [call, handle, h]
    rfl
  | process events =>
    cases events with
    | nil => rfl
    | cons event events =>
      rw [call, advance, handle, h]
      rfl
  | database =>
    rw [call, database, h]
    rfl
  | finish =>
    rw [call, finish, h]
    rfl

/-- A finished session stays as it is, whatever it is called for. -/
theorem run_finished (h : session.database? = none) (calls : List Call) :
    session.run calls = (session, calls.map fun c => (c, c.belated session.statistics)) := by
  induction calls with
  | nil => rfl
  | cons c calls ih => rw [run_cons, call_finished h, ih, List.map_cons]

end

/-- A session is finished once.  The call that does it hands off the records that were there at the
start, with those of the events handled since behind them.  Every later call is refused, unless it
hands in no events, and leaves the session as it is. -/
theorem run_finish {session : Session} {db : Database} (hdb : session.database? = some db)
    {before after : List Call} (hbefore : .finish ∉ before) :
    let events := before.flatMap Call.events
    let earlier := session.run before
    let whole := session.run (before ++ .finish :: after)
    ∃ (handed : Database) (later : List (Call × Answer)),
      earlier.1.database = .ok handed ∧
      handed.compiles.toList =
        db.compiles.toList ++ events.flatMap (·.compileRecords session.base) ∧
      handed.links.toList = db.links.toList ++ events.filterMap (·.linkRecord? session.base) ∧
      whole.2 = earlier.2 ++ (.finish, .records handed) :: later ∧
      later.map Prod.fst = after ∧
      (∀ entry ∈ later, entry.2 =
        if entry.1 = .process [] then .processed earlier.1.statistics
        else .refused (.finished {})) ∧
      whole.1 = (session.run (before ++ [.finish])).1 ∧
      whole.1.statistics = earlier.1.statistics ∧
      whole.1.warnings = earlier.1.warnings := by
  intro events earlier whole
  have hearlier : earlier.1 = session.replay events :=
    fst_run_live hbefore session (hdb ▸ rfl)
  have hhanded : earlier.1.database? = some (db.replay session.base events) := by
    rw [hearlier, replay, hdb]
    rfl
  obtain ⟨hanswer, hclosed, hstatistics, hwarnings⟩ := call_finish hhanded
  have hwhole : whole = ((earlier.1.call .finish).1,
      earlier.2 ++ (.finish, .records (db.replay session.base events)) ::
        after.map fun c => (c, c.belated earlier.1.statistics)) := by
    rw [← hanswer, ← hstatistics]
    show session.run (before ++ .finish :: after) = _
    rw [run_append, run_cons, run_finished hclosed]
  refine ⟨db.replay session.base events,
    after.map fun c => (c, c.belated earlier.1.statistics), ?_, Array.toList_appendList,
    Array.toList_appendList, congrArg Prod.snd hwhole, ?_, ?_, ?_, ?_, ?_⟩
  · rw [database, hhanded]
  · rw [List.map_map]
    exact List.map_id after
  · intro entry hentry
    obtain ⟨c, -, rfl⟩ := List.mem_map.mp hentry
    show c.belated _ = if c = .process [] then _ else _
    split_ifs with h
    · rw [h]
      rfl
    · unfold Call.belated
      split
      · exact absurd rfl h
      · rfl
  · rw [hwhole, run_append]
    rfl
  · rw [hwhole]
    exact hstatistics
  · rw [hwhole]
    exact hwarnings

/-- Two runs and another task, then calls of all sorts behind the end. -/
theorem run_finish_two_runs :
    let session := start "/b"
    let before : List Call := [.handle ⟨"CL", "cl.exe a.c b.c", "x"⟩,
      .process [⟨"Exec", "", "x"⟩, ⟨"Link", "link.exe a.obj", "x"⟩], .database]
    let after : List Call := [.handle ⟨"Exec", "", "x"⟩, .process [⟨"CL", "", "x"⟩], .process [],
      .database, .finish]
    session.database? = some .empty ∧ .finish ∉ before ∧
      ∃ (handed : Database) (later : List (Call × Answer)),
        handed.compiles.toList.map (·.file) = ["a.c", "b.c"] ∧
        handed.links.toList.map (·.files) = [["a.obj"]] ∧
        (session.run (before ++ .finish :: after)).2 =
          (session.run before).2 ++ (.finish, .records handed) :: later ∧
        later.map Prod.fst = after ∧
        ∀ entry ∈ later, entry.2 =
          if entry.1 = .process [] then .processed ⟨1, 1, 1, 0⟩ else .refused (.finished {}) := by
  intro session before after
  have hbefore : Call.finish ∉ before := by decide
  obtain ⟨handed, later, -, hcompiles, hlinks, hanswers, hcalls, hrefused, -⟩ :=
    @run_finish session .empty rfl before after hbefore
  have hstatistics : (session.run before).1.statistics = ⟨1, 1, 1, 0⟩ := by decide +kernel
  rw [hstatistics] at hrefused
  refine ⟨rfl, hbefore, handed, later, ?_, ?_, hanswers, hcalls, hrefused⟩
  · rw [hcompiles]
    decide +kernel
  · rw [hlinks]
    decide +kernel

end Session

end BuildCommands
