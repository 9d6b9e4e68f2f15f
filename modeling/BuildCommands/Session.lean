import BuildCommands.Console.Log
import BuildCommands.Database
import BuildCommands.Event
import BuildCommands.Invocation

/-!
# Build sessions

A session turns the events of one build into records.  What an event comes to is a function of the
event alone, its `Outcome`; the session adds the outcome's records to the database, counts it and
notes it.  When the build is finished the database is handed off, and after that the session accepts
no event.
-/

namespace BuildCommands

/-! ## Outcomes -/

/-- What an event comes to. -/
inductive Outcome where
  /-- The task is neither a compiler's nor a linker's. -/
  | ignored
  /-- The command line names no executable. -/
  | malformed (fault : CommandLine.Malformed)
  /-- The run is recorded. -/
  | recorded (invocation : Invocation)
  deriving DecidableEq, Repr

/-- What the event comes to, executables being seen from the base directory. -/
def BuildEvent.outcome (base : String) (event : BuildEvent) : Outcome :=
  match ToolKind.ofTask event.task with
  | .error _ => .ignored
  | .ok kind =>
    match Invocation.parse base kind event.directory event.commandLine with
    | .error fault => .malformed fault
    | .ok invocation => .recorded invocation

def Outcome.kind? : Outcome → Option ToolKind
  | .recorded invocation => some invocation.kind
  | _ => none

def Outcome.notes (event : BuildEvent) : Outcome → List LogEntry
  | .ignored => [⟨.debug, "Ignoring task " ++ event.task⟩]
  | .malformed fault =>
    [⟨.warning, s!"Skipping {event.task} task of {event.projectFile}: " ++ fault.message⟩]
  | .recorded invocation =>
    (invocation.remarks event.commandLine).map (⟨.debug, ·⟩) ++
      if invocation.kind = .compile ∧ invocation.files = [] then
        [⟨.debug, "No source files in compile invocation: " ++ invocation.command⟩]
      else []

/-! ## Statistics -/

/-- How many events came to what. -/
structure Statistics where
  compiles : Nat
  links : Nat
  ignored : Nat
  malformed : Nat
  deriving DecidableEq, Repr

namespace Statistics

def zero : Statistics := ⟨0, 0, 0, 0⟩

def total (s : Statistics) : Nat := s.compiles + s.links + s.ignored + s.malformed

def count (s : Statistics) : Outcome → Statistics
  | .ignored => { s with ignored := s.ignored + 1 }
  | .malformed _ => { s with malformed := s.malformed + 1 }
  | .recorded invocation =>
    match invocation.kind with
    | .compile => { s with compiles := s.compiles + 1 }
    | .link => { s with links := s.links + 1 }

end Statistics

/-! ## Sessions -/

/-- Adds what an outcome records. -/
def Database.record (db : Database) : Outcome → Except EmptyFileName Database
  | .recorded invocation =>
    match invocation.kind with
    | .compile => db.addCompile invocation.command invocation.directory invocation.files
    | .link => .ok (db.addLink ⟨invocation.command, invocation.directory, invocation.files⟩)
  | _ => .ok db

/-- A build under way or finished. -/
structure Session where
  /-- The directory from which relative executables are seen. -/
  base : String
  /-- The records so far, until they are handed off. -/
  database? : Option Database
  statistics : Statistics
  log : Array LogEntry
  deriving DecidableEq, Repr

/-- The build is finished and its database handed off. -/
structure Finished where
  deriving DecidableEq, Repr

def Finished.message (_ : Finished) : String :=
  "Build already finished, the database was handed off"

/-- Why an event is not handled. -/
inductive SessionFault where
  | finished (state : Finished)
  | unnamed (fault : EmptyFileName)
  deriving DecidableEq, Repr

namespace Session

def start (base : String) : Session := ⟨base, some .empty, .zero, #[]⟩

/-- The records so far. -/
def database (session : Session) : Except Finished Database :=
  match session.database? with
  | some db => .ok db
  | none => .error {}

/-- Records one event, and tells as what kind. -/
def handle (session : Session) (event : BuildEvent) :
    Except SessionFault (Session × Option ToolKind) :=
  match session.database? with
  | none => .error (.finished {})
  | some db =>
    let outcome := event.outcome session.base
    match db.record outcome with
    | .error fault => .error (.unnamed fault)
    | .ok db =>
      .ok ({ session with
        database? := some db
        statistics := session.statistics.count outcome
        log := session.log ++ outcome.notes event }, outcome.kind?)

/-- Records events one after the other. -/
def process (session : Session) : List BuildEvent → Except SessionFault Session
  | [] => .ok session
  | event :: events =>
    match session.handle event with
    | .ok (session, _) => process session events
    | .error fault => .error fault

/-- The note on a build that is finished with these records. -/
def finishNote (db : Database) : LogEntry :=
  ⟨.debug, s!"Build finished: {db.compiles.size} compile records, " ++
    s!"{db.links.size} link records"⟩

/-- Ends the build and hands off its records. -/
def finish (session : Session) : Except Finished (Session × Database) :=
  match session.database? with
  | none => .error {}
  | some db =>
    .ok ({ session with database? := none, log := session.log.push (finishNote db) }, db)

end Session

end BuildCommands
