import BuildCommands.Arguments.Settings
import BuildCommands.Event.Log
import BuildCommands.Package.Requirement
import BuildCommands.Session.Threads

/-!
# The program

A run is a function of its arguments and of the world it starts in.  It has four parts: `prepare`
checks what the run needs, `build` reads the events and records them, `deliver` writes the documents,
and `conclude` says what was done.  Only `conclude` and the rendering of messages look at what the
run is to show, so the files do not depend on it.
-/

namespace BuildCommands

/-! ## Worlds and results -/

/-- What a run finds when it starts. -/
structure World where
  tree : FileTree
  /-- The working directory in the tree. -/
  directory : Location
  /-- The path of the working directory, as the system reports it. -/
  workingPath : String
  input : ByteArray
  /-- The output is a terminal. -/
  terminal : Bool
  /-- How many columns texts are laid out for. -/
  columns : Nat
  /-- How many prints the output takes, unless it takes all. -/
  prints? : Option Nat
  packages : Package.Installed
  palette : Palette
  limits : Json.Limits
  /-- Which event goes on, where several are under way. -/
  schedule : Nat → Nat

/-- What a run leaves behind. -/
structure Run where
  exitCode : Nat
  messages : List Message
  tree : FileTree
  /-- The colours that the messages are shown in, if they are. -/
  palette? : Option Palette
  /-- All notes are shown. -/
  verbose : Bool

/-- What the run writes to a channel. -/
def Run.transcript (run : Run) (channel : Channel) : String :=
  BuildCommands.transcript run.palette? run.verbose channel run.messages

/-! ## Failures -/

/-- A setting that is void where the run needs it. -/
inductive VoidSetting where
  | jobs
  | outputDirectory
  | documentName
  deriving DecidableEq, Repr

def VoidSetting.message : VoidSetting → String
  | .jobs => "'<' not supported between instances of 'list' and 'int'"
  | .outputDirectory => "expected str, bytes or os.PathLike object, not list"
  | .documentName => "join() argument must be str, bytes, or os.PathLike object, not 'list'"

/-- Why a run fails. -/
inductive RunFailure where
  | package (complaint : Message)
  | noEvents (path : String)
  /-- Fewer than one event would be handled at a time. -/
  | badJobs (jobs : Int)
  | void (setting : VoidSetting)
  | events (failure : EventFailure)
  | undecodable (fault : Text.Utf8Fault)
  | exceeded (excess : Json.Excess)
  /-- The events cannot be recorded. -/
  | session (fault : SessionFault)
  | output (failure : OutputFailure)
  /-- Nobody reads what is printed. -/
  | brokenPipe

/-- The exit code of a failed run: one for bad input, two for all else. -/
def RunFailure.exitCode : RunFailure → Nat
  | .noEvents _ | .badJobs _ | .events _ => 1
  | .package _ | .void _ | .undecodable _ | .exceeded _ | .session _ | .output _ | .brokenPipe => 2

/-- The message of a failure that nothing was prepared for. -/
def fatal (text : String) : Message := .line .error [.text ("Fatal error: " ++ text)]

def RunFailure.message : RunFailure → Message
  | .package complaint => complaint
  | .noEvents path => .failure true ("Events file not found: " ++ path)
  | .badJobs jobs => .failure true s!"--jobs must be at least 1, got {jobs}"
  | .void setting => fatal setting.message
  | .events failure => .failure true failure.message
  | .undecodable fault => fatal fault.message
  | .exceeded excess => fatal excess.message
  | .session (.finished state) => .failure true state.message
  | .session (.unnamed fault) => fatal fault.message
  | .output (.unencodable run) => fatal run.message
  | .output failure => .failure true failure.message
  | .brokenPipe => fatal "[Errno 32] Broken pipe"

/-! ## Parts of a run -/

/-- The packages that a run needs, and what for. -/
def neededPackages : List (String × String) :=
  [("colorama", "colored output"), ("packaging", "dependency checks")]

/-- Checks the packages, the events file and the number of jobs. -/
def prepare (world : World) (task : Task) : Except RunFailure Unit := do
  if let some complaint := neededPackages.findSome? fun (package, purpose) =>
      Package.complaint? world.packages package purpose then
    throw (.package complaint)
  if task.events ≠ "-" ∧ world.tree.isFile world.directory task.events = false then
    throw (.noEvents task.events)
  match task.jobs? with
  | none => throw (.void .jobs)
  | some jobs => if jobs < 1 then throw (.badJobs jobs)

/-- What a build came to. -/
structure Build where
  database : Database
  statistics : Statistics
  log : List LogEntry

/-- How many threads handle the events. -/
def Task.threads (task : Task) : Nat := task.jobs?.elim 1 Int.toNat

/-- Records the events of a build that works in the given directory. -/
def Build.ofEvents (base : String) (threads : Nat) (schedule : Nat → Nat)
    (events : List BuildEvent) : Except SessionFault Build := do
  let session ← (Session.start base).processOn threads schedule events
  let (session, database) ← session.finish.mapError .finished
  return ⟨database, session.statistics, session.log.toList⟩

/-- Reads the events that a path names, with stand-ins for surrogates. -/
def World.readWith (world : World) (surrogates : Surrogates) (path : String) :
    Except ReadFailure (List BuildEvent) :=
  readEvents ⟨world.limits, surrogates⟩ world.tree world.directory world.input path

/-- What stands for the surrogates in the events that a path names.  There are none if the events do
not depend on it, and otherwise it is no character of the events or of the working directory's
path. -/
def World.surrogates (world : World) (path : String) : Surrogates :=
  match world.readWith .usual path, world.readWith .spare path with
  | .ok events, .ok others =>
    if events = others then .absent
    else
      .unused (world.workingPath.toList ++ events.flatMap fun event =>
        (event.task ++ event.commandLine ++ event.projectFile).toList)
  | _, _ => .absent

/-- Reads the events that a path names. -/
def World.read (world : World) (path : String) : Except ReadFailure (List BuildEvent) :=
  world.readWith (world.surrogates path) path

/-- The events that a run reads. -/
def World.events (world : World) (path : String) : Except RunFailure (List BuildEvent) :=
  match world.read path with
  | .ok events => .ok events
  | .error (.undecodable fault) => .error (.undecodable fault)
  | .error (.faulty failure) => .error (.events failure)
  | .error (.exceeded excess) => .error (.exceeded excess)

/-- A note as it is shown, which surrogates are not. -/
def Surrogates.shownEntry (surrogates : Surrogates) (entry : LogEntry) : LogEntry :=
  { entry with text := surrogates.shown entry.text }

/-- Reads and records the events, with a note on how many there are. -/
def World.build (world : World) (task : Task) : Except RunFailure Build := do
  prepare world task
  let events ← world.events task.events
  match Build.ofEvents world.workingPath task.threads world.schedule events with
  | .error fault => throw (.session fault)
  | .ok build =>
    let note : LogEntry := ⟨.debug, s!"Read {events.length} events from {task.events}"⟩
    return { build with log := note :: build.log.map (world.surrogates task.events).shownEntry }

/-! ## Documents -/

/-- How the documents of a run were written: the files afterwards, the notes, and where the
documents are or why the run fails. -/
structure Delivery where
  tree : FileTree
  log : List LogEntry
  outcome : Except RunFailure OutputPlace

/-- The delivery that the writing comes to, unless it fails. -/
def Written.deliver (written : Written) (outcome : Except RunFailure OutputPlace) : Delivery :=
  ⟨written.tree, written.log,
    match written.failure? with
    | some failure => .error (.output failure)
    | none => outcome⟩

/-- Writes the documents of a database where they are requested.  The directory is needed first, and
made before a document's name is needed. -/
def World.deliver (world : World) (db : Database) (task : Task) : Delivery :=
  match task.place.place? with
  | some place =>
    ((world.surrogates task.events).write db place world.tree world.directory).deliver (.ok place)
  | none =>
    match task.place.directory? with
    | none => ⟨world.tree, [], .error (.void .outputDirectory)⟩
    | some path =>
      (prepareOutput world.tree world.directory path).deliver (.error (.void .documentName))

/-! ## Conclusion -/

/-- The summary's lines: a heading, the counts and the paths of the documents. -/
def summary (build : Build) (place : OutputPlace) : List Message :=
  let line (content : Painted) : Message := .line .output content
  let count (label : String) (n : Nat) (paint : Paint) : Message :=
    line (countLine label n (some paint))
  let stats := build.statistics
  [line [.text "\n", .paint .bright, .paint .cyan, .text "=== Compilation Database Summary ===",
      .paint .reset],
    count "Events" stats.total .white,
    count "Compile invocations" stats.compiles .green,
    count "Link invocations" stats.links .green,
    count "Ignored events" stats.ignored .dim,
    count "Malformed events" stats.malformed (if stats.malformed = 0 then .white else .red),
    count "Compile records" build.database.compiles.size .magenta,
    count "Link records" build.database.links.size .magenta,
    line [.text "\n  ", .paint .dim, .text place.compilePath, .paint .reset],
    line [.text "  ", .paint .dim, .text place.linkPath, .paint .reset]]

/-- The warning that command lines were skipped, if there were any. -/
def skipWarning (build : Build) : List Message :=
  let skipped := build.statistics.malformed
  if skipped = 0 then []
  else [.warning true s!"Skipped {skipped} malformed invocation(s), see log output"]

/-- What a run prints on what it did. -/
def report (build : Build) (place : OutputPlace) (asSummary : Bool) : List Message :=
  if asSummary then summary build place
  else
    [.success false (s!"Wrote {build.database.compiles.size} compile and " ++
      s!"{build.database.links.size} link records to {place.directory}")]

/-- What the output takes of what is printed. -/
def World.taken {α : Type} (world : World) (prints : List α) : List α :=
  world.prints?.elim prints prints.take

/-- How a run ends when its documents are written: the exit code, and what it says.  A summary may
break off, but that one line is not taken is a failure. -/
def World.conclude (world : World) (build : Build) (place : OutputPlace) (asSummary : Bool) :
    Nat × List Message :=
  let whole := report build place asSummary
  let taken := world.taken whole
  if asSummary || whole.length ≤ taken.length then (0, skipWarning build ++ taken)
  else (RunFailure.brokenPipe.exitCode, skipWarning build ++ [RunFailure.brokenPipe.message])

/-- The exit code, the messages and the files of a run that does the task. -/
def World.perform (world : World) (task : Task) (asSummary : Bool) :
    Nat × List Message × FileTree :=
  match world.build task with
  | .error failure => (failure.exitCode, [failure.message], world.tree)
  | .ok build =>
    let delivery := world.deliver build.database task
    let notes := (build.log ++ delivery.log).map Message.note
    match delivery.outcome with
    | .error failure => (failure.exitCode, notes ++ [failure.message], delivery.tree)
    | .ok place =>
      let (exitCode, said) := world.conclude build place asSummary
      (exitCode, notes ++ said, delivery.tree)

/-! ## Runs -/

/-- A run that only says something, whether that is read or not. -/
def World.say (world : World) (exitCode : Nat) (channel : Channel) (text : String) : Run :=
  let unread := channel = .output ∧ world.prints? = some 0
  ⟨exitCode, if unread then [] else [.text channel [.text text]], world.tree, none, false⟩

/-- The colours of a run: none off a terminal, or where they are not wanted. -/
def World.paletteFor (world : World) (display : Display) : Option Palette :=
  if world.terminal && !display.noColor then some world.palette else none

/-- Runs the program with the arguments. -/
def World.run (world : World) (arguments : List String) : Run :=
  match Request.ofArguments arguments with
  | .help => world.say 0 .output (programManual.help world.columns)
  | .version => world.say 0 .output (programName ++ " " ++ programVersion ++ "\n")
  | .refused fault =>
    world.say 2 .error
      (programManual.usage world.columns ++ programName ++ ": error: " ++ fault.message ++ "\n")
  | .run task display =>
    let (exitCode, messages, tree) := world.perform task display.summary
    ⟨exitCode, messages, tree, world.paletteFor display, display.verbose⟩

end BuildCommands
