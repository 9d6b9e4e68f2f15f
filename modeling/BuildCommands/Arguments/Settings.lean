import BuildCommands.Arguments
import BuildCommands.Arguments.Help
import BuildCommands.Export

/-!
# Settings of a run

The command line names the events file and where the documents go, how many events are handled at a
time, and what is shown.  It may ask for help or the version instead.  An option that was left void
takes its setting away, which is no fault of the command line: the run fails when it comes to need
the setting.
-/

namespace BuildCommands

/-! ## Texts -/

def programName : String := "msbuildCompileDatabase.py"

def programVersion : String := "1.0.0"

/-- What the program does and what its arguments mean. -/
def programManual : Arguments.Manual where
  program := programName
  purpose := "Generate compile_commands.json and link_commands.json from MSBuild tool events."
  operands := [⟨["EVENTS"], none, "Events file (JSON Lines or JSON array), '-' for stdin"⟩]
  options := [⟨["-h", "--help"], none, "show this help message and exit"⟩,
    ⟨["--output-dir", "-o"], some "DIR", "Directory receiving the database files (default: .)"⟩,
    ⟨["--compile-output"], some "NAME",
      "Compile database file name (default: compile_commands.json)"⟩,
    ⟨["--link-output"], some "NAME", "Link database file name (default: link_commands.json)"⟩,
    ⟨["--jobs", "-j"], some "JOBS", "Worker threads replaying events (default: 1)"⟩,
    ⟨["--summary"], none, "Print a summary of the generated databases"⟩,
    ⟨["--no-color"], none, "Disable colored output"⟩,
    ⟨["--verbose", "-v"], none, "Enable verbose logging output"⟩,
    ⟨["--version"], none, "show program's version number and exit"⟩]
  closing := ["Version " ++ programVersion, "", "Examples:",
    "  " ++ programName ++ " build_events.jsonl",
    "  " ++ programName ++ " build_events.jsonl --output-dir out --jobs 8 --summary",
    "  type events.jsonl | " ++ programName ++ " -"]
  keepsLines := true

/-! ## Settings -/

/-- Where the documents are to go, each part unless its option is void. -/
structure RequestedPlace where
  directory? : Option String
  compileName? : Option String
  linkName? : Option String
  deriving DecidableEq, Repr

def RequestedPlace.of (place : OutputPlace) : RequestedPlace :=
  ⟨some place.directory, some place.compileName, some place.linkName⟩

/-- The place, if no part is void. -/
def RequestedPlace.place? : RequestedPlace → Option OutputPlace
  | ⟨some directory, some compileName, some linkName⟩ => some ⟨directory, compileName, linkName⟩
  | _ => none

/-- A place that is requested is found. -/
@[simp] theorem RequestedPlace.place?_of (place : OutputPlace) :
    (RequestedPlace.of place).place? = some place := rfl

/-- What a run works on. -/
structure Task where
  /-- The path of the events file, or a dash. -/
  events : String
  place : RequestedPlace
  /-- How many events are handled at a time, unless the option is void. -/
  jobs? : Option Int
  deriving DecidableEq, Repr

/-- What a run shows. -/
structure Display where
  summary : Bool
  noColor : Bool
  verbose : Bool
  deriving DecidableEq, Repr

/-- What the command line asks for. -/
inductive Request where
  | help
  | version
  | refused (fault : Arguments.Fault)
  | run (task : Task) (display : Display)
  deriving DecidableEq, Repr

inductive Setting where
  | help
  | outputDirectory
  | compileName
  | linkName
  | jobs
  | summary
  | noColor
  | verbose
  | version
  deriving DecidableEq, Repr

/-- The program's options and its operand. -/
def programInterface : Arguments.Interface Setting where
  flags := [⟨["-h", "--help"], false, .help⟩, ⟨["--output-dir", "-o"], true, .outputDirectory⟩,
    ⟨["--compile-output"], true, .compileName⟩, ⟨["--link-output"], true, .linkName⟩,
    ⟨["--jobs", "-j"], true, .jobs⟩, ⟨["--summary"], false, .summary⟩,
    ⟨["--no-color"], false, .noColor⟩, ⟨["--verbose", "-v"], false, .verbose⟩,
    ⟨["--version"], false, .version⟩]
  operand? := some "EVENTS"

/-- The settings before the first argument. -/
def Task.usual : Task := ⟨"", .of .usual, some 1⟩

/-- The settings with the text, or nothing, in place of a part of the place. -/
def Task.setPlace (task : Task) (part : Setting) (text? : Option String) : Task :=
  match part with
  | .outputDirectory => { task with place := { task.place with directory? := text? } }
  | .compileName => { task with place := { task.place with compileName? := text? } }
  | .linkName => { task with place := { task.place with linkName? := text? } }
  | _ => task

def Display.usual : Display := ⟨false, false, false⟩

/-- Settings the run, unless help, the version or a fault comes first. -/
def Request.apply (task : Task) (display : Display) (fault? : Option Arguments.Fault) :
    List (Arguments.Given Setting) → Request
  | [] => fault?.elim (.run task display) .refused
  | .operand text :: rest => apply { task with events := text } display fault? rest
  | .flag .help :: _ => .help
  | .flag .version :: _ => .version
  | .flag .summary :: rest => apply task { display with summary := true } fault? rest
  | .flag .noColor :: rest => apply task { display with noColor := true } fault? rest
  | .flag .verbose :: rest => apply task { display with verbose := true } fault? rest
  | .flag _ :: rest => apply task display fault? rest
  | .value .jobs label text :: rest =>
    match Text.readInteger? text with
    | some jobs => apply { task with jobs? := some jobs } display fault? rest
    | none => .refused (.notInteger label text)
  | .value part _ text :: rest => apply (task.setPlace part (some text)) display fault? rest
  | .void .jobs :: rest => apply { task with jobs? := none } display fault? rest
  | .void part :: rest => apply (task.setPlace part none) display fault? rest

/-- What the arguments ask for. -/
def Request.ofArguments (arguments : List String) : Request :=
  let reading := programInterface.read arguments
  Request.apply .usual .usual reading.fault? reading.given

end BuildCommands
