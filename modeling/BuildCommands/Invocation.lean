import BuildCommands.CommandLine.Canonical
import BuildCommands.CommandLine.Executable
import BuildCommands.Invocation.FileRole
import BuildCommands.Invocation.Redirect

/-!
# Tool invocations

`Invocation.parse` reads one command line: it cuts off the executable, cuts the rest into tokens,
settles the kind of run, picks the files and builds the canonical command.

    splitExecutable → tokenize → recordedAs → classify → files
-/

namespace BuildCommands

/-- One tool run, ready to be recorded. -/
structure Invocation where
  /-- The kind the run is recorded as. -/
  kind : ToolKind
  /-- The executable as written. -/
  executable : String
  /-- The tokens as written. -/
  tokens : List String
  /-- The canonical command. -/
  command : String
  /-- The directory of the project that ran the tool. -/
  directory : String
  /-- The sources of a compiler, the inputs of a linker. -/
  files : List String
  deriving DecidableEq, Repr

namespace Invocation

/-- The run of a tool of the given kind with the given executable and argument text. -/
def ofSplit (base : String) (kind : ToolKind) (directory : String) (split : CommandLine.Split) :
    Invocation :=
  let tokens := Argument.tokenize split.rest
  let kind := kind.recordedAs tokens
  { kind
    executable := split.path
    tokens
    command := CommandLine.canonical base split.path tokens
    directory
    files := (classify .compiler kind tokens).files kind }

/-- Reads the command line of a tool of the given kind, as run for a project directory.  A
relative executable path is seen from the base directory. -/
def parse (base : String) (kind : ToolKind) (directory commandLine : String) :
    Except CommandLine.Malformed Invocation :=
  (CommandLine.splitExecutable commandLine).map (ofSplit base kind directory)

/-- What is worth a remark about a run, in the order in which it is found: a quote that stays open
in the argument text, a source option without a file, and the outcome. -/
def remarks (commandLine : String) (invocation : Invocation) : List String :=
  let openToken := match CommandLine.splitExecutable commandLine with
    | .ok split => Argument.unterminated? split.rest
    | .error _ => none
  let dangling := (visits .compiler invocation.kind invocation.tokens).filterMap Visit.dangling?
  (openToken.toList.map
      ("Unterminated quote in argument text, keeping trailing token: " ++ ·)) ++
    (dangling.map fun name => s!"Option /{name} without a file at end of command line") ++
    [s!"{invocation.kind.name} invocation of {invocation.executable}: " ++
      s!"{invocation.tokens.length} tokens, files=" ++ Text.quotedList invocation.files]

end Invocation

end BuildCommands
