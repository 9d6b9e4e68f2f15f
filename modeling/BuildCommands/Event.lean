import BuildCommands.FileTree
import BuildCommands.Json.Reader
import BuildCommands.Path.Windows

/-!
# Build events

A build reports each tool run as an event: the task, its command line and the project file.  An
event is read from a JSON object with three text fields; other fields do not matter.
-/

namespace BuildCommands

/-! ## Events -/

structure BuildEvent where
  task : String
  commandLine : String
  projectFile : String
  deriving DecidableEq, Repr, Inhabited

/-- The directory that holds the project file. -/
def BuildEvent.directory (event : BuildEvent) : String :=
  String.ofList (Path.Windows.directory event.projectFile.toList)

/-! ## Faults -/

/-- Why no event could be read. -/
inductive EventFault where
  /-- The value is no object; its type is named. -/
  | notObject (type : String)
  /-- The field is missing or no text. -/
  | badField (name : String)
  /-- The text is not JSON. -/
  | notJson (fault : Json.Fault)
  /-- The file cannot be opened. -/
  | unreadable (path : String) (failure : FileFailure)
  deriving DecidableEq, Repr

/-- A fault and the number of its line, zero where no line is known. -/
structure EventFailure where
  fault : EventFault
  line : Int
  deriving DecidableEq, Repr

def EventFault.describe : EventFault → String
  | .notObject type => "expected a JSON object, got " ++ type
  | .badField name => s!"missing or non-string field '{name}'"
  | .notJson fault => "invalid JSON: " ++ fault.message
  | .unreadable path failure => s!"Cannot read events file '{path}': " ++ failure.message

/-- The wording of a failure, its line in front where it is known. -/
def EventFailure.message (failure : EventFailure) : String :=
  if failure.line = 0 then failure.fault.describe
  else s!"line {failure.line}: " ++ failure.fault.describe

/-! ## Reading -/

/-- The name of a value's type in messages. -/
def Json.typeName : Json → String
  | .null => "NoneType"
  | .bool _ => "bool"
  | .integer _ => "int"
  | .real _ => "float"
  | .text _ => "str"
  | .array _ => "list"
  | .object _ => "dict"

/-- The text field with the given name. -/
def textField (fields : List (String × Json)) (name : String) : Except EventFault String :=
  match (Json.field? fields name).bind Json.text? with
  | some text => .ok text
  | none => .error (.badField name)

/-- The event that an object describes. -/
def BuildEvent.ofFields (fields : List (String × Json)) : Except EventFault BuildEvent := do
  let task ← textField fields "taskName"
  let commandLine ← textField fields "commandLineText"
  let projectFile ← textField fields "projectFilePath"
  return ⟨task, commandLine, projectFile⟩

/-- The event that a value on the given line describes. -/
def BuildEvent.ofJson (line : Int) (value : Json) : Except EventFailure BuildEvent :=
  (match value with
    | .object fields => BuildEvent.ofFields fields
    | other => .error (.notObject other.typeName)).mapError (⟨·, line⟩)

/-- The object that describes an event. -/
def BuildEvent.toJson (event : BuildEvent) : Json :=
  .object [("taskName", .text event.task), ("commandLineText", .text event.commandLine),
    ("projectFilePath", .text event.projectFile)]

end BuildCommands
