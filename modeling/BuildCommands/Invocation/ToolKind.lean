import BuildCommands.Text.Blank
import BuildCommands.Text.LowerCase
import BuildCommands.Text.Quoted

/-!
# Kinds of tools

A build task runs a compiler, or a linker or librarian; every other task is of no concern.
-/

namespace BuildCommands

/-- What a tool run does: it compiles sources, or links or archives objects. -/
inductive ToolKind where
  | compile
  | link
  deriving DecidableEq, Repr

def ToolKind.name : ToolKind → String
  | .compile => "compile"
  | .link => "link"

/-- A task that runs neither a compiler nor a linker. -/
structure UnsupportedTask where
  task : String
  deriving DecidableEq, Repr

def UnsupportedTask.message (u : UnsupportedTask) : String :=
  "Unsupported task name: " ++ Text.quoted u.task

/-- The kind of tool a task runs, whatever the letter case and the white space around its name. -/
def ToolKind.ofTask (task : String) : Except UnsupportedTask ToolKind :=
  let name := Text.lower (Text.trim task)
  if name = "cl" then .ok .compile
  else if name = "link" ∨ name = "lib" then .ok .link
  else .error ⟨task⟩

end BuildCommands
