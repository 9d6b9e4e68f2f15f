/-!
# Log entries

What happens during a run is noted at a level.  Warnings and errors are always shown, the rest on
request.
-/

namespace BuildCommands

/-- How much a note matters. -/
inductive Level where
  | debug
  | info
  | warning
  | error
  deriving DecidableEq, Repr

/-- The level's name. -/
def Level.name : Level → String
  | .debug => "DEBUG"
  | .info => "INFO"
  | .warning => "WARNING"
  | .error => "ERROR"

/-- Whether notes of the level are shown without being asked for. -/
def Level.isShown : Level → Bool
  | .warning | .error => true
  | .debug | .info => false

/-- A note. -/
structure LogEntry where
  level : Level
  text : String
  deriving DecidableEq, Repr

/-- The note as a line. -/
def LogEntry.line (entry : LogEntry) : String := entry.level.name ++ ": " ++ entry.text

end BuildCommands
