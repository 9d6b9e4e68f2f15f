import BuildCommands.Path.Resolve

/-!
# Canonical commands

The recorded form of a command: the absolute executable path in double quotes, then the tokens as
written, one space before each.
-/

namespace BuildCommands.CommandLine

/-- The command that runs the executable, as seen from the base directory, with the tokens. -/
def canonical (base path : String) (tokens : List String) : String :=
  " ".intercalate (("\"" ++ Path.resolve base path ++ "\"") :: tokens)

end BuildCommands.CommandLine
