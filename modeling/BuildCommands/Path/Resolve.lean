import BuildCommands.Path.Posix
import BuildCommands.Path.Windows

/-!
# Absolute paths of executables

An executable is recorded with an absolute path in normal form.  An absolute path of either kind
keeps its kind; any other is joined with a base directory and takes its kind.
-/

namespace BuildCommands.Path

/-- The normal form of a path as seen from a base directory. -/
def resolveFrom (base path : List Char) : List Char :=
  if Windows.isAbsolute path then Windows.normalize path
  else if Posix.isAbsolute path then Posix.normalize path
  else if Windows.isAbsolute base then Windows.normalize (Windows.join base path)
  else Posix.normalize (Posix.join base path)

/-- The absolute path of an executable as seen from a base directory. -/
def resolve (base path : String) : String :=
  String.ofList (resolveFrom base.toList path.toList)

end BuildCommands.Path
