import BuildCommands.Path.Component

/-!
# POSIX paths

A path is absolute when it starts with a slash.  Exactly two leading slashes are kept by
`normalize`, more of them count as one.
-/

namespace BuildCommands.Path.Posix

/-! ## Definitions -/

/-- A path that starts with a slash does not depend on a directory. -/
def isAbsolute (path : List Char) : Bool := path.head? == some '/'

/-- The slashes that a normalized path starts with. -/
def leadingSlashes (path : List Char) : List Char :=
  match path.takeWhile (· == '/') with
  | [] => []
  | ['/', '/'] => ['/', '/']
  | _ => ['/']

/-- The path without empty components, `.` and every `..` that has something to take back.  The
empty path is the directory itself. -/
def normalize (path : List Char) : List Char :=
  let lead := leadingSlashes path
  let normalized := lead ++ joinWith '/' (reduce (!lead.isEmpty) (splitAt (· == '/') path))
  if normalized.isEmpty then here else normalized

/-- The second path as seen from the first. -/
def join (directory path : List Char) : List Char :=
  if isAbsolute path then path
  else if directory.isEmpty || directory.getLast? == some '/' then directory ++ path
  else directory ++ '/' :: path

/-- The text before the last slash and the name behind it.  Slashes that end the first part are
dropped, unless it has nothing else. -/
def split (path : List Char) : List Char × List Char :=
  let name := (path.reverse.takeWhile (· != '/')).reverse
  let front := path.reverse.dropWhile (· != '/')
  let head := front.dropWhile (· == '/')
  (if head.isEmpty then front.reverse else head.reverse, name)

end BuildCommands.Path.Posix
