import BuildCommands.Package.Version
import BuildCommands.Program

/-!
# The command line

The outer layer of the program: it looks at the files that the arguments name, runs the program on
what it saw, and stores and prints what the run left behind.  It decides nothing.
-/

namespace BuildCommands

/-- The absolute path of a location. -/
def absolutePath (location : Location) : String := "/" ++ "/".intercalate location

/-- Notes what stands at a location below a directory. -/
def observe (tree : FileTree) (location : Location) : IO FileTree := do
  try
    let content ← IO.FS.readBinFile (absolutePath location)
    return tree.put location (.file content)
  catch
    | .inappropriateType .. => return tree.put location .directory
    | _ => return tree

/-- Notes what stands on the way to what a path names. -/
def observePath (directory : Location) (tree : FileTree) (path : String) : IO FileTree := do
  let mut tree := tree
  let mut location := FileTree.startOf directory path
  for name in FileTree.names path do
    if name = ".." then location := location.dropLast
    else if name ≠ "." then
      location := location ++ [name]
      if tree.get? location.dropLast = some .directory then tree ← observe tree location
  return tree

/-- The paths that a request has to do with. -/
def Request.paths : Request → List String
  | .run task _ =>
    (if task.events = "-" then [] else [task.events]) ++
      task.place.directory?.toList ++
      task.place.place?.toList.flatMap fun place => [place.compilePath, place.linkPath]
  | _ => []

/-- Whether a request reads the standard input. -/
def Request.readsInput : Request → Bool
  | .run task _ => task.events = "-"
  | _ => false

/-- Reads a stream up to its end. -/
partial def readAll (stream : IO.FS.Stream) (done : ByteArray) : IO ByteArray := do
  let chunk ← stream.read 65536
  if chunk.isEmpty then return done else readAll stream (done ++ chunk)

/-- How many columns texts are laid out for. -/
def columns : IO Nat := do
  match ((← IO.getEnv "COLUMNS").bind String.toNat?).getD 0 with
  | 0 => return 80
  | columns => return columns

/-- The world that a request finds.  The packages that are needed are part of the program, and so
are their versions, colours and limits; events are handled one after the other. -/
def observeWorld (request : Request) : IO World := do
  let workingPath := toString (← IO.currentDir)
  let directory := FileTree.names workingPath
  let tree ← (workingPath :: request.paths).foldlM (observePath directory) .empty
  let input ← if request.readsInput then readAll (← IO.getStdin) .empty else pure .empty
  return { tree, directory, workingPath, input
           terminal := ← (← IO.getStdout).isTty
           columns := ← columns
           prints? := none
           packages := ⟨Package.requirements, .pep440⟩
           palette := .ansi
           limits := .usual
           schedule := fun _ => 0 }

/-- Stores what has changed, directories before what they hold. -/
def storeChanges (before after : FileTree) : IO Unit := do
  for (location, entry) in after.entries.reverse do
    if before.get? location ≠ some entry then
      match entry with
      | .directory => IO.FS.createDirAll (absolutePath location)
      | .file content => IO.FS.writeBinFile (absolutePath location) content

end BuildCommands

/-- Runs the program on the machine it is started on. -/
def main (arguments : List String) : IO UInt32 := do
  let world ← BuildCommands.observeWorld (BuildCommands.Request.ofArguments arguments)
  let run := world.run arguments
  BuildCommands.storeChanges world.tree run.tree
  (← IO.getStdout).putStr (run.transcript .output)
  (← IO.getStderr).putStr (run.transcript .error)
  return run.exitCode.toUInt32
