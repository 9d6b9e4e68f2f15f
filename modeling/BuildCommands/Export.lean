import BuildCommands.Console.Log
import BuildCommands.Database
import BuildCommands.FileTree.Directories
import BuildCommands.Json.Writer
import BuildCommands.Text.Surrogate

/-!
# Writing the databases

Compile records and link records are two JSON documents.  Both are always written, the compile
document first; records that there are none of make an empty array.  A document with a surrogate in
it cannot be encoded, which shows only when its file is open, and so empty.
-/

namespace BuildCommands

/-! ## Documents -/

def CompileRecord.toJson (record : CompileRecord) : Json :=
  .object [("command", .text record.command), ("file", .text record.file),
    ("directory", .text record.directory)]

def LinkRecord.toJson (record : LinkRecord) : Json :=
  .object [("directory", .text record.directory), ("command", .text record.command),
    ("files", .array (record.files.map .text))]

/-- The document of the compile records. -/
def compileDocument (records : List CompileRecord) : String :=
  (Json.array (records.map CompileRecord.toJson)).render ++ "\n"

/-- The document of the link records. -/
def linkDocument (records : List LinkRecord) : String :=
  (Json.array (records.map LinkRecord.toJson)).render ++ "\n"

/-! ## Files -/

/-- Where the documents go. -/
structure OutputPlace where
  directory : String
  compileName : String
  linkName : String
  deriving DecidableEq, Repr

def OutputPlace.usual : OutputPlace := ⟨".", "compile_commands.json", "link_commands.json"⟩

/-- The path of the named file in the output directory. -/
def OutputPlace.pathOf (place : OutputPlace) (name : String) : String :=
  String.ofList (Path.Posix.join place.directory.toList name.toList)

def OutputPlace.compilePath (place : OutputPlace) : String := place.pathOf place.compileName

def OutputPlace.linkPath (place : OutputPlace) : String := place.pathOf place.linkName

/-- Why the documents could not be written. -/
inductive OutputFailure where
  | directory (path : String) (failure : FileFailure)
  | file (path : String) (failure : FileFailure)
  | unencodable (run : SurrogateRun)
  deriving DecidableEq, Repr

def OutputFailure.message : OutputFailure → String
  | .directory path failure => s!"Cannot create output directory '{path}': " ++ failure.message
  | .file path failure => s!"Failed to create {path}: " ++ failure.message
  | .unencodable run => run.message

/-- What writing leads to: the files afterwards, the notes, and the failure that ended it. -/
structure Written where
  tree : FileTree
  log : List LogEntry
  failure? : Option OutputFailure

def writeDocument (tree : FileTree) (directory : Location) (path document : String) : Written :=
  match tree.writeFile directory path document.toUTF8 with
  | .ok tree => ⟨tree, [⟨.info, "Wrote " ++ path⟩], none⟩
  | .error fault =>
    let failure : FileFailure := ⟨fault, path⟩
    ⟨tree, [⟨.error, s!"Failed to write {path}: " ++ failure.message⟩], some (.file path failure)⟩

/-- Writes a document that may hold surrogates. -/
def Surrogates.writeDocument (surrogates : Surrogates) (tree : FileTree) (directory : Location)
    (path document : String) : Written :=
  match surrogates.firstRun? document with
  | none => BuildCommands.writeDocument tree directory path document
  | some run =>
    let opened := BuildCommands.writeDocument tree directory path ""
    match opened.failure? with
    | some _ => opened
    | none => ⟨opened.tree, [], some (.unencodable run)⟩

/-- Does the next thing with the files, unless something failed before. -/
def Written.andThen (written : Written) (next : FileTree → Written) : Written :=
  match written.failure? with
  | some _ => written
  | none =>
    let more := next written.tree
    ⟨more.tree, written.log ++ more.log, more.failure?⟩

/-- Makes the output directory that the path names. -/
def prepareOutput (tree : FileTree) (directory : Location) (path : String) : Written :=
  let (tree, failure?) := tree.makeDirectories directory path
  ⟨tree, [], failure?.map (.directory path)⟩

/-- Saves both documents of a database in the given way. -/
def Database.saveWith (save : FileTree → Location → String → String → Written) (db : Database)
    (place : OutputPlace) (tree : FileTree) (directory : Location) : Written :=
  ((prepareOutput tree directory place.directory).andThen fun tree =>
    save tree directory place.compilePath (compileDocument db.compiles.toList)).andThen
    fun tree => save tree directory place.linkPath (linkDocument db.links.toList)

/-- Writes both documents of a database. -/
def Database.write (db : Database) (place : OutputPlace) (tree : FileTree) (directory : Location) :
    Written :=
  db.saveWith writeDocument place tree directory

/-- Writes both documents of a database whose texts may hold surrogates. -/
def Surrogates.write (surrogates : Surrogates) (db : Database) (place : OutputPlace)
    (tree : FileTree) (directory : Location) : Written :=
  db.saveWith surrogates.writeDocument place tree directory

end BuildCommands
