/-!
# The database

Records are appended and never change.  One compiler run adds one record for each of its files, all
at once or none; one link run adds one record.  Since a database is a value, a snapshot of it is the
database itself.
-/

namespace BuildCommands

/-! ## Records -/

structure CompileRecord where
  command : String
  directory : String
  file : String
  deriving DecidableEq, Repr, Inhabited

structure LinkRecord where
  command : String
  directory : String
  files : List String
  deriving DecidableEq, Repr, Inhabited

/-- The records of a build in the order in which they were added. -/
structure Database where
  compiles : Array CompileRecord
  links : Array LinkRecord
  deriving DecidableEq, Repr

/-- A compile record needs a file name. -/
structure EmptyFileName where
  deriving DecidableEq, Repr

def EmptyFileName.message (_ : EmptyFileName) : String :=
  "Compile records require a non-empty file name"

namespace Database

/-! ## Operations -/

def empty : Database := ⟨#[], #[]⟩

def size (db : Database) : Nat := db.compiles.size + db.links.size

/-- The records of one compiler run. -/
def compileBlock (command directory : String) (files : List String) : List CompileRecord :=
  files.map (⟨command, directory, ·⟩)

/-- Adds one record for each file, or none if a file has no name. -/
def addCompile (db : Database) (command directory : String) (files : List String) :
    Except EmptyFileName Database :=
  if files.contains "" then .error {}
  else .ok { db with compiles := db.compiles ++ compileBlock command directory files }

def addLink (db : Database) (record : LinkRecord) : Database :=
  { db with links := db.links.push record }

end Database

end BuildCommands
