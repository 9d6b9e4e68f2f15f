import BuildCommands.Path.Posix
import BuildCommands.Text.Quoted

/-!
# File trees

A file tree holds directories and files by their location, the names from the root down.  Paths are
looked up in it component by component, as POSIX does: every component but the last must be a
directory, `.` stays and `..` goes up.  There are no links, and names and paths have a greatest
length.

Reading, writing and making a directory each say why they refuse.
-/

namespace BuildCommands

/-! ## Trees -/

/-- The names from the root down. -/
abbrev Location := List String

/-- What a location holds. -/
inductive Entry where
  | directory
  | file (content : ByteArray)

-- the comparison of contents is named, since libraries bring others
instance : DecidableEq Entry
  | .directory, .directory => isTrue rfl
  | .directory, .file _ => isFalse nofun
  | .file _, .directory => isFalse nofun
  | .file content, .file other =>
    match ByteArray.instDecidableEq content other with
    | isTrue h => isTrue (congrArg Entry.file h)
    | isFalse h => isFalse fun e => h (Entry.file.inj e)

/-- Directories and files by location.  The root is a directory whether it is listed or not. -/
structure FileTree where
  entries : List (Location × Entry)
  deriving DecidableEq

/-- Why an operation on files is refused. -/
inductive FileFault where
  | missing
  | occupied
  | notDirectory
  | isDirectory
  | nameTooLong
  deriving DecidableEq, Repr

def FileFault.describe : FileFault → String
  | .missing => "[Errno 2] No such file or directory"
  | .occupied => "[Errno 17] File exists"
  | .notDirectory => "[Errno 20] Not a directory"
  | .isDirectory => "[Errno 21] Is a directory"
  | .nameTooLong => "[Errno 36] File name too long"

/-- A refused operation and the path it was asked for. -/
structure FileFailure where
  fault : FileFault
  path : String
  deriving DecidableEq, Repr

def FileFailure.message (failure : FileFailure) : String :=
  failure.fault.describe ++ ": " ++ Text.quoted failure.path

namespace FileTree

def empty : FileTree := ⟨[]⟩

/-- What the location holds. -/
def get? (tree : FileTree) (location : Location) : Option Entry :=
  if location = [] then some .directory
  else (tree.entries.find? (·.1 = location)).map (·.2)

/-- The tree in which the location holds the entry. -/
def put (tree : FileTree) (location : Location) (entry : Entry) : FileTree :=
  ⟨(location, entry) :: tree.entries.filter (·.1 ≠ location)⟩

/-! ## Looking up -/

/-- The names in a path, without empty ones. -/
def names (path : String) : List String :=
  ((Path.splitAt (· == '/') path.toList).filter (! ·.isEmpty)).map String.ofList

def endsWithSlash (path : String) : Bool := path.toList.getLast? == some '/'

def maxNameSize : Nat := 255

def maxPathSize : Nat := 4095

/-- Whether the name is too long to stand in any directory. -/
def isLongName (name : String) : Bool := maxNameSize < name.utf8ByteSize

/-- Refuses a path that names nothing whatever the tree holds: it is empty or too long. -/
def requirePath (path : String) : Except FileFault Unit :=
  if path = "" then .error .missing
  else if maxPathSize < path.utf8ByteSize then .error .nameTooLong
  else .ok ()

/-- Where a path starts, as seen from a directory. -/
def startOf (directory : Location) (path : String) : Location :=
  if Path.Posix.isAbsolute path.toList then [] else directory

/-- The location, if it is a directory. -/
def requireDirectory (tree : FileTree) (location : Location) : Except FileFault Location :=
  if tree.get? location = some .directory then .ok location else .error .notDirectory

/-- One component further. -/
def step (tree : FileTree) (location : Location) (name : String) : Except FileFault Location := do
  let location ← tree.requireDirectory location
  if name = "." then return location
  else if name = ".." then return location.dropLast
  else if isLongName name then throw .nameTooLong
  else if (tree.get? (location ++ [name])).isSome then return location ++ [name]
  else throw .missing

/-- The location behind several components. -/
def walk (tree : FileTree) (location : Location) (names : List String) :
    Except FileFault Location :=
  names.foldlM tree.step location

/-- The location that a path names.  A path that ends with a slash names a directory. -/
def locate (tree : FileTree) (directory : Location) (path : String) :
    Except FileFault Location := do
  requirePath path
  let location ← tree.walk (startOf directory path) (names path)
  if endsWithSlash path then tree.requireDirectory location else return location

def lookup? (tree : FileTree) (directory : Location) (path : String) : Option Entry :=
  match tree.locate directory path with
  | .ok location => tree.get? location
  | .error _ => none

/-- Whether a path names a directory. -/
def isDirectory (tree : FileTree) (directory : Location) (path : String) : Bool :=
  tree.lookup? directory path = some .directory

/-- Whether a path names a file. -/
def isFile (tree : FileTree) (directory : Location) (path : String) : Bool :=
  match tree.lookup? directory path with
  | some (.file _) => true
  | _ => false

/-- Where a path's last name stands or would stand, or none if its last component is a directory
by itself: the root, `.` or `..`. -/
def place (tree : FileTree) (directory : Location) (path : String) :
    Except FileFault (Option Location) := do
  requirePath path
  let parent ← tree.walk (startOf directory path) (names path).dropLast
  let parent ← tree.requireDirectory parent
  match (names path).getLast? with
  | none => return none
  | some name => return if name = "." ∨ name = ".." then none else some (parent ++ [name])

/-! ## Operations -/

/-- The content of the file that a path names. -/
def readFile (tree : FileTree) (directory : Location) (path : String) :
    Except FileFault ByteArray := do
  match tree.get? (← tree.locate directory path) with
  | some (.file content) => return content
  | some .directory => throw .isDirectory
  | none => throw .missing

/-- The tree in which the file that a path names has the content. -/
def writeFile (tree : FileTree) (directory : Location) (path : String) (content : ByteArray) :
    Except FileFault FileTree := do
  match ← tree.place directory path with
  | none => throw .isDirectory
  | some location =>
    if endsWithSlash path then throw .isDirectory
    else if location.getLast?.any isLongName then throw .nameTooLong
    else if tree.get? location = some .directory then throw .isDirectory
    else return tree.put location (.file content)

/-- The tree in which a path names a new directory. -/
def makeDirectory (tree : FileTree) (directory : Location) (path : String) :
    Except FileFault FileTree := do
  match ← tree.place directory path with
  | none => throw .occupied
  | some location =>
    if location.getLast?.any isLongName then throw .nameTooLong
    else if (tree.get? location).isSome then throw .occupied
    else return tree.put location .directory

/-! ## Lemmas -/

/-- A location holds what was put there last. -/
theorem get?_put_self (tree : FileTree) {location : Location} (entry : Entry)
    (h : location ≠ []) : (tree.put location entry).get? location = some entry := by
  simp [get?, put, h]

theorem put_put (tree : FileTree) (location : Location) (entry other : Entry) :
    (tree.put location entry).put location other = tree.put location other := by
  simp [put, List.filter_filter]

/-- Putting an entry at one location leaves every other as it is. -/
theorem get?_put_of_ne (tree : FileTree) {location other : Location} (entry : Entry)
    (h : other ≠ location) : (tree.put location entry).get? other = tree.get? other := by
  by_cases ho : other = []
  · simp [get?, ho]
  · simp only [get?, put, ho, if_false, List.find?_cons]
    rw [decide_eq_false (Ne.symm h), List.find?_filter]
    have same : (fun x : Location × Entry => decide
        (decide (x.1 ≠ location) = true ∧ decide (x.1 = other) = true)) =
        fun x => decide (x.1 = other) := by
      funext x
      by_cases hx : x.1 = other <;> simp [hx, h]
    rw [same]

end FileTree

end BuildCommands
