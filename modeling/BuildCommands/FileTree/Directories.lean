import BuildCommands.FileTree

/-!
# Directories with their parents

`makeDirectories` makes the directory that a path names and every missing directory above it.  A
directory that is there already is left as it is.  What was made before a failure stays.
-/

namespace BuildCommands.FileTree

/-! ## Parents -/

/-- The path of the directory above, and the last name; a slash at the end does not count. -/
def splitParent (path : List Char) : List Char × List Char :=
  if (Path.Posix.split path).2 = [] then Path.Posix.split (Path.Posix.split path).1
  else Path.Posix.split path

theorem length_split_le (path : List Char) :
    (Path.Posix.split path).1.length + (Path.Posix.split path).2.length ≤ path.length := by
  have front := congrArg List.length
    (List.takeWhile_append_dropWhile (p := (· != '/')) (l := path.reverse))
  have head : ((path.reverse.dropWhile (· != '/')).dropWhile (· == '/')).length ≤
      (path.reverse.dropWhile (· != '/')).length := (List.dropWhile_sublist _).length_le
  simp only [List.length_append, List.length_reverse] at front
  simp only [Path.Posix.split]
  split <;> simp only [List.length_reverse] <;> omega

/-- The parent's path is shorter, if there is a name behind it. -/
theorem length_splitParent_lt {path : List Char} (h : (splitParent path).2 ≠ []) :
    (splitParent path).1.length < path.length := by
  have outer := length_split_le path
  have inner := length_split_le (Path.Posix.split path).1
  have named := List.length_pos_iff.2 h
  unfold splitParent at named ⊢
  split
  · next hname => rw [if_pos hname] at named; omega
  · next hname => rw [if_neg hname] at named; omega

/-! ## Making them -/

/-- Makes the directory, unless it is there. -/
def ensureDirectory (tree : FileTree) (directory : Location) (path : String) :
    FileTree × Option FileFailure :=
  match tree.makeDirectory directory path with
  | .ok tree => (tree, none)
  | .error fault =>
    if tree.isDirectory directory path then (tree, none) else (tree, some ⟨fault, path⟩)

/-- Makes the directory and those above it.  That something else is in the place of a parent is
found out when the directory itself is made. -/
def makeDirectoriesAt (tree : FileTree) (directory : Location) (path : List Char) :
    FileTree × Option FileFailure :=
  if _ : (splitParent path).1 ≠ [] ∧ (splitParent path).2 ≠ [] ∧
      (tree.lookup? directory (String.ofList (splitParent path).1)).isNone then
    match makeDirectoriesAt tree directory (splitParent path).1 with
    | (tree, some failure) =>
      if failure.fault ≠ .occupied then (tree, some failure)
      else if (splitParent path).2 = Path.here then (tree, none)
      else tree.ensureDirectory directory (String.ofList path)
    | (tree, none) =>
      if (splitParent path).2 = Path.here then (tree, none)
      else tree.ensureDirectory directory (String.ofList path)
  else tree.ensureDirectory directory (String.ofList path)
termination_by path.length
decreasing_by exact length_splitParent_lt (And.left (And.right ‹_ ∧ _ ∧ _›))

/-- Makes the directory that a path names and those above it. -/
def makeDirectories (tree : FileTree) (directory : Location) (path : String) :
    FileTree × Option FileFailure :=
  tree.makeDirectoriesAt directory path.toList

end BuildCommands.FileTree
