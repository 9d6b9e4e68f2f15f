/-!
# Path components

Both kinds of path are sequences of components between separators.  `reduce` drops the empty
components and `.`, and lets `..` take back the component before it.  Under a root a `..` that has
nothing to take back is dropped, elsewhere it stays.
-/

namespace BuildCommands.Path

/-! ## Definitions -/

/-- The pieces between the characters that satisfy `isSeparator`, empty ones included. -/
def splitAt (isSeparator : Char → Bool) : List Char → List (List Char)
  | [] => [[]]
  | c :: rest =>
    if isSeparator c then [] :: splitAt isSeparator rest
    else
      match splitAt isSeparator rest with
      | [] => [[c]]
      | piece :: pieces => (c :: piece) :: pieces

/-- The component that names the directory itself. -/
def here : List Char := ['.']

/-- The component that names the directory above. -/
def above : List Char := ['.', '.']

/-- One more component behind those kept so far, the last of which comes first. -/
def pushComponent (rooted : Bool) (kept : List (List Char)) (component : List Char) :
    List (List Char) :=
  if component = [] ∨ component = here then kept
  else if component = above then
    match kept with
    | [] => if rooted then [] else [above]
    | last :: rest => if last = above then above :: kept else rest
  else component :: kept

/-- The components that are left of a path. -/
def reduce (rooted : Bool) (components : List (List Char)) : List (List Char) :=
  (components.foldl (pushComponent rooted) []).reverse

/-- The components with one separator between each two. -/
def joinWith (separator : Char) (components : List (List Char)) : List Char :=
  [separator].intercalate components

end BuildCommands.Path
