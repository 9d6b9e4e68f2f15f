import BuildCommands.FileTree.Directories
import BuildCommands.Proofs.NormalForm
import Mathlib.Data.List.TakeWhile

/-!
# The names in a path

A path is its parent and its last name: the names of both are those of the path.  The parent has no
slash at its end unless it is nothing else.  A name that is joined to a directory stands behind the
directory's names.

    pieces path = pieces (splitParent path).1 ++ pieces (splitParent path).2   (pieces_splitParent)
    pieces (join directory name) = pieces directory ++ pieces name                    (pieces_join)
-/

namespace BuildCommands.FileTree

/-! ## Definitions -/

/-- The names in a path as characters, without empty ones. -/
def pieces (path : List Char) : List (List Char) :=
  (Path.splitAt (· == '/') path).filter (! ·.isEmpty)

/-- A slash at the end stands behind slashes only. -/
def IsTrimmed (path : List Char) : Prop := path.getLast? = some '/' → pieces path = []

/-- A path consists of its parent and the last name. -/
structure Splits (path : List Char) (parts : List Char × List Char) : Prop where
  front : parts.1 <+: path
  pieces : pieces path = pieces parts.1 ++ FileTree.pieces parts.2
  name : '/' ∉ parts.2
  trimmed : IsTrimmed parts.1

/-! ## Names -/

theorem names_ofList (path : List Char) :
    names (String.ofList path) = (pieces path).map String.ofList := by
  unfold names pieces
  rw [String.toList_ofList]

/-- The names before a slash and behind it. -/
theorem pieces_append_slash (front back : List Char) :
    pieces (front ++ '/' :: back) = pieces front ++ pieces back := by
  unfold pieces
  rw [Path.splitAt_eq_splitOnP, List.splitOnP_append_cons _ _ rfl, List.filter_append,
    ← Path.splitAt_eq_splitOnP, ← Path.splitAt_eq_splitOnP]

theorem pieces_nil : pieces [] = [] := rfl

/-- Slashes at the end make no names. -/
theorem pieces_append_slashes (path : List Char) {slashes : List Char}
    (h : ∀ c ∈ slashes, c = '/') : pieces (path ++ slashes) = pieces path := by
  induction slashes generalizing path with
  | nil => rw [List.append_nil]
  | cons c slashes ih =>
    obtain ⟨rfl, hslashes⟩ := List.forall_mem_cons.mp h
    have hslash : path ++ '/' :: slashes = path ++ ['/'] ++ slashes := by simp
    rw [hslash, ih _ hslashes, pieces_append_slash, pieces_nil, List.append_nil]

/-- A text without slashes is one name, unless it is empty. -/
theorem pieces_of_not_mem {name : List Char} (hne : name ≠ []) (h : '/' ∉ name) :
    pieces name = [name] := by
  unfold pieces
  have hsplit : Path.splitAt (· == '/') (Path.joinWith '/' [name]) = [name] :=
    Path.splitAt_joinWith (by simpa using h) (List.cons_ne_nil _ _)
  have hjoin : Path.joinWith '/' [name] = name := by simp [Path.joinWith]
  rw [hjoin] at hsplit
  rw [hsplit, List.filter_cons_of_pos (by simpa using hne), List.filter_nil]

/-! ## Parents -/

theorem splits_split (path : List Char) : Splits path (Path.Posix.split path) := by
  have hpath : (path.reverse.dropWhile (· != '/')).reverse ++
      (path.reverse.takeWhile (· != '/')).reverse = path := by
    rw [← List.reverse_append, List.takeWhile_append_dropWhile, List.reverse_reverse]
  have hname : '/' ∉ (path.reverse.takeWhile (· != '/')).reverse := by
    intro h
    have := List.mem_takeWhile_imp (List.mem_reverse.mp h)
    simp at this
  have hslash : ∀ c ∈ (path.reverse.dropWhile (· != '/')).head?, c = '/' := by
    intro c hc
    have := List.head?_dropWhile_not (· != '/') path.reverse
    rw [Option.mem_def.mp hc] at this
    simpa using this
  unfold Path.Posix.split
  generalize (path.reverse.takeWhile (· != '/')).reverse = name at hpath hname
  generalize path.reverse.dropWhile (· != '/') = front at hpath hslash
  have hfront : (front.dropWhile (· == '/')).reverse ++ (front.takeWhile (· == '/')).reverse =
      front.reverse := by
    rw [← List.reverse_append, List.takeWhile_append_dropWhile]
  have hslashes : ∀ c ∈ (front.takeWhile (· == '/')).reverse, c = '/' := by
    intro c hc
    simpa using List.mem_takeWhile_imp (List.mem_reverse.mp hc)
  have hpieces : pieces path = pieces front.reverse ++ pieces name := by
    rw [← hpath]
    cases front with
    | nil => rfl
    | cons c front =>
      cases hslash c rfl
      rw [List.reverse_cons, List.append_assoc, List.singleton_append, pieces_append_slash,
        pieces_append_slashes _ (by simp)]
  simp only
  split
  · next hempty =>
    rw [List.isEmpty_iff.mp hempty, List.reverse_nil, List.nil_append] at hfront
    refine ⟨⟨name, hpath⟩, hpieces, hname, fun _ => ?_⟩
    rw [← hfront]
    exact pieces_append_slashes [] hslashes
  · next hempty =>
    rw [← hfront, pieces_append_slashes _ hslashes] at hpieces
    refine ⟨⟨_, by rw [← List.append_assoc, hfront, hpath]⟩, hpieces, hname, fun hlast => ?_⟩
    have hhead := List.head?_dropWhile_not (· == '/') front
    rw [List.getLast?_reverse] at hlast
    rw [hlast] at hhead
    simp at hhead

theorem splits_splitParent (path : List Char) : Splits path (splitParent path) := by
  have hsplit := splits_split path
  have hsplit' := splits_split (Path.Posix.split path).1
  unfold splitParent
  split
  · next hempty =>
    refine ⟨hsplit'.front.trans hsplit.front, ?_, hsplit'.name, hsplit'.trimmed⟩
    rw [hsplit.pieces, hempty, pieces_nil, List.append_nil, hsplit'.pieces]
  · exact hsplit

/-- The names of a path with a last name are those of the parent and this one. -/
theorem names_splitParent {path : List Char} (h : (splitParent path).2 ≠ []) :
    names (String.ofList path) =
      names (String.ofList (splitParent path).1) ++ [String.ofList (splitParent path).2] := by
  have hsplits := splits_splitParent path
  rw [names_ofList, names_ofList, hsplits.pieces, pieces_of_not_mem h hsplits.name, List.map_append]
  rfl

/-- A parent names a path wherever the whole does, and starts where it starts. -/
theorem startOf_front {front path : List Char} (h : front <+: path) (hne : front ≠ [])
    (directory : Location) :
    startOf directory (String.ofList front) = startOf directory (String.ofList path) := by
  obtain ⟨back, rfl⟩ := h
  obtain ⟨c, front, rfl⟩ := List.exists_cons_of_ne_nil hne
  unfold startOf
  rw [String.toList_ofList, String.toList_ofList]
  rfl

theorem requirePath_eq_ok_iff {path : String} :
    requirePath path = .ok () ↔ path ≠ "" ∧ path.utf8ByteSize ≤ maxPathSize := by
  unfold requirePath
  split
  · next hempty => exact ⟨nofun, fun h => absurd hempty h.1⟩
  · next hne =>
    split
    · next hlong => exact ⟨nofun, fun h => absurd hlong (Nat.not_lt.mpr h.2)⟩
    · next hlong => exact ⟨fun _ => ⟨hne, Nat.not_lt.mp hlong⟩, fun _ => rfl⟩

theorem requirePath_front {front path : List Char} (h : front <+: path) (hne : front ≠ [])
    (hpath : requirePath (String.ofList path) = .ok ()) :
    requirePath (String.ofList front) = .ok () := by
  obtain ⟨back, rfl⟩ := h
  obtain ⟨-, hsize⟩ := requirePath_eq_ok_iff.mp hpath
  rw [String.ofList_append, String.utf8ByteSize_append] at hsize
  refine requirePath_eq_ok_iff.mpr ⟨fun hempty => hne ?_, Nat.le_of_add_right_le hsize⟩
  rw [← String.toList_ofList (l := front), hempty]
  rfl

/-! ## Joined paths -/

/-- A relative name that is joined to a directory stands behind the directory's names. -/
theorem pieces_join {directory name : List Char} (h : Path.Posix.isAbsolute name = false) :
    pieces (Path.Posix.join directory name) = pieces directory ++ pieces name := by
  unfold Path.Posix.join
  rw [h]
  simp only [Bool.false_eq_true, if_false]
  split
  · next hdirectory =>
    rcases Bool.or_eq_true_iff.mp hdirectory with hempty | hslash
    · rw [List.isEmpty_iff.mp hempty]
      rfl
    · obtain ⟨front, rfl⟩ := List.getLast?_eq_some_iff.mp (eq_of_beq hslash)
      rw [List.append_assoc, List.singleton_append, pieces_append_slash, pieces_append_slash,
        pieces_nil, List.append_nil]
  · exact pieces_append_slash directory name

theorem directory_front_join (directory : List Char) {name : List Char}
    (h : Path.Posix.isAbsolute name = false) : directory <+: Path.Posix.join directory name := by
  unfold Path.Posix.join
  rw [h]
  simp only [Bool.false_eq_true, if_false]
  split <;> exact List.prefix_append _ _

/-- A relative name without names is empty. -/
theorem eq_nil_of_pieces_eq_nil {name : List Char} (h : Path.Posix.isAbsolute name = false)
    (hpieces : pieces name = []) : name = [] := by
  cases name with
  | nil => rfl
  | cons c name =>
    have hc : (c == '/') = false := by simpa [Path.Posix.isAbsolute] using h
    unfold pieces at hpieces
    rw [Path.splitAt, hc] at hpieces
    simp only [Bool.false_eq_true, if_false] at hpieces
    split at hpieces <;> cases hpieces

/-- A directory with an empty name ends with a slash. -/
theorem getLast?_join_nil {directory : List Char} (h : directory ≠ []) :
    (Path.Posix.join directory []).getLast? = some '/' := by
  have hempty : directory.isEmpty = false := by simpa using h
  show (if directory.isEmpty || directory.getLast? == some '/' then directory ++ []
    else directory ++ '/' :: []).getLast? = some '/'
  rw [hempty, Bool.false_or]
  split
  · next hslash => rw [List.append_nil, eq_of_beq hslash]
  · exact List.getLast?_concat

end BuildCommands.FileTree
