import BuildCommands.FileTree
import Mathlib.Data.List.Basic

/-!
# Writing files

A file is written to a place where no directory stands.  No directory is lost by it, so whatever a
path led to before it still leads to; the written path leads to the place, which holds the content,
and every other place holds what it held.

    tree.writeFile directory path content = .ok tree'  ↔
      tree' = tree.put location (.file content) for the location where `path` may be written
                                                                    (writeFile_eq_ok_iff)
    tree'.locate directory path = .ok location                      (Writable.locate_put)
-/

namespace BuildCommands

/-- A result that two steps come to, the second from what the first came to. -/
theorem bind_eq_ok_iff {ε α β : Type} {x : Except ε α} {f : α → Except ε β} {b : β} :
    x >>= f = .ok b ↔ ∃ a, x = .ok a ∧ f a = .ok b := by
  cases x with
  | error e =>
    constructor
    · intro h
      cases h
    · rintro ⟨a, h, -⟩
      cases h
  | ok a =>
    constructor
    · intro h
      exact ⟨a, rfl, h⟩
    · rintro ⟨a', h, hf⟩
      cases h
      exact hf

/-- A failure of two steps is one of the first, or one of the second from what the first came to. -/
theorem bind_eq_error_iff {ε α β : Type} {x : Except ε α} {f : α → Except ε β} {e : ε} :
    x >>= f = .error e ↔ x = .error e ∨ ∃ a, x = .ok a ∧ f a = .error e := by
  cases x with
  | error reason =>
    constructor
    · intro h
      cases h
      exact Or.inl rfl
    · rintro (h | ⟨a, h, -⟩)
      · cases h
        rfl
      · cases h
  | ok a =>
    show f a = .error e ↔ _
    constructor
    · intro h
      exact Or.inr ⟨a, rfl, h⟩
    · rintro (h | ⟨a', h, hf⟩)
      · cases h
      · cases h
        exact hf

namespace FileTree

/-! ## Definitions -/

/-- A file may be written to the location under the path: the directory above is there, and no
directory stands in its place. -/
structure Writable (tree : FileTree) (directory : Location) (path : String) (location : Location) :
    Prop where
  place : tree.place directory path = .ok (some location)
  unslashed : endsWithSlash path = false
  short : location.getLast?.any isLongName = false
  free : tree.get? location ≠ some .directory

/-- Directories stay, and nothing is removed. -/
structure Grows (tree tree' : FileTree) : Prop where
  directory : ∀ {location}, tree.get? location = some .directory →
    tree'.get? location = some .directory
  there : ∀ {location}, (tree.get? location).isSome → (tree'.get? location).isSome

/-! ## Looking up -/

section

variable {tree : FileTree} {directory location : Location} {path : String} {content : ByteArray}

theorem requireDirectory_eq_ok_iff {last : Location} :
    tree.requireDirectory location = .ok last ↔
      tree.get? location = some .directory ∧ last = location := by
  unfold requireDirectory
  by_cases h : tree.get? location = some .directory
  · rw [if_pos h, Except.ok.injEq, eq_comm]
    exact ⟨fun e => ⟨h, e⟩, And.right⟩
  · rw [if_neg h]
    exact ⟨nofun, fun e => absurd e.1 h⟩

/-- All that a component can lead to. -/
theorem step_eq_ok_iff {name : String} {last : Location} :
    tree.step location name = .ok last ↔
      tree.get? location = some .directory ∧
        ((name = "." ∧ last = location) ∨ (name = ".." ∧ last = location.dropLast) ∨
          (name ≠ "." ∧ name ≠ ".." ∧ isLongName name = false ∧
            (tree.get? (location ++ [name])).isSome ∧ last = location ++ [name])) := by
  unfold step
  rw [bind_eq_ok_iff]
  simp only [requireDirectory_eq_ok_iff]
  constructor
  · rintro ⟨_, ⟨hdirectory, rfl⟩, h⟩
    refine ⟨hdirectory, ?_⟩
    split at h
    · next hhere => exact Or.inl ⟨hhere, (Except.ok.inj h).symm⟩
    · next hhere =>
      split at h
      · next habove => exact Or.inr (Or.inl ⟨habove, (Except.ok.inj h).symm⟩)
      · next habove =>
        split at h
        · cases h
        · next hlong =>
          split at h
          · next hsome =>
            exact Or.inr (Or.inr ⟨hhere, habove, Bool.eq_false_iff.mpr hlong, hsome,
              (Except.ok.inj h).symm⟩)
          · cases h
  · rintro ⟨hdirectory, ⟨rfl, rfl⟩ | ⟨rfl, rfl⟩ | ⟨hhere, habove, hlong, hsome, rfl⟩⟩
    · exact ⟨_, ⟨hdirectory, rfl⟩, rfl⟩
    · exact ⟨_, ⟨hdirectory, rfl⟩, rfl⟩
    · refine ⟨_, ⟨hdirectory, rfl⟩, ?_⟩
      rw [if_neg hhere, if_neg habove, if_neg (Bool.eq_false_iff.mp hlong), if_pos hsome]
      rfl

theorem walk_cons (tree : FileTree) (location : Location) (name : String) (names : List String) :
    tree.walk location (name :: names) =
      tree.step location name >>= fun next => tree.walk next names :=
  List.foldlM_cons

theorem walk_concat (tree : FileTree) (location : Location) (names : List String) (name : String) :
    tree.walk location (names ++ [name]) =
      tree.walk location names >>= fun last => tree.step last name := by
  unfold walk
  simp only [List.foldlM_append, List.foldlM_cons, List.foldlM_nil, bind_pure]

/-- Where a path's last name stands: behind the directory that the names before it lead to. -/
theorem place_eq_some_iff :
    tree.place directory path = .ok (some location) ↔
      requirePath path = .ok () ∧ ∃ parent name,
        tree.walk (startOf directory path) (names path).dropLast = .ok parent ∧
        tree.get? parent = some .directory ∧ (names path).getLast? = some name ∧
        name ≠ "." ∧ name ≠ ".." ∧ location = parent ++ [name] := by
  unfold place
  simp only [bind_eq_ok_iff, requireDirectory_eq_ok_iff]
  constructor
  · rintro ⟨_, hpath, parent, hwalk, _, ⟨hdirectory, rfl⟩, h⟩
    refine ⟨hpath, ?_⟩
    split at h
    · cases h
    · next name hname =>
      have h := Except.ok.inj h
      split at h
      · cases h
      · next hdots =>
        rw [not_or] at hdots
        exact ⟨_, name, hwalk, hdirectory, hname, hdots.1, hdots.2, (Option.some.inj h).symm⟩
  · rintro ⟨hpath, parent, name, hwalk, hdirectory, hname, hhere, habove, rfl⟩
    refine ⟨(), hpath, parent, hwalk, parent, ⟨hdirectory, rfl⟩, ?_⟩
    rw [hname]
    show Except.ok (if name = "." ∨ name = ".." then none else some (parent ++ [name])) = _
    rw [if_neg (not_or.mpr ⟨hhere, habove⟩)]

theorem locate_eq_ok_iff {last : Location} :
    tree.locate directory path = .ok last ↔
      requirePath path = .ok () ∧ tree.walk (startOf directory path) (names path) = .ok last ∧
        (endsWithSlash path = true → tree.get? last = some .directory) := by
  unfold locate
  simp only [bind_eq_ok_iff]
  constructor
  · rintro ⟨_, hpath, found, hwalk, h⟩
    split at h
    · obtain ⟨hdirectory, rfl⟩ := requireDirectory_eq_ok_iff.mp h
      exact ⟨hpath, hwalk, fun _ => hdirectory⟩
    · next hslash =>
      cases h
      exact ⟨hpath, hwalk, fun h => absurd h hslash⟩
  · rintro ⟨hpath, hwalk, hdirectory⟩
    refine ⟨(), hpath, last, hwalk, ?_⟩
    split
    · next hslash => exact requireDirectory_eq_ok_iff.mpr ⟨hdirectory hslash, rfl⟩
    · rfl

theorem readFile_eq_ok_iff :
    tree.readFile directory path = .ok content ↔
      ∃ location, tree.locate directory path = .ok location ∧
        tree.get? location = some (.file content) := by
  unfold readFile
  rw [bind_eq_ok_iff]
  constructor
  · rintro ⟨location, hlocate, h⟩
    refine ⟨location, hlocate, ?_⟩
    split at h
    · next found hfound =>
      cases h
      exact hfound
    · cases h
    · cases h
  · rintro ⟨location, hlocate, hfile⟩
    refine ⟨location, hlocate, ?_⟩
    rw [hfile]
    rfl

/-- A file that can be read is a file. -/
theorem isFile_of_readFile (h : tree.readFile directory path = .ok content) :
    tree.isFile directory path = true := by
  obtain ⟨location, hlocate, hfile⟩ := readFile_eq_ok_iff.mp h
  unfold isFile lookup?
  rw [hlocate]
  simp only
  rw [hfile]

/-- A file is written by putting it where it may be written. -/
theorem writeFile_eq_ok_iff {next : FileTree} :
    tree.writeFile directory path content = .ok next ↔
      ∃ location, tree.Writable directory path location ∧
        next = tree.put location (.file content) := by
  unfold writeFile
  rw [bind_eq_ok_iff]
  constructor
  · rintro ⟨_ | location, hplace, h⟩
    · cases h
    · simp only at h
      split at h
      · cases h
      · next hslash =>
        split at h
        · cases h
        · next hshort =>
          split at h
          · cases h
          · next hfree =>
            exact ⟨location, ⟨hplace, Bool.eq_false_iff.mpr hslash, Bool.eq_false_iff.mpr hshort,
              hfree⟩, (Except.ok.inj h).symm⟩
  · rintro ⟨location, hwritable, rfl⟩
    refine ⟨some location, hwritable.place, ?_⟩
    simp only
    rw [if_neg (Bool.eq_false_iff.mp hwritable.unslashed),
      if_neg (Bool.eq_false_iff.mp hwritable.short), if_neg hwritable.free]
    rfl

end

/-! ## Growing trees -/

section

variable {tree tree' tree'' : FileTree} {directory : Location} {path : String}

theorem Grows.trans (h : Grows tree tree') (h' : Grows tree' tree'') : Grows tree tree'' where
  directory := fun hdirectory => h'.directory (h.directory hdirectory)
  there := fun hsome => h'.there (h.there hsome)

theorem Grows.step (h : Grows tree tree') {start last : Location} {name : String}
    (hstep : tree.step start name = .ok last) : tree'.step start name = .ok last := by
  rw [step_eq_ok_iff] at hstep ⊢
  obtain ⟨hdirectory, hhere | habove | ⟨hhere, habove, hlong, hsome, hlast⟩⟩ := hstep
  · exact ⟨h.directory hdirectory, Or.inl hhere⟩
  · exact ⟨h.directory hdirectory, Or.inr (Or.inl habove)⟩
  · exact ⟨h.directory hdirectory, Or.inr (Or.inr ⟨hhere, habove, hlong, h.there hsome, hlast⟩)⟩

theorem Grows.walk (h : Grows tree tree') (names : List String) : ∀ {start last : Location},
    tree.walk start names = .ok last → tree'.walk start names = .ok last := by
  induction names with
  | nil =>
    intro start last hwalk
    exact hwalk
  | cons name names ih =>
    intro start last hwalk
    rw [walk_cons, bind_eq_ok_iff] at hwalk ⊢
    obtain ⟨next, hstep, hwalk⟩ := hwalk
    exact ⟨next, h.step hstep, ih hwalk⟩

theorem Grows.locate (h : Grows tree tree') {last : Location}
    (hlocate : tree.locate directory path = .ok last) :
    tree'.locate directory path = .ok last := by
  rw [locate_eq_ok_iff] at hlocate ⊢
  obtain ⟨hpath, hwalk, hslash⟩ := hlocate
  exact ⟨hpath, h.walk _ hwalk, fun hs => h.directory (hslash hs)⟩

end

/-! ## A file in a free place -/

section

variable {tree : FileTree} {directory location : Location} {path : String}

/-- No directory is lost or made by putting a file where none stands. -/
theorem get?_put_file_eq_directory_iff (h : tree.get? location ≠ some .directory)
    (content : ByteArray) (other : Location) :
    (tree.put location (.file content)).get? other = some .directory ↔
      tree.get? other = some .directory := by
  by_cases he : other = location
  · subst he
    have hroot : other ≠ [] := by
      rintro rfl
      exact h rfl
    rw [get?_put_self tree _ hroot]
    exact ⟨nofun, fun e => absurd e h⟩
  · rw [get?_put_of_ne tree _ he]

theorem isSome_get?_put (entry : Entry) {other : Location} (h : (tree.get? other).isSome) :
    ((tree.put location entry).get? other).isSome := by
  by_cases he : other = location
  · subst he
    by_cases hroot : other = []
    · rw [hroot]
      rfl
    · rw [get?_put_self tree _ hroot]
      rfl
  · rwa [get?_put_of_ne tree _ he]

theorem grows_put (h : tree.get? location ≠ some .directory) (content : ByteArray) :
    Grows tree (tree.put location (.file content)) where
  directory := (get?_put_file_eq_directory_iff h content _).mpr
  there := isSome_get?_put _

/-- What a path led to it still leads to. -/
theorem locate_put (h : tree.get? location ≠ some .directory) (content : ByteArray)
    {last : Location} (hlocate : tree.locate directory path = .ok last) :
    (tree.put location (.file content)).locate directory path = .ok last :=
  (grows_put h content).locate hlocate

theorem place_put (h : tree.get? location ≠ some .directory) (content : ByteArray)
    {last : Location} (hplace : tree.place directory path = .ok (some last)) :
    (tree.put location (.file content)).place directory path = .ok (some last) := by
  have hgrows := grows_put h content
  rw [place_eq_some_iff] at hplace ⊢
  obtain ⟨hpath, parent, name, hwalk, hdirectory, hname⟩ := hplace
  exact ⟨hpath, parent, name, hgrows.walk _ hwalk, hgrows.directory hdirectory, hname⟩

/-- A path that may be written may still be written. -/
theorem Writable.put (h : tree.get? location ≠ some .directory) (content : ByteArray)
    {last : Location} (hwritable : tree.Writable directory path last) :
    (tree.put location (.file content)).Writable directory path last where
  place := place_put h content hwritable.place
  unslashed := hwritable.unslashed
  short := hwritable.short
  free := by
    rw [ne_eq, get?_put_file_eq_directory_iff h]
    exact hwritable.free

/-- The path that is written leads to the place. -/
theorem Writable.locate_put (hwritable : tree.Writable directory path location)
    (content : ByteArray) :
    (tree.put location (.file content)).locate directory path = .ok location := by
  obtain ⟨hpath, parent, name, hwalk, hdirectory, hname, hhere, habove, rfl⟩ :=
    place_eq_some_iff.mp hwritable.place
  have hshort : isLongName name = false := by simpa using hwritable.short
  have hthere : ((tree.put (parent ++ [name]) (.file content)).get? (parent ++ [name])).isSome := by
    rw [get?_put_self tree _ (by simp)]
    rfl
  rw [locate_eq_ok_iff]
  refine ⟨hpath, ?_, fun hslash => ?_⟩
  · rw [← List.dropLast_append_getLast? name hname, walk_concat, bind_eq_ok_iff]
    refine ⟨parent, (grows_put hwritable.free content).walk _ hwalk, ?_⟩
    rw [step_eq_ok_iff, get?_put_file_eq_directory_iff hwritable.free]
    exact ⟨hdirectory, Or.inr (Or.inr ⟨hhere, habove, hshort, hthere, rfl⟩)⟩
  · rw [hwritable.unslashed] at hslash
    cases hslash

theorem Writable.ne_nil (hwritable : tree.Writable directory path location) : location ≠ [] := by
  obtain ⟨-, parent, name, -, -, -, -, -, rfl⟩ := place_eq_some_iff.mp hwritable.place
  simp

/-- A file is written under the last name of its path. -/
theorem Writable.getLast?_eq (hwritable : tree.Writable directory path location) :
    location.getLast? = (names path).getLast? := by
  obtain ⟨-, parent, name, -, -, hname, -, -, rfl⟩ := place_eq_some_iff.mp hwritable.place
  rw [hname, List.getLast?_concat]

end

end FileTree

end BuildCommands
