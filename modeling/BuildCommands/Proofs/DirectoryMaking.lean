import BuildCommands.Proofs.FileWriting
import BuildCommands.Proofs.PathNames

/-!
# Making directories

Making a directory with its parents adds directories where nothing stood and touches nothing else,
whether it fails or not.  Where the directory is there already nothing is done.

Without a failure the directory is there, but for one case: behind a last name `.` a failure of the
parent is dropped if something stands in its place.  Then the parent is held by what is no
directory, and making the directory again fails.

    tree.makeDirectories directory path = (tree', none)  →
      (tree'.makeDirectories directory path = (tree', none)  ↔  `path` is a directory in `tree'`)
                                                                           (makeDirectories_again)
-/

namespace BuildCommands.FileTree

/-! ## Definitions -/

/-- The directory is there, and so are those above it. -/
def Rooted (tree : FileTree) (directory : Location) : Prop :=
  ∀ above, above <+: directory → tree.get? above = some .directory

/-- What stands somewhere stays; where nothing stood a directory may stand. -/
structure AddsDirectories (tree tree' : FileTree) : Prop where
  kept : ∀ {location entry}, tree.get? location = some entry → tree'.get? location = some entry
  added : ∀ {location}, tree.get? location = none →
    tree'.get? location = none ∨ tree'.get? location = some .directory

/-- The directory above is not there, so it is made first. -/
def ParentMissing (tree : FileTree) (directory : Location) (path : List Char) : Prop :=
  (splitParent path).1 ≠ [] ∧ (splitParent path).2 ≠ [] ∧
    (tree.lookup? directory (String.ofList (splitParent path).1)).isNone

/-- The path is no directory and ends in `.` behind something that is there, or behind a path of
this sort. -/
inductive Held (tree : FileTree) (directory : Location) : List Char → Prop
  | found {path : List Char} : (splitParent path).1 ≠ [] → (splitParent path).2 = Path.here →
      tree.isDirectory directory (String.ofList path) = false →
      (tree.lookup? directory (String.ofList (splitParent path).1)).isSome →
      Held tree directory path
  | deeper {path : List Char} : (splitParent path).1 ≠ [] → (splitParent path).2 = Path.here →
      tree.isDirectory directory (String.ofList path) = false →
      Held tree directory (splitParent path).1 → Held tree directory path

/-! ## Trees with more directories -/

section

variable {tree tree' tree'' : FileTree} {directory location : Location} {path : String}

theorem AddsDirectories.refl (tree : FileTree) : AddsDirectories tree tree where
  kept := id
  added := Or.inl

theorem AddsDirectories.trans (h : AddsDirectories tree tree') (h' : AddsDirectories tree' tree'') :
    AddsDirectories tree tree'' where
  kept := fun hentry => h'.kept (h.kept hentry)
  added := fun hnone => (h.added hnone).elim h'.added fun hdirectory => Or.inr (h'.kept hdirectory)

theorem AddsDirectories.put (h : tree.get? location = none) :
    AddsDirectories tree (tree.put location .directory) := by
  have hne : location ≠ [] := by
    rintro rfl
    cases h
  constructor
  · intro other entry hentry
    rwa [get?_put_of_ne]
    rintro rfl
    rw [h] at hentry
    cases hentry
  · intro other hnone
    by_cases heq : other = location
    · rw [heq]
      exact Or.inr (get?_put_self tree _ hne)
    · rw [get?_put_of_ne tree _ heq]
      exact Or.inl hnone

theorem AddsDirectories.grows (h : AddsDirectories tree tree') : Grows tree tree' where
  directory := h.kept
  there := fun hsome => by
    obtain ⟨entry, hentry⟩ := Option.isSome_iff_exists.mp hsome
    rw [h.kept hentry]
    rfl

theorem isSome_lookup?_iff : (tree.lookup? directory path).isSome ↔
    ∃ last, tree.locate directory path = .ok last ∧ (tree.get? last).isSome := by
  unfold lookup?
  cases tree.locate directory path with
  | ok found => exact ⟨fun h => ⟨found, rfl, h⟩, fun ⟨_, heq, h⟩ => Except.ok.inj heq ▸ h⟩
  | error fault => exact ⟨nofun, fun ⟨_, heq, _⟩ => nomatch heq⟩

theorem Grows.isSome_lookup? (h : Grows tree tree') (hsome : (tree.lookup? directory path).isSome) :
    (tree'.lookup? directory path).isSome := by
  obtain ⟨last, hlocate, hlast⟩ := isSome_lookup?_iff.mp hsome
  exact isSome_lookup?_iff.mpr ⟨last, h.locate hlocate, h.there hlast⟩

/-- A path names a directory if its names lead to one; a slash at the end makes no difference. -/
theorem isDirectory_iff : tree.isDirectory directory path = true ↔
    requirePath path = .ok () ∧ ∃ last,
      tree.walk (startOf directory path) (names path) = .ok last ∧
        tree.get? last = some .directory := by
  have hlocate : tree.isDirectory directory path = true ↔
      ∃ last, tree.locate directory path = .ok last ∧ tree.get? last = some .directory := by
    unfold isDirectory lookup?
    rw [decide_eq_true_iff]
    cases tree.locate directory path with
    | ok found => exact ⟨fun h => ⟨found, rfl, h⟩, fun ⟨_, heq, h⟩ => Except.ok.inj heq ▸ h⟩
    | error fault => exact ⟨nofun, fun ⟨_, heq, _⟩ => nomatch heq⟩
  rw [hlocate]
  simp only [locate_eq_ok_iff]
  constructor
  · rintro ⟨last, ⟨hpath, hwalk, -⟩, hdirectory⟩
    exact ⟨hpath, last, hwalk, hdirectory⟩
  · rintro ⟨hpath, last, hwalk, hdirectory⟩
    exact ⟨last, ⟨hpath, hwalk, fun _ => hdirectory⟩, hdirectory⟩

theorem Grows.isDirectory (h : Grows tree tree')
    (hdirectory : tree.isDirectory directory path = true) :
    tree'.isDirectory directory path = true := by
  rw [isDirectory_iff] at hdirectory ⊢
  obtain ⟨hpath, last, hwalk, hlast⟩ := hdirectory
  exact ⟨hpath, last, h.walk _ hwalk, h.directory hlast⟩

theorem isSome_lookup?_of_isDirectory (h : tree.isDirectory directory path = true) :
    (tree.lookup? directory path).isSome := by
  unfold isDirectory at h
  rw [of_decide_eq_true h]
  rfl

end

/-! ## Faults -/

section

variable {tree : FileTree} {directory location : Location} {path : String} {fault : FileFault}

theorem requireDirectory_eq_error (h : tree.requireDirectory location = .error fault) :
    fault = .notDirectory := by
  unfold requireDirectory at h
  split at h
  · cases h
  · exact (Except.error.inj h).symm

/-- Looking up never finds a place occupied. -/
theorem step_error_ne_occupied {name : String} (h : tree.step location name = .error fault) :
    fault ≠ .occupied := by
  unfold step at h
  rcases bind_eq_error_iff.mp h with h | ⟨last, -, h⟩
  · rw [requireDirectory_eq_error h]
    nofun
  · split at h
    · cases h
    · split at h
      · cases h
      · split at h
        · cases h
          nofun
        · split at h <;> cases h
          nofun

theorem walk_error_ne_occupied (names : List String) : ∀ {location : Location},
    tree.walk location names = .error fault → fault ≠ .occupied := by
  induction names with
  | nil => nofun
  | cons name names ih =>
    intro location h
    rw [walk_cons, bind_eq_error_iff] at h
    rcases h with h | ⟨next, -, h⟩
    · exact step_error_ne_occupied h
    · exact ih h

theorem requirePath_error_ne_occupied (h : requirePath path = .error fault) :
    fault ≠ .occupied := by
  unfold requirePath at h
  split at h
  · cases h
    nofun
  · split at h <;> cases h
    nofun

theorem place_error_ne_occupied (h : tree.place directory path = .error fault) :
    fault ≠ .occupied := by
  unfold place at h
  rcases bind_eq_error_iff.mp h with h | ⟨_, -, h⟩
  · exact requirePath_error_ne_occupied h
  · rcases bind_eq_error_iff.mp h with h | ⟨parent, -, h⟩
    · exact walk_error_ne_occupied _ h
    · rcases bind_eq_error_iff.mp h with h | ⟨parent, -, h⟩
      · rw [requireDirectory_eq_error h]
        nofun
      · split at h <;> cases h

/-! ## Directories above -/

/-- What a component leads to stands in directories if what it starts from does. -/
theorem step_above {start last : Location} {name : String}
    (hstart : ∀ above, above <+: start → above ≠ start → tree.get? above = some .directory)
    (hstep : tree.step start name = .ok last) :
    ∀ above, above <+: last → above ≠ last → tree.get? above = some .directory := by
  obtain ⟨hdirectory, ⟨-, rfl⟩ | ⟨-, rfl⟩ | ⟨-, -, -, -, rfl⟩⟩ := step_eq_ok_iff.mp hstep
  · exact hstart
  · intro above hbelow hne
    refine hstart above (hbelow.trans (List.dropLast_prefix start)) ?_
    rintro rfl
    exact hne (hbelow.eq_of_length_le (List.dropLast_prefix above).length_le)
  · intro above hbelow hne
    rcases List.prefix_concat_iff.mp hbelow with heq | hbelow
    · exact absurd heq hne
    · by_cases heq : above = start
      · rw [heq]
        exact hdirectory
      · exact hstart above hbelow heq

theorem walk_above (names : List String) : ∀ {start last : Location},
    (∀ above, above <+: start → above ≠ start → tree.get? above = some .directory) →
      tree.walk start names = .ok last →
        ∀ above, above <+: last → above ≠ last → tree.get? above = some .directory := by
  induction names with
  | nil =>
    intro start last hstart hwalk
    cases hwalk
    exact hstart
  | cons name names ih =>
    intro start last hstart hwalk
    rw [walk_cons, bind_eq_ok_iff] at hwalk
    obtain ⟨next, hstep, hwalk⟩ := hwalk
    exact ih (step_above hstart hstep) hwalk

/-- A path starts from a directory. -/
theorem Rooted.start (h : tree.Rooted directory) (path : String) :
    tree.Rooted (startOf directory path) := by
  unfold startOf
  split
  · intro above hbelow
    rw [List.prefix_nil.mp hbelow]
    rfl
  · exact h

/-- Above what a path leads to there is a directory. -/
theorem Rooted.get?_dropLast (h : tree.Rooted directory) {names : List String} {last : Location}
    (hwalk : tree.walk (startOf directory path) names = .ok last) :
    tree.get? last.dropLast = some .directory := by
  by_cases hlast : last.dropLast = last
  · have hnil : last = [] := by
      have := congrArg List.length hlast
      rw [List.length_dropLast] at this
      exact List.length_eq_zero_iff.mp (by omega)
    rw [hnil]
    rfl
  · exact walk_above names (fun above hbelow _ => h.start path above hbelow) hwalk _
      (List.dropLast_prefix last) hlast

/-- A path whose last component is a directory by itself names a directory. -/
theorem Rooted.isDirectory_of_place (hrooted : tree.Rooted directory)
    (h : tree.place directory path = .ok none) : tree.isDirectory directory path = true := by
  unfold place at h
  simp only [bind_eq_ok_iff, requireDirectory_eq_ok_iff] at h
  obtain ⟨_, hpath, parent, hwalk, _, ⟨hdirectory, rfl⟩, h⟩ := h
  refine isDirectory_iff.mpr ⟨hpath, ?_⟩
  split at h
  · next hnone =>
    rw [List.getLast?_eq_none_iff.mp hnone] at hwalk ⊢
    exact ⟨_, hwalk, hdirectory⟩
  · next name hname =>
    rw [← List.dropLast_append_getLast? name hname, walk_concat]
    simp only [bind_eq_ok_iff, step_eq_ok_iff]
    have hdots : name = "." ∨ name = ".." := by
      by_contra hno
      rw [if_neg hno] at h
      cases h
    rcases hdots with rfl | rfl
    · exact ⟨_, ⟨_, hwalk, hdirectory, Or.inl ⟨rfl, rfl⟩⟩, hdirectory⟩
    · exact ⟨_, ⟨_, hwalk, hdirectory, Or.inr (Or.inl ⟨rfl, rfl⟩)⟩, hrooted.get?_dropLast hwalk⟩

theorem isFile_iff : tree.isFile directory path = true ↔ ∃ last content,
    tree.locate directory path = .ok last ∧ tree.get? last = some (.file content) := by
  unfold isFile lookup?
  cases tree.locate directory path with
  | error fault => exact ⟨nofun, fun ⟨_, _, heq, _⟩ => nomatch heq⟩
  | ok found =>
    simp only
    constructor
    · intro h
      split at h
      · next content hfile => exact ⟨found, content, rfl, hfile⟩
      · cases h
    · rintro ⟨last, content, heq, hfile⟩
      cases heq
      rw [hfile]

/-- A file may be written where a path leads to one. -/
theorem Rooted.writable_of_isFile (hrooted : tree.Rooted directory)
    (h : tree.isFile directory path = true) :
    ∃ location, tree.Writable directory path location := by
  obtain ⟨last, content, hlocate, hfile⟩ := isFile_iff.mp h
  have hfree : tree.get? last ≠ some .directory := by
    rw [hfile]
    nofun
  obtain ⟨hpath, hwalk, hslash⟩ := locate_eq_ok_iff.mp hlocate
  cases hname : (names path).getLast? with
  | none =>
    rw [List.getLast?_eq_none_iff.mp hname] at hwalk
    cases hwalk
    exact absurd (hrooted.start path _ List.prefix_rfl) hfree
  | some name =>
    rw [← List.dropLast_append_getLast? name hname, walk_concat, bind_eq_ok_iff] at hwalk
    obtain ⟨parent, hwalk, hstep⟩ := hwalk
    obtain ⟨hdirectory, ⟨-, rfl⟩ | ⟨-, rfl⟩ | ⟨hhere, habove, hlong, -, rfl⟩⟩ :=
      step_eq_ok_iff.mp hstep
    · exact absurd hdirectory hfree
    · exact absurd (hrooted.get?_dropLast hwalk) hfree
    · have hplace : tree.place directory path = .ok (some (parent ++ [name])) :=
        place_eq_some_iff.mpr ⟨hpath, parent, name, hwalk, hdirectory, hname, hhere, habove, rfl⟩
      have hshort : (parent ++ [name]).getLast?.any isLongName = false := by simpa using hlong
      exact ⟨_, hplace, Bool.eq_false_iff.mpr fun hs => hfree (hslash hs), hshort, hfree⟩

end

/-! ## One directory -/

section

variable {tree next : FileTree} {directory : Location} {path : String} {failure : FileFailure}

theorem makeDirectory_eq_ok_iff : tree.makeDirectory directory path = .ok next ↔
    ∃ location, tree.place directory path = .ok (some location) ∧
      location.getLast?.any isLongName = false ∧ tree.get? location = none ∧
      next = tree.put location .directory := by
  unfold makeDirectory
  rw [bind_eq_ok_iff]
  constructor
  · rintro ⟨_ | location, hplace, h⟩
    · cases h
    · simp only at h
      split at h
      · cases h
      · next hshort =>
        split at h
        · cases h
        · next hfree =>
          exact ⟨location, hplace, Bool.eq_false_iff.mpr hshort,
            Option.not_isSome_iff_eq_none.mp hfree, (Except.ok.inj h).symm⟩
  · rintro ⟨location, hplace, hshort, hfree, rfl⟩
    refine ⟨some location, hplace, ?_⟩
    simp only
    rw [if_neg (Bool.eq_false_iff.mp hshort), if_neg (by rw [hfree]; nofun)]
    rfl

/-- A place is found occupied if it is a directory by itself or something stands there. -/
theorem makeDirectory_eq_occupied (h : tree.makeDirectory directory path = .error .occupied) :
    tree.place directory path = .ok none ∨
      ∃ location, tree.place directory path = .ok (some location) ∧
        location.getLast?.any isLongName = false ∧ (tree.get? location).isSome := by
  unfold makeDirectory at h
  rcases bind_eq_error_iff.mp h with h | ⟨_ | location, hplace, h⟩
  · exact absurd rfl (place_error_ne_occupied h)
  · exact Or.inl hplace
  · simp only at h
    split at h
    · cases h
    · next hshort =>
      split at h
      · next hsome => exact Or.inr ⟨location, hplace, Bool.eq_false_iff.mpr hshort, hsome⟩
      · cases h

/-- What stands in the place of a path's last name is what the path leads to. -/
theorem walk_of_place {location : Location}
    (hplace : tree.place directory path = .ok (some location))
    (hshort : location.getLast?.any isLongName = false) (hsome : (tree.get? location).isSome) :
    tree.walk (startOf directory path) (names path) = .ok location := by
  obtain ⟨-, parent, name, hwalk, hdirectory, hname, hhere, habove, rfl⟩ :=
    place_eq_some_iff.mp hplace
  have hshort : isLongName name = false := by simpa using hshort
  rw [← List.dropLast_append_getLast? name hname, walk_concat, bind_eq_ok_iff]
  exact ⟨parent, hwalk,
    step_eq_ok_iff.mpr ⟨hdirectory, Or.inr (Or.inr ⟨hhere, habove, hshort, hsome, rfl⟩)⟩⟩

/-- A directory that is made is there. -/
theorem isDirectory_of_makeDirectory (h : tree.makeDirectory directory path = .ok next) :
    next.isDirectory directory path = true := by
  obtain ⟨location, hplace, hshort, hfree, rfl⟩ := makeDirectory_eq_ok_iff.mp h
  obtain ⟨hpath, parent, name, hwalk, hdirectory, hname, hhere, habove, rfl⟩ :=
    place_eq_some_iff.mp hplace
  have hadds := AddsDirectories.put hfree
  have hthere : (tree.put (parent ++ [name]) .directory).get? (parent ++ [name]) =
      some .directory := get?_put_self tree _ (by simp)
  have hplace' : (tree.put (parent ++ [name]) .directory).place directory path =
      .ok (some (parent ++ [name])) :=
    place_eq_some_iff.mpr ⟨hpath, parent, name, hadds.grows.walk _ hwalk, hadds.kept hdirectory,
      hname, hhere, habove, rfl⟩
  refine isDirectory_iff.mpr ⟨hpath, _, walk_of_place hplace' hshort ?_, hthere⟩
  rw [hthere]
  rfl

/-- Where a directory is, none is made. -/
theorem ensureDirectory_of_isDirectory (h : tree.isDirectory directory path = true) :
    tree.ensureDirectory directory path = (tree, none) := by
  unfold ensureDirectory
  split
  · next next hmake =>
    obtain ⟨location, hplace, -, hfree, -⟩ := makeDirectory_eq_ok_iff.mp hmake
    obtain ⟨hpath, parent, name, hwalk, hdirectory, hname, hhere, habove, rfl⟩ :=
      place_eq_some_iff.mp hplace
    obtain ⟨-, last, hlast, -⟩ := isDirectory_iff.mp h
    rw [← List.dropLast_append_getLast? name hname, walk_concat, hwalk] at hlast
    obtain ⟨-, ⟨hdot, -⟩ | ⟨hdots, -⟩ | ⟨-, -, -, hsome, -⟩⟩ := step_eq_ok_iff.mp hlast
    · exact absurd hdot hhere
    · exact absurd hdots habove
    · rw [hfree] at hsome
      cases hsome
  · rw [if_pos h]

theorem addsDirectories_ensureDirectory (tree : FileTree) (directory : Location) (path : String) :
    AddsDirectories tree (tree.ensureDirectory directory path).1 := by
  unfold ensureDirectory
  split
  · next next hmake =>
    obtain ⟨location, -, -, hfree, rfl⟩ := makeDirectory_eq_ok_iff.mp hmake
    exact .put hfree
  · split <;> exact .refl tree

theorem isDirectory_of_ensureDirectory
    (h : (tree.ensureDirectory directory path).2 = none) :
    (tree.ensureDirectory directory path).1.isDirectory directory path = true := by
  unfold ensureDirectory at h ⊢
  split
  · next next hmake => exact isDirectory_of_makeDirectory hmake
  · next fault hmake =>
    rw [hmake] at h
    simp only at h
    split
    · next hdirectory => exact hdirectory
    · next hdirectory =>
      rw [if_neg hdirectory] at h
      cases h

/-- A directory that cannot be made leaves the tree as it is. -/
theorem ensureDirectory_eq_some (h : (tree.ensureDirectory directory path).2 = some failure) :
    (tree.ensureDirectory directory path).1 = tree ∧
      tree.makeDirectory directory path = .error failure.fault ∧
      tree.isDirectory directory path = false := by
  unfold ensureDirectory at h ⊢
  split
  · next next hmake =>
    rw [hmake] at h
    cases h
  · next fault hmake =>
    rw [hmake] at h
    simp only at h
    split
    · next hdirectory =>
      rw [if_pos hdirectory] at h
      cases h
    · next hdirectory =>
      rw [if_neg hdirectory] at h
      cases h
      exact ⟨rfl, hmake, Bool.eq_false_iff.mpr hdirectory⟩

/-- What is in the way of a directory is there. -/
theorem isSome_lookup?_of_occupied (hrooted : tree.Rooted directory)
    (htrimmed : IsTrimmed path.toList)
    (h : (tree.ensureDirectory directory path).2 = some failure)
    (hfault : failure.fault = .occupied) :
    ((tree.ensureDirectory directory path).1.lookup? directory path).isSome := by
  obtain ⟨htree, hmake, hdirectory⟩ := ensureDirectory_eq_some h
  rw [hfault] at hmake
  rw [htree]
  rcases makeDirectory_eq_occupied hmake with hplace | ⟨location, hplace, hshort, hsome⟩
  · rw [hrooted.isDirectory_of_place hplace] at hdirectory
    cases hdirectory
  · obtain ⟨hpath, -, name, -, -, hname, -⟩ := place_eq_some_iff.mp hplace
    have hslash : endsWithSlash path = false := by
      refine Bool.eq_false_iff.mpr fun hslash => ?_
      have hnames := names_ofList path.toList
      rw [htrimmed (eq_of_beq hslash), String.ofList_toList] at hnames
      rw [hnames] at hname
      cases hname
    refine isSome_lookup?_iff.mpr ⟨location, locate_eq_ok_iff.mpr
      ⟨hpath, walk_of_place hplace hshort hsome, fun h => ?_⟩, hsome⟩
    rw [hslash] at h
    cases h

end

/-! ## Directories with their parents -/

section

variable {tree : FileTree} {directory : Location}

/-- What is made with the parents: the directory alone, or the parent first; a failure of the parent
counts unless something stands in its place. -/
theorem makeDirectoriesAt_induction {motive : List Char → FileTree × Option FileFailure → Prop}
    (alone : ∀ path, ¬ ParentMissing tree directory path →
      motive path (tree.ensureDirectory directory (String.ofList path)))
    (failed : ∀ path made failure, ParentMissing tree directory path →
      motive (splitParent path).1 (made, some failure) → failure.fault ≠ .occupied →
        motive path (made, some failure))
    (stays : ∀ path made failure?, ParentMissing tree directory path →
      motive (splitParent path).1 (made, failure?) →
        (∀ failure ∈ failure?, failure.fault = .occupied) → (splitParent path).2 = Path.here →
          motive path (made, none))
    (behind : ∀ path made failure?, ParentMissing tree directory path →
      motive (splitParent path).1 (made, failure?) →
        (∀ failure ∈ failure?, failure.fault = .occupied) → (splitParent path).2 ≠ Path.here →
          motive path (made.ensureDirectory directory (String.ofList path)))
    (path : List Char) : motive path (tree.makeDirectoriesAt directory path) := by
  fun_induction makeDirectoriesAt tree directory path with
  | case1 path hmissing made failure hmade hfault ih =>
    rw [hmade] at ih
    exact failed path made failure hmissing ih hfault
  | case2 path hmissing made failure hmade hfault hhere ih =>
    rw [hmade] at ih
    refine stays path made (some failure) hmissing ih ?_ hhere
    rintro _ ⟨⟩
    exact not_not.mp hfault
  | case3 path hmissing made failure hmade hfault hhere ih =>
    rw [hmade] at ih
    refine behind path made (some failure) hmissing ih ?_ hhere
    rintro _ ⟨⟩
    exact not_not.mp hfault
  | case4 path hmissing made hmade hhere ih =>
    rw [hmade] at ih
    exact stays path made none hmissing ih nofun hhere
  | case5 path hmissing made hmade hhere ih =>
    rw [hmade] at ih
    exact behind path made none hmissing ih nofun hhere
  | case6 path hmissing => exact alone path hmissing

theorem addsDirectories_makeDirectoriesAt (tree : FileTree) (directory : Location)
    (path : List Char) : AddsDirectories tree (tree.makeDirectoriesAt directory path).1 := by
  refine makeDirectoriesAt_induction (motive := fun _ made => AddsDirectories tree made.1)
    ?_ ?_ ?_ ?_ path
  · exact fun path _ => addsDirectories_ensureDirectory tree directory _
  · exact fun _ _ _ _ hadds _ => hadds
  · exact fun _ _ _ _ hadds _ _ => hadds
  · exact fun path made _ _ hadds _ _ =>
      hadds.trans (addsDirectories_ensureDirectory made directory _)

theorem Rooted.mono {tree' : FileTree} (h : tree.Rooted directory) (hgrows : Grows tree tree') :
    tree'.Rooted directory :=
  fun above hbelow => hgrows.directory (h above hbelow)

theorem not_parentMissing_of_isDirectory {path : List Char}
    (h : tree.isDirectory directory (String.ofList path) = true) :
    ¬ ParentMissing tree directory path := by
  rintro ⟨hparent, hname, hmissing⟩
  have hsplits := splits_splitParent path
  obtain ⟨hpath, last, hwalk, hlast⟩ := isDirectory_iff.mp h
  rw [names_splitParent hname, walk_concat, bind_eq_ok_iff] at hwalk
  obtain ⟨parent, hwalk, hstep⟩ := hwalk
  rw [← startOf_front hsplits.front hparent] at hwalk
  have hdirectory : tree.isDirectory directory (String.ofList (splitParent path).1) = true :=
    isDirectory_iff.mpr ⟨requirePath_front hsplits.front hparent hpath, parent, hwalk,
      (step_eq_ok_iff.mp hstep).1⟩
  rw [Option.isNone_iff_eq_none] at hmissing
  have := isSome_lookup?_of_isDirectory hdirectory
  rw [hmissing] at this
  cases this

theorem makeDirectoriesAt_of_not_missing {path : List Char}
    (h : ¬ ParentMissing tree directory path) :
    tree.makeDirectoriesAt directory path =
      tree.ensureDirectory directory (String.ofList path) := by
  unfold ParentMissing at h
  rw [makeDirectoriesAt, dif_neg h]

/-- Where the directory is, nothing is made. -/
theorem makeDirectoriesAt_of_isDirectory {path : List Char}
    (h : tree.isDirectory directory (String.ofList path) = true) :
    tree.makeDirectoriesAt directory path = (tree, none) := by
  rw [makeDirectoriesAt_of_not_missing (not_parentMissing_of_isDirectory h),
    ensureDirectory_of_isDirectory h]

/-- What making a path comes to, in a tree that has its directory: without a failure the path names
a directory or is held; where a place was found occupied, something is there. -/
structure MadeOrHeld (directory : Location) (path : List Char)
    (made : FileTree × Option FileFailure) : Prop where
  rooted : made.1.Rooted directory
  done : made.2 = none →
    made.1.isDirectory directory (String.ofList path) = true ∨ Held made.1 directory path
  occupied : ∀ failure, made.2 = some failure → failure.fault = .occupied → IsTrimmed path →
    (made.1.lookup? directory (String.ofList path)).isSome

theorem madeOrHeld_ensureDirectory (h : tree.Rooted directory) (path : List Char) :
    MadeOrHeld directory path (tree.ensureDirectory directory (String.ofList path)) where
  rooted := h.mono (addsDirectories_ensureDirectory tree directory _).grows
  done := fun hnone => Or.inl (isDirectory_of_ensureDirectory hnone)
  occupied := fun _ hsome hfault htrimmed =>
    isSome_lookup?_of_occupied h (by rwa [String.toList_ofList]) hsome hfault

theorem madeOrHeld_makeDirectoriesAt (h : tree.Rooted directory) (path : List Char) :
    MadeOrHeld directory path (tree.makeDirectoriesAt directory path) := by
  refine makeDirectoriesAt_induction ?_ ?_ ?_ ?_ path
  · exact fun path _ => madeOrHeld_ensureDirectory h path
  · intro path made failure hmissing hparent hfault
    exact ⟨hparent.rooted, nofun, fun _ heq hocc => absurd (Option.some.inj heq ▸ hocc) hfault⟩
  · intro path made failure? hmissing hparent hfault hhere
    refine ⟨hparent.rooted, fun _ => ?_, nofun⟩
    cases hdirectory : made.isDirectory directory (String.ofList path) with
    | true => exact Or.inl rfl
    | false =>
      refine Or.inr ?_
      cases failure? with
      | none =>
        rcases hparent.done rfl with hthere | hheld
        · exact .found hmissing.1 hhere hdirectory (isSome_lookup?_of_isDirectory hthere)
        · exact .deeper hmissing.1 hhere hdirectory hheld
      | some failure =>
        exact .found hmissing.1 hhere hdirectory
          (hparent.occupied failure rfl (hfault failure rfl) (splits_splitParent path).trimmed)
  · exact fun path made _ _ hparent _ _ => madeOrHeld_ensureDirectory hparent.rooted path

/-- Behind something that is no directory a path that ends in `.` cannot be made. -/
theorem ensureDirectory_here (hrooted : tree.Rooted directory) {path : List Char}
    (hhere : (splitParent path).2 = Path.here)
    (hdirectory : tree.isDirectory directory (String.ofList path) = false) :
    ∃ failure, tree.ensureDirectory directory (String.ofList path) = (tree, some failure) ∧
      failure.fault ≠ .occupied := by
  have hlast : (names (String.ofList path)).getLast? = some "." := by
    rw [names_splitParent (by rw [hhere]; nofun), List.getLast?_concat, hhere]
    rfl
  have hplace : ∃ fault, tree.place directory (String.ofList path) = .error fault := by
    cases hplace : tree.place directory (String.ofList path) with
    | error fault => exact ⟨fault, rfl⟩
    | ok place? =>
      cases place? with
      | none =>
        rw [hrooted.isDirectory_of_place hplace] at hdirectory
        cases hdirectory
      | some location =>
        obtain ⟨-, _, name, -, -, hname, hdot, -⟩ := place_eq_some_iff.mp hplace
        rw [hlast] at hname
        exact absurd (Option.some.inj hname).symm hdot
  obtain ⟨fault, hplace⟩ := hplace
  have hmake : tree.makeDirectory directory (String.ofList path) = .error fault :=
    bind_eq_error_iff.mpr (Or.inl hplace)
  refine ⟨⟨fault, String.ofList path⟩, ?_, place_error_ne_occupied hplace⟩
  unfold ensureDirectory
  rw [hmake]
  simp only
  rw [if_neg (Bool.eq_false_iff.mp hdirectory)]

/-- A path that is held cannot be made, and nothing is made of it. -/
theorem Held.makeDirectoriesAt_eq {path : List Char} (h : Held tree directory path)
    (hrooted : tree.Rooted directory) :
    ∃ failure, tree.makeDirectoriesAt directory path = (tree, some failure) ∧
      failure.fault ≠ .occupied := by
  have hthere : ∀ path, (splitParent path).2 = Path.here →
      tree.isDirectory directory (String.ofList path) = false →
      ¬ ParentMissing tree directory path →
      ∃ failure, tree.makeDirectoriesAt directory path = (tree, some failure) ∧
        failure.fault ≠ .occupied := by
    intro path hhere hdirectory hmissing
    obtain ⟨failure, hfailure⟩ := ensureDirectory_here hrooted hhere hdirectory
    exact ⟨failure, by rw [makeDirectoriesAt_of_not_missing hmissing, hfailure.1], hfailure.2⟩
  induction h with
  | found hparent hhere hdirectory hsome =>
    refine hthere _ hhere hdirectory fun hmissing => ?_
    rw [Option.isNone_iff_eq_none.mp hmissing.2.2] at hsome
    cases hsome
  | @deeper path hparent hhere hdirectory _ ih =>
    by_cases hmissing : ParentMissing tree directory path
    · obtain ⟨failure, hmade, hfault⟩ := ih
      refine ⟨failure, ?_, hfault⟩
      unfold ParentMissing at hmissing
      rw [makeDirectoriesAt, dif_pos hmissing, hmade]
      simp only
      rw [if_pos hfault]
    · exact hthere path hhere hdirectory hmissing

end

/-! ## Making again -/

section

variable {tree tree' : FileTree} {directory location : Location} {path : String}

/-- What leads to a directory starts from one. -/
theorem directory_of_walk {names : List String} {start last : Location}
    (hwalk : tree.walk start names = .ok last) (hlast : tree.get? last = some .directory) :
    tree.get? start = some .directory := by
  cases names with
  | nil =>
    cases hwalk
    exact hlast
  | cons name names =>
    rw [walk_cons, bind_eq_ok_iff] at hwalk
    obtain ⟨next, hstep, -⟩ := hwalk
    exact (step_eq_ok_iff.mp hstep).1

/-- Only directories lead to a directory. -/
theorem walk_of_same_directories
    (h : ∀ location, tree'.get? location = some .directory → tree.get? location = some .directory)
    (names : List String) : ∀ {start last : Location}, tree'.walk start names = .ok last →
      tree'.get? last = some .directory → tree.walk start names = .ok last := by
  induction names with
  | nil =>
    intro start last hwalk _
    exact hwalk
  | cons name names ih =>
    intro start last hwalk hlast
    rw [walk_cons, bind_eq_ok_iff] at hwalk ⊢
    obtain ⟨next, hstep, hwalk⟩ := hwalk
    refine ⟨next, ?_, ih hwalk hlast⟩
    have hnext := h next (directory_of_walk hwalk hlast)
    rw [step_eq_ok_iff] at hstep ⊢
    obtain ⟨hstart, hhere | habove | ⟨hhere, habove, hlong, -, rfl⟩⟩ := hstep
    · exact ⟨h start hstart, Or.inl hhere⟩
    · exact ⟨h start hstart, Or.inr (Or.inl habove)⟩
    · refine ⟨h start hstart, Or.inr (Or.inr ⟨hhere, habove, hlong, ?_, rfl⟩)⟩
      rw [hnext]
      rfl

theorem isDirectory_of_same_directories
    (h : ∀ location, tree'.get? location = some .directory → tree.get? location = some .directory)
    (hdirectory : tree'.isDirectory directory path = true) :
    tree.isDirectory directory path = true := by
  rw [isDirectory_iff] at hdirectory ⊢
  obtain ⟨hpath, last, hwalk, hlast⟩ := hdirectory
  exact ⟨hpath, last, walk_of_same_directories h _ hwalk hlast, h last hlast⟩

/-- A path that is held is still held where things were added and no directory. -/
theorem Held.mono {path : List Char} (hheld : Held tree directory path) (hgrows : Grows tree tree')
    (h : ∀ location, tree'.get? location = some .directory → tree.get? location = some .directory) :
    Held tree' directory path := by
  have hnot : ∀ path, tree.isDirectory directory path = false →
      tree'.isDirectory directory path = false := by
    intro path hfalse
    refine Bool.eq_false_iff.mpr fun hdirectory => ?_
    rw [isDirectory_of_same_directories h hdirectory] at hfalse
    cases hfalse
  induction hheld with
  | found hparent hhere hdirectory hsome =>
    exact .found hparent hhere (hnot _ hdirectory) (hgrows.isSome_lookup? hsome)
  | deeper hparent hhere hdirectory _ ih => exact .deeper hparent hhere (hnot _ hdirectory) ih

theorem Held.ne_nil {path : List Char} (hheld : Held tree directory path) : path ≠ [] := by
  have hparent : (splitParent path).1 ≠ [] := by
    cases hheld <;> assumption
  rintro rfl
  exact hparent (List.prefix_nil.mp (splits_splitParent []).front)

theorem makeDirectories_of_isDirectory (h : tree.isDirectory directory path = true) :
    tree.makeDirectories directory path = (tree, none) :=
  makeDirectoriesAt_of_isDirectory (by rwa [String.ofList_toList])

/-- After a directory and its parents were made, and files were added, they can be made again
exactly if the directory is there.  Either way nothing is made. -/
theorem makeDirectories_again {made : FileTree} (hrooted : tree.Rooted directory)
    (hmade : tree.makeDirectories directory path = (made, none)) (hgrows : Grows made tree')
    (h : ∀ location, tree'.get? location = some .directory →
      made.get? location = some .directory) :
    ∃ failure?, tree'.makeDirectories directory path = (tree', failure?) ∧
      (failure? = none ↔ tree'.isDirectory directory path = true) := by
  cases hdirectory : tree'.isDirectory directory path with
  | true => exact ⟨none, makeDirectories_of_isDirectory hdirectory, fun _ => rfl, fun _ => rfl⟩
  | false =>
    have hmadeOrHeld := madeOrHeld_makeDirectoriesAt hrooted path.toList
    rw [show tree.makeDirectoriesAt directory path.toList = (made, none) from hmade] at hmadeOrHeld
    rcases hmadeOrHeld.done rfl with hthere | hheld
    · rw [String.ofList_toList] at hthere
      rw [hgrows.isDirectory hthere] at hdirectory
      cases hdirectory
    · obtain ⟨failure, hfails, -⟩ :=
        (hheld.mono hgrows h).makeDirectoriesAt_eq (hmadeOrHeld.rooted.mono hgrows)
      exact ⟨some failure, hfails, nofun, nofun⟩

/-- The path of a directory that was made is not empty. -/
theorem ne_empty_of_makeDirectories {made : FileTree} (hrooted : tree.Rooted directory)
    (hmade : tree.makeDirectories directory path = (made, none)) : path ≠ "" := by
  rintro rfl
  have hmadeOrHeld := madeOrHeld_makeDirectoriesAt hrooted "".toList
  rw [show tree.makeDirectoriesAt directory "".toList = (made, none) from hmade] at hmadeOrHeld
  rcases hmadeOrHeld.done rfl with hthere | hheld
  · exact absurd rfl (requirePath_eq_ok_iff.mp (isDirectory_iff.mp hthere).1).1
  · exact hheld.ne_nil rfl

/-- A relative name can only be written in what is a directory. -/
theorem isDirectory_of_writable_join {name : String} (hpath : path ≠ "")
    (hname : Path.Posix.isAbsolute name.toList = false)
    (h : tree.Writable directory (String.ofList (Path.Posix.join path.toList name.toList))
      location) :
    tree.isDirectory directory path = true := by
  have hne : path.toList ≠ [] := fun hnil => hpath (String.toList_eq_nil_iff.mp hnil)
  have hfront := directory_front_join path.toList hname
  have hpieces : pieces name.toList ≠ [] := by
    intro hnil
    have hslash := h.unslashed
    unfold endsWithSlash at hslash
    rw [String.toList_ofList, eq_nil_of_pieces_eq_nil hname hnil, getLast?_join_nil hne] at hslash
    cases hslash
  obtain ⟨hrequire, parent, -, hwalk, hparent, -⟩ := place_eq_some_iff.mp h.place
  have hstart := startOf_front hfront hne directory
  have hrequire' := requirePath_front hfront hne hrequire
  have hnames := names_ofList path.toList
  rw [String.ofList_toList] at hstart hrequire' hnames
  rw [names_ofList, pieces_join hname, ← List.map_dropLast, List.dropLast_append_of_ne_nil hpieces,
    List.map_append, ← hnames, ← hstart] at hwalk
  unfold walk at hwalk
  rw [List.foldlM_append, bind_eq_ok_iff] at hwalk
  obtain ⟨last, hwalk, hbehind⟩ := hwalk
  exact isDirectory_iff.mpr ⟨hrequire', last, hwalk, directory_of_walk hbehind hparent⟩

end

end BuildCommands.FileTree
