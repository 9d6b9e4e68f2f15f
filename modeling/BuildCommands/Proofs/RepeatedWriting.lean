import BuildCommands.Proofs.Delivery
import BuildCommands.Proofs.DirectoryMaking

/-!
# What writing changes

Writing the documents changes two files at most, those that the output paths lead to, and removes
nothing.  Each way to fail leaves a state of its own, and writing a second time changes nothing.

    without a failure, writing again goes well  ↔  the output directory is a directory
                                                                                  (write_effects)

The output directory is one unless both names are absolute: then nothing is written in it, and a
path that ends in `.` behind a file may have passed for a directory that was made.
-/

namespace BuildCommands

/-! ## Definitions -/

/-- The content of the file at a location. -/
def FileTree.fileAt? (tree : FileTree) (location : Location) : Option ByteArray :=
  match tree.get? location with
  | some (.file content) => some content
  | _ => none

/-- The trees hold the same files, but for the locations. -/
def FileTree.SameFiles (tree : FileTree) (changed : List Location) (tree' : FileTree) : Prop :=
  ∀ location, location ∉ changed → tree'.fileAt? location = tree.fileAt? location

/-- What writing changes, what each failure leaves, and what writing again comes to. -/
structure WriteEffects (db : Database) (place : OutputPlace) (tree : FileTree)
    (directory : Location) (written : Written) : Prop where
  /-- No directory is removed. -/
  directories : ∀ location, tree.get? location = some .directory →
    written.tree.get? location = some .directory
  /-- A file that is changed is one that the output paths lead to. -/
  files : ∀ location, written.tree.fileAt? location ≠ tree.fileAt? location →
    written.tree.locate directory place.compilePath = .ok location ∨
      written.tree.locate directory place.linkPath = .ok location
  /-- Before the first document is written no file is changed.  Where only the second cannot be
  written, the first is there, no other file is changed, and no file stood or stands where the
  second was to be. -/
  failed : ∀ failure, written.failure? = some failure →
    (∃ reason, failure = .directory place.directory reason ∧ tree.SameFiles [] written.tree) ∨
    (∃ reason, failure = .file place.compilePath reason ∧ tree.SameFiles [] written.tree) ∨
    ∃ reason first, failure = .file place.linkPath reason ∧
      written.tree.locate directory place.compilePath = .ok first ∧
      written.tree.get? first = some (.file (compileDocument db.compiles.toList).toUTF8) ∧
      tree.SameFiles [first] written.tree ∧
      tree.isFile directory place.linkPath = false ∧
      written.tree.isFile directory place.linkPath = false
  /-- Writing again changes nothing, and goes well exactly if the output directory is there. -/
  again : written.failure? = none →
    (∀ location,
      (db.write place written.tree directory).tree.get? location = written.tree.get? location) ∧
    ((db.write place written.tree directory).failure? = none ↔
      written.tree.isDirectory directory place.directory = true)
  /-- The output directory is there if one of the names is relative. -/
  there : written.failure? = none →
    Path.Posix.isAbsolute place.compileName.toList = false ∨
      Path.Posix.isAbsolute place.linkName.toList = false →
    written.tree.isDirectory directory place.directory = true

/-! ## Trees -/

namespace FileTree

variable {tree tree' tree'' : FileTree} {directory location : Location} {path : String}

theorem SameFiles.trans {changed changed' : List Location} (h : tree.SameFiles changed tree')
    (h' : tree'.SameFiles changed' tree'') : tree.SameFiles (changed ++ changed') tree'' := by
  intro location hnot
  rw [List.mem_append, not_or] at hnot
  rw [h' location hnot.2, h location hnot.1]

theorem SameFiles.mem {changed : List Location} (h : tree.SameFiles changed tree')
    (hne : tree'.fileAt? location ≠ tree.fileAt? location) : location ∈ changed := by
  by_contra hnot
  exact hne (h location hnot)

theorem AddsDirectories.sameFiles (h : AddsDirectories tree tree') : tree.SameFiles [] tree' := by
  intro location _
  unfold fileAt?
  cases hentry : tree.get? location with
  | some entry => rw [h.kept hentry]
  | none => rcases h.added hentry with hnone | hdirectory <;> simp only [*]

theorem sameFiles_put (tree : FileTree) (location : Location) (content : ByteArray) :
    tree.SameFiles [location] (tree.put location (.file content)) := by
  intro other hnot
  unfold fileAt?
  rw [get?_put_of_ne tree _ (List.mem_singleton.not.mp hnot)]

/-- A path that leads to a file still does. -/
theorem AddsDirectories.isFile (h : AddsDirectories tree tree')
    (hfile : tree.isFile directory path = true) : tree'.isFile directory path = true := by
  obtain ⟨last, content, hlocate, hlast⟩ := isFile_iff.mp hfile
  exact isFile_iff.mpr ⟨last, content, h.grows.locate hlocate, h.kept hlast⟩

theorem isFile_put (h : tree.get? location ≠ some .directory) (content : ByteArray)
    (hfile : tree.isFile directory path = true) :
    (tree.put location (.file content)).isFile directory path = true := by
  obtain ⟨last, found, hlocate, hlast⟩ := isFile_iff.mp hfile
  have hlocate' := locate_put h content hlocate
  by_cases heq : last = location
  · have hroot : last ≠ [] := by
      rintro rfl
      cases hlast
    rw [heq] at hlocate' hroot
    exact isFile_iff.mpr ⟨location, content, hlocate', get?_put_self tree _ hroot⟩
  · exact isFile_iff.mpr ⟨last, found, hlocate', by rwa [get?_put_of_ne tree _ heq]⟩

end FileTree

/-! ## Outcomes -/

section

variable {db : Database} {place : OutputPlace} {tree made : FileTree} {directory : Location}

theorem writeDocument_of_not_writable {path : String} (document : String)
    (h : ∀ location, ¬ tree.Writable directory path location) :
    ∃ failure log, writeDocument tree directory path document =
      ⟨tree, log, some (.file path failure)⟩ := by
  unfold writeDocument
  cases hwrite : tree.writeFile directory path document.toUTF8 with
  | ok next =>
    obtain ⟨location, hwritable, -⟩ := FileTree.writeFile_eq_ok_iff.mp hwrite
    exact absurd hwritable (h location)
  | error fault => exact ⟨_, _, rfl⟩

theorem write_of_unprepared {failure : FileFailure}
    (hmade : tree.makeDirectories directory place.directory = (made, some failure)) :
    db.write place tree directory = ⟨made, [], some (.directory place.directory failure)⟩ := by
  unfold Database.write Database.saveWith
  rw [prepareOutput_eq hmade]
  rfl

/-- In an output directory that was made the documents are written one behind the other. -/
theorem write_of_made (hmade : tree.makeDirectories directory place.directory = (made, none)) :
    db.write place tree directory =
      (writeDocument made directory place.compilePath
        (compileDocument db.compiles.toList)).andThen fun tree =>
          writeDocument tree directory place.linkPath (linkDocument db.links.toList) := by
  have hstart : ∀ next : FileTree → Written,
      (Written.mk made [] none).andThen next = next made := by
    intro next
    rw [Written.andThen_of_none rfl]
    rfl
  unfold Database.write Database.saveWith
  rw [prepareOutput_eq hmade, Option.map_none, hstart]

/-- Where the first document cannot be written, nothing is. -/
theorem write_of_not_writable
    (hmade : tree.makeDirectories directory place.directory = (made, none))
    (h : ∀ location, ¬ made.Writable directory place.compilePath location) :
    ∃ failure log, db.write place tree directory =
      ⟨made, log, some (.file place.compilePath failure)⟩ := by
  obtain ⟨failure, log, hfails⟩ :=
    writeDocument_of_not_writable (compileDocument db.compiles.toList) h
  exact ⟨failure, log, by rw [write_of_made hmade, hfails]; rfl⟩

/-- Where only the second document cannot be written, the first is. -/
theorem write_of_writable_not_writable {first : Location}
    (hmade : tree.makeDirectories directory place.directory = (made, none))
    (hfirst : made.Writable directory place.compilePath first)
    (h : ∀ location, ¬ (made.put first (.file (compileDocument db.compiles.toList).toUTF8)).Writable
      directory place.linkPath location) :
    ∃ failure log, db.write place tree directory =
      ⟨made.put first (.file (compileDocument db.compiles.toList).toUTF8), log,
        some (.file place.linkPath failure)⟩ := by
  obtain ⟨failure, log, hfails⟩ := writeDocument_of_not_writable (linkDocument db.links.toList) h
  refine ⟨failure, [⟨.info, "Wrote " ++ place.compilePath⟩] ++ log, ?_⟩
  rw [write_of_made hmade, writeDocument_of_writable hfirst, Written.andThen_of_none rfl, hfails]

/-- All that writing can come to. -/
inductive WriteOutcome (db : Database) (place : OutputPlace) (tree : FileTree)
    (directory : Location) (written : Written) : Prop
  | unprepared {made : FileTree} {failure : FileFailure} :
      tree.makeDirectories directory place.directory = (made, some failure) →
      written.tree = made →
      written.failure? = some (.directory place.directory failure) →
      WriteOutcome db place tree directory written
  | nothing {made : FileTree} {failure : FileFailure} :
      tree.makeDirectories directory place.directory = (made, none) →
      written.tree = made →
      written.failure? = some (.file place.compilePath failure) →
      WriteOutcome db place tree directory written
  | one {made : FileTree} {first : Location} {failure : FileFailure} :
      tree.makeDirectories directory place.directory = (made, none) →
      made.Writable directory place.compilePath first →
      (∀ location, ¬ (made.put first (.file (compileDocument db.compiles.toList).toUTF8)).Writable
        directory place.linkPath location) →
      written.tree = made.put first (.file (compileDocument db.compiles.toList).toUTF8) →
      written.failure? = some (.file place.linkPath failure) →
      WriteOutcome db place tree directory written
  | both {made : FileTree} {first second : Location} :
      tree.makeDirectories directory place.directory = (made, none) →
      made.Writable directory place.compilePath first →
      (made.put first (.file (compileDocument db.compiles.toList).toUTF8)).Writable
        directory place.linkPath second →
      written.tree = (made.put first (.file (compileDocument db.compiles.toList).toUTF8)).put second
        (.file (linkDocument db.links.toList).toUTF8) →
      written.failure? = none →
      WriteOutcome db place tree directory written

theorem writeOutcome (db : Database) (place : OutputPlace) (tree : FileTree)
    (directory : Location) :
    WriteOutcome db place tree directory (db.write place tree directory) := by
  cases hmade : tree.makeDirectories directory place.directory with
  | mk made failure? =>
    cases failure? with
    | some failure =>
      rw [write_of_unprepared hmade]
      exact .unprepared hmade rfl rfl
    | none =>
      by_cases hcompile : ∃ first, made.Writable directory place.compilePath first
      · obtain ⟨first, hfirst⟩ := hcompile
        by_cases hlink : ∃ second, (made.put first
            (.file (compileDocument db.compiles.toList).toUTF8)).Writable directory
            place.linkPath second
        · obtain ⟨second, hsecond⟩ := hlink
          rw [write_of_writable hmade hfirst hsecond]
          exact .both hmade hfirst hsecond rfl rfl
        · have hnot := not_exists.mp hlink
          obtain ⟨failure, log, hwrite⟩ := write_of_writable_not_writable hmade hfirst hnot
          rw [hwrite]
          exact .one hmade hfirst hnot rfl rfl
      · have hnot := not_exists.mp hcompile
        obtain ⟨failure, log, hwrite⟩ := write_of_not_writable hmade hnot
        rw [hwrite]
        exact .nothing hmade rfl rfl

/-! ## Writing again -/

/-- In the output directory files that are there are written again, each as it is. -/
theorem write_again {first second : Location}
    (hfirst : made.Writable directory place.compilePath first)
    (hsecond : (made.put first (.file (compileDocument db.compiles.toList).toUTF8)).Writable
      directory place.linkPath second)
    (htree : tree = (made.put first (.file (compileDocument db.compiles.toList).toUTF8)).put second
      (.file (linkDocument db.links.toList).toUTF8))
    (hthere : tree.isDirectory directory place.directory = true) :
    (db.write place tree directory).failure? = none ∧
      ∀ location, (db.write place tree directory).tree.get? location = tree.get? location := by
  have hfirst' : tree.Writable directory place.compilePath first := by
    rw [htree]
    exact (hfirst.put hfirst.free _).put hsecond.free _
  have hsecond' : (tree.put first (.file (compileDocument db.compiles.toList).toUTF8)).Writable
      directory place.linkPath second := by
    refine FileTree.Writable.put hfirst'.free _ ?_
    rw [htree]
    exact hsecond.put hsecond.free _
  rw [write_of_writable (FileTree.makeDirectories_of_isDirectory hthere) hfirst' hsecond']
  refine ⟨rfl, fun location => ?_⟩
  by_cases hlast : location = second
  · rw [hlast, htree, FileTree.get?_put_self _ _ hsecond.ne_nil,
      FileTree.get?_put_self _ _ hsecond.ne_nil]
  · rw [FileTree.get?_put_of_ne _ _ hlast]
    by_cases hbefore : location = first
    · rw [hbefore, FileTree.get?_put_self _ _ hfirst.ne_nil, htree,
        FileTree.get?_put_of_ne _ _ (hbefore ▸ hlast), FileTree.get?_put_self _ _ hfirst.ne_nil]
    · exact FileTree.get?_put_of_ne _ _ hbefore

/-! ## Effects -/

theorem addsDirectories_of_made {failure? : Option FileFailure}
    (hmade : tree.makeDirectories directory place.directory = (made, failure?)) :
    tree.AddsDirectories made := by
  have hadds := FileTree.addsDirectories_makeDirectoriesAt tree directory place.directory.toList
  rwa [show tree.makeDirectoriesAt directory place.directory.toList = (made, failure?) from hmade]
    at hadds

variable {written : Written}

theorem WriteOutcome.directories (hwritten : WriteOutcome db place tree directory written)
    {location : Location} (hdirectory : tree.get? location = some .directory) :
    written.tree.get? location = some .directory := by
  cases hwritten with
  | unprepared hmade htree _ =>
    rw [htree]
    exact (addsDirectories_of_made hmade).kept hdirectory
  | nothing hmade htree _ =>
    rw [htree]
    exact (addsDirectories_of_made hmade).kept hdirectory
  | one hmade hfirst _ htree _ =>
    rw [htree, FileTree.get?_put_file_eq_directory_iff hfirst.free]
    exact (addsDirectories_of_made hmade).kept hdirectory
  | both hmade hfirst hsecond htree _ =>
    rw [htree, FileTree.get?_put_file_eq_directory_iff hsecond.free,
      FileTree.get?_put_file_eq_directory_iff hfirst.free]
    exact (addsDirectories_of_made hmade).kept hdirectory

theorem WriteOutcome.files (hwritten : WriteOutcome db place tree directory written)
    {location : Location} (hne : written.tree.fileAt? location ≠ tree.fileAt? location) :
    written.tree.locate directory place.compilePath = .ok location ∨
      written.tree.locate directory place.linkPath = .ok location := by
  cases hwritten with
  | unprepared hmade htree _ =>
    rw [htree] at hne
    cases (addsDirectories_of_made hmade).sameFiles.mem hne
  | nothing hmade htree _ =>
    rw [htree] at hne
    cases (addsDirectories_of_made hmade).sameFiles.mem hne
  | @one made first _ hmade hfirst _ htree _ =>
    rw [htree] at hne ⊢
    have hmem := ((addsDirectories_of_made hmade).sameFiles.trans
      (FileTree.sameFiles_put made first _)).mem hne
    rw [List.nil_append, List.mem_singleton] at hmem
    rw [hmem]
    exact Or.inl (hfirst.locate_put _)
  | @both made first second hmade hfirst hsecond htree _ =>
    rw [htree] at hne ⊢
    have hmem := (((addsDirectories_of_made hmade).sameFiles.trans
      (FileTree.sameFiles_put made first _)).trans (FileTree.sameFiles_put _ second _)).mem hne
    rw [List.nil_append, List.mem_append, List.mem_singleton, List.mem_singleton] at hmem
    rcases hmem with rfl | rfl
    · exact Or.inl (FileTree.locate_put hsecond.free _ (hfirst.locate_put _))
    · exact Or.inr (hsecond.locate_put _)

theorem WriteOutcome.failed (hrooted : tree.Rooted directory)
    (hwritten : WriteOutcome db place tree directory written) {failure : OutputFailure}
    (hfailure : written.failure? = some failure) :
    (∃ reason, failure = .directory place.directory reason ∧ tree.SameFiles [] written.tree) ∨
    (∃ reason, failure = .file place.compilePath reason ∧ tree.SameFiles [] written.tree) ∨
    ∃ reason first, failure = .file place.linkPath reason ∧
      written.tree.locate directory place.compilePath = .ok first ∧
      written.tree.get? first = some (.file (compileDocument db.compiles.toList).toUTF8) ∧
      tree.SameFiles [first] written.tree ∧
      tree.isFile directory place.linkPath = false ∧
      written.tree.isFile directory place.linkPath = false := by
  cases hwritten with
  | unprepared hmade htree hfails =>
    rw [hfails] at hfailure
    cases hfailure
    exact Or.inl ⟨_, rfl, htree ▸ (addsDirectories_of_made hmade).sameFiles⟩
  | nothing hmade htree hfails =>
    rw [hfails] at hfailure
    cases hfailure
    exact Or.inr (Or.inl ⟨_, rfl, htree ▸ (addsDirectories_of_made hmade).sameFiles⟩)
  | @one made first reason hmade hfirst hnot htree hfails =>
    rw [hfails] at hfailure
    cases hfailure
    have hadds := addsDirectories_of_made hmade
    have hgrows := FileTree.grows_put hfirst.free (compileDocument db.compiles.toList).toUTF8
    rw [← htree] at hgrows
    have hlink : written.tree.isFile directory place.linkPath = false := by
      refine Bool.eq_false_iff.mpr fun hfile => ?_
      obtain ⟨location, hwritable⟩ :=
        ((hrooted.mono hadds.grows).mono hgrows).writable_of_isFile hfile
      exact hnot location (htree ▸ hwritable)
    refine Or.inr (Or.inr ⟨reason, first, rfl, ?_, ?_, ?_, ?_, hlink⟩)
    · rw [htree]
      exact hfirst.locate_put _
    · rw [htree]
      exact FileTree.get?_put_self _ _ hfirst.ne_nil
    · rw [htree]
      exact hadds.sameFiles.trans (FileTree.sameFiles_put made first _)
    · refine Bool.eq_false_iff.mpr fun hfile => ?_
      rw [htree, FileTree.isFile_put hfirst.free _ (hadds.isFile hfile)] at hlink
      cases hlink
  | both _ _ _ _ hfails =>
    rw [hfails] at hfailure
    cases hfailure

/-- After both documents were written, writing again changes nothing, and goes well exactly if the
output directory is there, as it is if one of the names is relative. -/
theorem write_repeated (hrooted : tree.Rooted directory)
    (h : (db.write place tree directory).failure? = none) :
    ((∀ location,
        (db.write place (db.write place tree directory).tree directory).tree.get? location =
          (db.write place tree directory).tree.get? location) ∧
      ((db.write place (db.write place tree directory).tree directory).failure? = none ↔
        (db.write place tree directory).tree.isDirectory directory place.directory = true)) ∧
      (Path.Posix.isAbsolute place.compileName.toList = false ∨
          Path.Posix.isAbsolute place.linkName.toList = false →
        (db.write place tree directory).tree.isDirectory directory place.directory = true) := by
  obtain ⟨made, first, second, hmade, hfirst, hsecond⟩ := writable_of_write h
  have htree : (db.write place tree directory).tree = _ :=
    congrArg Written.tree (write_of_writable hmade hfirst hsecond)
  have hgrows := FileTree.grows_put hfirst.free (compileDocument db.compiles.toList).toUTF8
  have hgrows' := FileTree.grows_put hsecond.free (linkDocument db.links.toList).toUTF8
  have hgrows'' : FileTree.Grows made (db.write place tree directory).tree := by
    rw [htree]
    exact hgrows.trans hgrows'
  have hsame : ∀ location, (db.write place tree directory).tree.get? location = some .directory →
      made.get? location = some .directory := by
    intro location hdirectory
    rwa [htree, FileTree.get?_put_file_eq_directory_iff hsecond.free,
      FileTree.get?_put_file_eq_directory_iff hfirst.free] at hdirectory
  have hpath := FileTree.ne_empty_of_makeDirectories hrooted hmade
  obtain ⟨failure?, hagain, hthere⟩ :=
    FileTree.makeDirectories_again hrooted hmade hgrows'' hsame
  constructor
  · cases failure? with
    | none =>
      have hdirectory := hthere.mp rfl
      obtain ⟨hnone, hsame⟩ := write_again hfirst hsecond htree hdirectory
      exact ⟨hsame, fun _ => hdirectory, fun _ => hnone⟩
    | some failure =>
      rw [write_of_unprepared hagain]
      exact ⟨fun _ => rfl, nofun, fun hdirectory => nomatch hthere.mpr hdirectory⟩
  · rintro (hname | hname)
    · exact hgrows''.isDirectory (FileTree.isDirectory_of_writable_join hpath hname hfirst)
    · have := FileTree.isDirectory_of_writable_join hpath hname hsecond
      rw [htree]
      exact hgrows'.isDirectory this

theorem write_effects (h : tree.Rooted directory) (db : Database) (place : OutputPlace) :
    WriteEffects db place tree directory (db.write place tree directory) where
  directories _ := (writeOutcome db place tree directory).directories
  files _ := (writeOutcome db place tree directory).files
  failed _ := (writeOutcome db place tree directory).failed h
  again hnone := (write_repeated h hnone).1
  there hnone := (write_repeated h hnone).2

end

/-- A new directory in the working directory, and both documents in it: writing again goes well. -/
theorem write_effects_new_directory :
    let tree : FileTree := ⟨[(["work"], .directory), (["work", "f"], .file ⟨#[120]⟩)]⟩
    let place : OutputPlace := ⟨"out/db", "compile.json", "link.json"⟩
    tree.Rooted ["work"] ∧
      (Database.empty.write place tree ["work"]).tree.get? ["work", "f"] = some (.file ⟨#[120]⟩) ∧
      (Database.empty.write place
        (Database.empty.write place tree ["work"]).tree ["work"]).failure? = none := by
  intro tree place
  have hrooted : tree.Rooted ["work"] := by
    intro above hbelow
    cases above with
    | nil => rfl
    | cons name above =>
      obtain ⟨rfl, hnil⟩ := List.cons_prefix_cons.mp hbelow
      rw [List.prefix_nil.mp hnil]
      rfl
  have heffects := write_effects hrooted Database.empty place
  have hnone : (Database.empty.write place tree ["work"]).failure? = none := by decide +kernel
  have hthere := heffects.there hnone (Or.inl (by decide +kernel))
  exact ⟨hrooted, by decide +kernel, (heffects.again hnone).2.mpr hthere⟩

/-- Behind a file, a path that ends in a point passes for a directory that was made, once. -/
theorem write_beside_file :
    let tree : FileTree := ⟨[(["work"], .directory), (["work", "f"], .file ⟨#[120]⟩)]⟩
    let place : OutputPlace := ⟨"m/../f/.", "/c.json", "/l.json"⟩
    (Database.empty.write place tree ["work"]).failure? = none ∧
      (Database.empty.write place
        (Database.empty.write place tree ["work"]).tree ["work"]).failure? =
          some (.directory "m/../f/." ⟨.notDirectory, "m/../f/."⟩) := by
  decide +kernel

end BuildCommands
