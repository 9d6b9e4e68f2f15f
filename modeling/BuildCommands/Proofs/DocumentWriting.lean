import BuildCommands.Export
import BuildCommands.Proofs.FileWriting
import Mathlib.Data.List.TakeWhile

/-!
# Writing documents

Two documents are written one behind the other.  What goes well in the end went well at each step,
so the places of the documents were writable, and a second file takes nothing from the first.

    db.write place tree directory   goes well where both documents are writable, and leaves them
                                    there           (failure?_write_of_available, readFile_write)

A database whose texts hold surrogates is written like any other up to the first document with one
of them: its file is left empty, and the writing fails (exists_write_unencodable).
-/

namespace BuildCommands

/-! ## Definitions -/

/-- The output directory can be made, and both documents can be written into it. -/
def OutputPlace.Available (place : OutputPlace) (tree : FileTree) (directory : Location) : Prop :=
  ∃ prepared, tree.makeDirectories directory place.directory = (prepared, none) ∧
    (∃ location, prepared.Writable directory place.compilePath location) ∧
    ∃ location, prepared.Writable directory place.linkPath location

/-- The text can be encoded: no character of it stands for a surrogate. -/
def Surrogates.Encodes (surrogates : Surrogates) (text : String) : Prop :=
  ∀ c ∈ text.toList, surrogates.code? c = none

/-- Both documents of the records can be encoded. -/
structure Surrogates.EncodesDocuments (surrogates : Surrogates) (db : Database) : Prop where
  compile : surrogates.Encodes (compileDocument db.compiles.toList)
  link : surrogates.Encodes (linkDocument db.links.toList)

/-! ## Documents -/

section

variable {db : Database} {place : OutputPlace} {tree : FileTree} {directory : Location}

theorem writeDocument_of_writable {path document : String} {location : Location}
    (h : tree.Writable directory path location) :
    writeDocument tree directory path document =
      ⟨tree.put location (.file document.toUTF8), [⟨.info, "Wrote " ++ path⟩], none⟩ := by
  unfold writeDocument
  rw [FileTree.writeFile_eq_ok_iff.mpr ⟨location, h, rfl⟩]

theorem writable_of_writeDocument {path document : String}
    (h : (writeDocument tree directory path document).failure? = none) :
    ∃ location, tree.Writable directory path location := by
  unfold writeDocument at h
  split at h
  · next hwrite =>
    obtain ⟨location, hwritable, -⟩ := FileTree.writeFile_eq_ok_iff.mp hwrite
    exact ⟨location, hwritable⟩
  · cases h

/-- Two things that are done one after the other go well if both do. -/
theorem Written.failure?_andThen {written : Written} {next : FileTree → Written} :
    (written.andThen next).failure? = none ↔
      written.failure? = none ∧ (next written.tree).failure? = none := by
  unfold andThen
  cases h : written.failure? with
  | none => exact ⟨fun hn => ⟨rfl, hn⟩, And.right⟩
  | some failure =>
    simp only
    rw [h]
    exact ⟨nofun, fun hn => nomatch hn.1⟩

theorem Written.andThen_of_none {written : Written} (h : written.failure? = none)
    (next : FileTree → Written) :
    written.andThen next = ⟨(next written.tree).tree, written.log ++ (next written.tree).log,
      (next written.tree).failure?⟩ := by
  unfold andThen
  rw [h]

theorem prepareOutput_eq {path : String} {prepared : FileTree} {failure? : Option FileFailure}
    (h : tree.makeDirectories directory path = (prepared, failure?)) :
    prepareOutput tree directory path = ⟨prepared, [], failure?.map (.directory path)⟩ := by
  unfold prepareOutput
  rw [h]

/-- The documents that can be written are written, one behind the other. -/
theorem write_of_writable {prepared : FileTree} {first second : Location}
    (hprepared : tree.makeDirectories directory place.directory = (prepared, none))
    (hfirst : prepared.Writable directory place.compilePath first)
    (hsecond : (prepared.put first (.file (compileDocument db.compiles.toList).toUTF8)).Writable
      directory place.linkPath second) :
    db.write place tree directory =
      ⟨(prepared.put first (.file (compileDocument db.compiles.toList).toUTF8)).put second
          (.file (linkDocument db.links.toList).toUTF8),
        [⟨.info, "Wrote " ++ place.compilePath⟩, ⟨.info, "Wrote " ++ place.linkPath⟩], none⟩ := by
  have hcompile : (Written.mk prepared [] none).andThen (fun tree =>
        writeDocument tree directory place.compilePath (compileDocument db.compiles.toList)) =
      ⟨prepared.put first (.file (compileDocument db.compiles.toList).toUTF8),
        [⟨.info, "Wrote " ++ place.compilePath⟩], none⟩ := by
    rw [Written.andThen_of_none rfl, writeDocument_of_writable hfirst]
    rfl
  unfold Database.write Database.saveWith
  rw [prepareOutput_eq hprepared, Option.map_none, hcompile, Written.andThen_of_none rfl,
    writeDocument_of_writable hsecond]
  rfl

/-- Documents are written only where they can be. -/
theorem writable_of_write (h : (db.write place tree directory).failure? = none) :
    ∃ prepared first second,
      tree.makeDirectories directory place.directory = (prepared, none) ∧
      prepared.Writable directory place.compilePath first ∧
      (prepared.put first (.file (compileDocument db.compiles.toList).toUTF8)).Writable
        directory place.linkPath second := by
  unfold Database.write Database.saveWith at h
  rw [Written.failure?_andThen, Written.failure?_andThen] at h
  obtain ⟨⟨hdirectory, hcompile⟩, hlink⟩ := h
  cases hprepared : tree.makeDirectories directory place.directory with
  | mk prepared failure? =>
    rw [Written.andThen_of_none hdirectory, prepareOutput_eq hprepared] at hlink
    rw [prepareOutput_eq hprepared] at hdirectory hcompile
    obtain ⟨first, hfirst⟩ := writable_of_writeDocument hcompile
    rw [writeDocument_of_writable hfirst] at hlink
    obtain ⟨second, hsecond⟩ := writable_of_writeDocument hlink
    exact ⟨prepared, first, second, by rw [Option.map_eq_none_iff.mp hdirectory], hfirst, hsecond⟩

theorem failure?_write_of_available (h : place.Available tree directory) :
    (db.write place tree directory).failure? = none := by
  obtain ⟨prepared, hprepared, ⟨first, hfirst⟩, ⟨second, hsecond⟩⟩ := h
  rw [write_of_writable hprepared hfirst (hsecond.put hfirst.free _)]

/-- Whether documents are written does not depend on what is in them. -/
theorem failure?_write_of_other {other : Database}
    (h : (other.write place tree directory).failure? = none) :
    (db.write place tree directory).failure? = none := by
  obtain ⟨prepared, first, second, hprepared, hfirst, hsecond⟩ := writable_of_write h
  have hfree : (prepared.put first (.file (compileDocument other.compiles.toList).toUTF8)).get?
      first ≠ some .directory := by
    rw [FileTree.get?_put_self _ _ hfirst.ne_nil]
    exact nofun
  have hagain := hsecond.put hfree (compileDocument db.compiles.toList).toUTF8
  rw [FileTree.put_put] at hagain
  rw [write_of_writable hprepared hfirst hagain]

/-- Where the documents are after both were written, and what is there. -/
theorem exists_places_of_write (h : (db.write place tree directory).failure? = none) :
    ∃ first second,
      (db.write place tree directory).tree.locate directory place.compilePath = .ok first ∧
      (db.write place tree directory).tree.locate directory place.linkPath = .ok second ∧
      first.getLast? = (FileTree.names place.compilePath).getLast? ∧
      second.getLast? = (FileTree.names place.linkPath).getLast? ∧
      (db.write place tree directory).tree.get? second =
        some (.file (linkDocument db.links.toList).toUTF8) ∧
      (first ≠ second → (db.write place tree directory).tree.get? first =
        some (.file (compileDocument db.compiles.toList).toUTF8)) := by
  obtain ⟨prepared, first, second, hprepared, hfirst, hsecond⟩ := writable_of_write h
  rw [write_of_writable hprepared hfirst hsecond]
  refine ⟨first, second, ?_, hsecond.locate_put _, hfirst.getLast?_eq, hsecond.getLast?_eq,
    FileTree.get?_put_self _ _ hsecond.ne_nil, fun hne => ?_⟩
  · exact FileTree.locate_put hsecond.free _ (hfirst.locate_put _)
  · rw [FileTree.get?_put_of_ne _ _ hne, FileTree.get?_put_self _ _ hfirst.ne_nil]

/-- Documents that are written to different files are both there. -/
theorem readFile_write (h : (db.write place tree directory).failure? = none)
    (hne : (db.write place tree directory).tree.locate directory place.compilePath ≠
      (db.write place tree directory).tree.locate directory place.linkPath) :
    (db.write place tree directory).tree.readFile directory place.compilePath =
        .ok (compileDocument db.compiles.toList).toUTF8 ∧
      (db.write place tree directory).tree.readFile directory place.linkPath =
        .ok (linkDocument db.links.toList).toUTF8 := by
  obtain ⟨first, second, hfirst, hsecond, -, -, hlink, hcompile⟩ := exists_places_of_write h
  have hother : first ≠ second := by
    rintro rfl
    exact hne (hfirst.trans hsecond.symm)
  exact ⟨FileTree.readFile_eq_ok_iff.mpr ⟨first, hfirst, hcompile hother⟩,
    FileTree.readFile_eq_ok_iff.mpr ⟨second, hsecond, hlink⟩⟩

/-! ## Documents with surrogates -/

variable {surrogates : Surrogates}

theorem firstRun?_eq_none_iff {text : String} :
    surrogates.firstRun? text = none ↔ surrogates.Encodes text := by
  unfold Surrogates.firstRun? Surrogates.Encodes
  simp [List.dropWhile_eq_nil_iff]

theorem writeDocument_of_encodes {path document : String} (h : surrogates.Encodes document) :
    surrogates.writeDocument tree directory path document =
      writeDocument tree directory path document := by
  unfold Surrogates.writeDocument
  rw [firstRun?_eq_none_iff.mpr h]

theorem exists_writeDocument_of_not_encodes {path document : String} {location : Location}
    (h : ¬surrogates.Encodes document) (hwritable : tree.Writable directory path location) :
    ∃ run, surrogates.writeDocument tree directory path document =
      ⟨tree.put location (.file "".toUTF8), [], some (.unencodable run)⟩ := by
  rw [← firstRun?_eq_none_iff, ← ne_eq, Option.ne_none_iff_exists'] at h
  obtain ⟨run, hrun⟩ := h
  refine ⟨run, ?_⟩
  unfold Surrogates.writeDocument
  simp only [hrun, writeDocument_of_writable hwritable]

theorem encodes_of_writeDocument {path document : String}
    (h : (surrogates.writeDocument tree directory path document).failure? = none) :
    surrogates.Encodes document := by
  unfold Surrogates.writeDocument at h
  split at h
  · next hnone => exact firstRun?_eq_none_iff.mp hnone
  · simp only at h
    split at h
    · next failure hfailure =>
      rw [hfailure] at h
      cases h
    · cases h

/-- Without surrogates everything can be encoded. -/
theorem encodesDocuments_absent (db : Database) : Surrogates.absent.EncodesDocuments db :=
  ⟨fun _ _ => rfl, fun _ _ => rfl⟩

/-- Where both documents can be encoded, surrogates do not matter. -/
theorem write_of_encodes (h : surrogates.EncodesDocuments db) (place : OutputPlace)
    (tree : FileTree) (directory : Location) :
    surrogates.write db place tree directory = db.write place tree directory := by
  unfold Surrogates.write Database.write Database.saveWith
  simp only [writeDocument_of_encodes h.compile, writeDocument_of_encodes h.link]

/-- Documents that were written can be encoded. -/
theorem encodes_of_write (h : (surrogates.write db place tree directory).failure? = none) :
    surrogates.EncodesDocuments db := by
  unfold Surrogates.write Database.saveWith at h
  rw [Written.failure?_andThen, Written.failure?_andThen] at h
  exact ⟨encodes_of_writeDocument h.1.2, encodes_of_writeDocument h.2⟩

theorem failure?_write_iff :
    (surrogates.write db place tree directory).failure? = none ↔
      surrogates.EncodesDocuments db ∧ (db.write place tree directory).failure? = none := by
  constructor
  · intro h
    have hencodes := encodes_of_write h
    rw [write_of_encodes hencodes] at h
    exact ⟨hencodes, h⟩
  · rintro ⟨hencodes, h⟩
    rwa [write_of_encodes hencodes]

/-- Of documents that cannot both be encoded, the first that cannot leaves an empty file. -/
theorem exists_write_unencodable (h : place.Available tree directory)
    (hnot : ¬surrogates.EncodesDocuments db) :
    ∃ run path,
      (surrogates.write db place tree directory).failure? = some (.unencodable run) ∧
      (surrogates.write db place tree directory).tree.readFile directory path =
        .ok "".toUTF8 ∧
      (¬surrogates.Encodes (compileDocument db.compiles.toList) ∧ path = place.compilePath ∨
        surrogates.Encodes (compileDocument db.compiles.toList) ∧ path = place.linkPath) := by
  obtain ⟨prepared, hprepared, ⟨first, hfirst⟩, ⟨second, hsecond⟩⟩ := h
  have hstart : ∀ next : FileTree → Written,
      (prepareOutput tree directory place.directory).andThen next = next prepared := by
    intro next
    rw [prepareOutput_eq hprepared, Option.map_none, Written.andThen_of_none rfl]
    rfl
  unfold Surrogates.write Database.saveWith
  rw [hstart]
  by_cases hcompile : surrogates.Encodes (compileDocument db.compiles.toList)
  · have hwritten := hsecond.put hfirst.free (compileDocument db.compiles.toList).toUTF8
    obtain ⟨run, hrun⟩ := exists_writeDocument_of_not_encodes
      (fun hlink => hnot ⟨hcompile, hlink⟩) hwritten
    rw [writeDocument_of_encodes hcompile, writeDocument_of_writable hfirst,
      Written.andThen_of_none rfl, hrun]
    exact ⟨run, place.linkPath, rfl, FileTree.readFile_eq_ok_iff.mpr
      ⟨second, hwritten.locate_put _, FileTree.get?_put_self _ _ hwritten.ne_nil⟩,
      Or.inr ⟨hcompile, rfl⟩⟩
  · obtain ⟨run, hrun⟩ := exists_writeDocument_of_not_encodes hcompile hfirst
    rw [hrun]
    exact ⟨run, place.compilePath, rfl, FileTree.readFile_eq_ok_iff.mpr
      ⟨first, hfirst.locate_put _, FileTree.get?_put_self _ _ hfirst.ne_nil⟩,
      Or.inl ⟨hcompile, rfl⟩⟩

end

end BuildCommands
