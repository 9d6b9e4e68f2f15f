import BuildCommands.Proofs.Documents
import BuildCommands.Proofs.DocumentWriting

/-!
# The files of the documents

Both documents of a database are written one behind the other.  The second is always there
afterwards.  The first is there as well unless both paths lead to one file, which the second write
then takes from it; only databases without records have the same two documents.

    compileDocument compiles = linkDocument links ↔ both have no records
                                                              (compileDocument_eq_linkDocument_iff)
    both documents are there ↔ the paths lead to different files, or there are no records
                                                                             (keeps_documents_iff)

Whether two paths lead to one file is seen in the tree that is left, where both files are there.
Paths with different last names never do.
-/

namespace BuildCommands

theorem toUTF8_inj {s t : String} : s.toUTF8 = t.toUTF8 ↔ s = t := by
  rw [String.toUTF8_eq_toByteArray, String.toUTF8_eq_toByteArray, String.toByteArray_inj]

/-- The two documents are the same only if they are empty: their objects start with different
fields. -/
theorem compileDocument_eq_linkDocument_iff {compiles : List CompileRecord}
    {links : List LinkRecord} :
    compileDocument compiles = linkDocument links ↔ compiles = [] ∧ links = [] := by
  constructor
  · intro h
    let reader := Json.Reader.free .absent
    have hread := parse_records reader LinkRecord.spells_toJson
      (LinkRecord.fits_toJson reader) links
    have hsame := parse_records reader CompileRecord.spells_toJson
      (CompileRecord.fits_toJson reader) compiles
    rw [show (Json.array (compiles.map CompileRecord.toJson)).render ++ "\n" =
      (Json.array (links.map LinkRecord.toJson)).render ++ "\n" from h, hread, Except.ok.injEq,
      Json.array.injEq] at hsame
    cases compiles with
    | nil => exact ⟨rfl, List.map_eq_nil_iff.mp hsame⟩
    | cons compile compiles =>
      cases links with
      | nil => cases hsame
      | cons link links =>
        simp [CompileRecord.toJson, LinkRecord.toJson] at hsame
  · rintro ⟨rfl, rfl⟩
    rfl

section

variable {db : Database} {place : OutputPlace} {tree : FileTree} {directory : Location}

/-- The link document is there after both documents were written.  The compile document is there
exactly when the paths lead to different files or there are no records, and so it is whenever the
paths have different last names. -/
theorem keeps_documents_iff (h : (db.write place tree directory).failure? = none) :
    (db.write place tree directory).tree.readFile directory place.linkPath =
        .ok (linkDocument db.links.toList).toUTF8 ∧
      ((db.write place tree directory).tree.readFile directory place.compilePath =
          .ok (compileDocument db.compiles.toList).toUTF8 ↔
        (db.write place tree directory).tree.locate directory place.compilePath ≠
            (db.write place tree directory).tree.locate directory place.linkPath ∨
          db.compiles = #[] ∧ db.links = #[]) ∧
      ((FileTree.names place.compilePath).getLast? ≠ (FileTree.names place.linkPath).getLast? →
        (db.write place tree directory).tree.locate directory place.compilePath ≠
          (db.write place tree directory).tree.locate directory place.linkPath) := by
  obtain ⟨first, second, hcompile, hlink, hfirst, hsecond, hlast, hkept⟩ :=
    exists_places_of_write h
  refine ⟨FileTree.readFile_eq_ok_iff.mpr ⟨second, hlink, hlast⟩, ?_, ?_⟩
  · rw [hcompile, hlink, ne_eq, Except.ok.injEq]
    by_cases hsame : first = second
    · -- the link document is what the one file holds
      have hread := FileTree.readFile_eq_ok_iff.mpr ⟨first, hcompile, by rw [hsame, hlast]⟩
      rw [hread, Except.ok.injEq, toUTF8_inj, eq_comm, compileDocument_eq_linkDocument_iff,
        Array.toList_eq_nil_iff, Array.toList_eq_nil_iff]
      exact ⟨Or.inr, fun h => h.resolve_left fun hne => hne hsame⟩
    · have hread := FileTree.readFile_eq_ok_iff.mpr ⟨first, hcompile, hkept hsame⟩
      exact ⟨fun _ => Or.inl hsame, fun _ => hread⟩
  · rw [hcompile, hlink, ← hfirst, ← hsecond]
    intro hnames hplaces
    exact hnames (congrArg List.getLast? (Except.ok.inj hplaces))

/-- Both documents are there, one by a path from the root and one by a path through it. -/
theorem keeps_documents_iff_spellings :
    let db : Database := ⟨#[⟨"cl.exe /c a.c", "p", "a.c"⟩], #[⟨"link.exe a.obj", "p", ["a.obj"]⟩]⟩
    let place : OutputPlace := ⟨"out", "/work/c.json", "../../work//./l.json"⟩
    let tree : FileTree := ⟨[(["work"], .directory)]⟩
    let written := db.write place tree ["work"]
    written.failure? = none ∧
      place.compilePath = "/work/c.json" ∧ place.linkPath = "out/../../work//./l.json" ∧
      written.tree.readFile ["work"] place.compilePath =
        .ok (compileDocument db.compiles.toList).toUTF8 ∧
      written.tree.readFile ["work"] place.linkPath =
        .ok (linkDocument db.links.toList).toUTF8 := by
  intro db place tree written
  have hwritten : (db.write place tree ["work"]).failure? = none := by decide +kernel
  obtain ⟨hlink, hcompile, hnames⟩ := keeps_documents_iff hwritten
  have hplaces := hnames (by decide +kernel)
  exact ⟨hwritten, by decide +kernel, by decide +kernel, hcompile.mpr (Or.inl hplaces), hlink⟩

/-- A compile record is lost if both documents are written to one file. -/
theorem compile_document_overwritten :
    let db : Database := ⟨#[⟨"cl.exe /c a.c", "p", "a.c"⟩], #[]⟩
    let place : OutputPlace := ⟨".", "db.json", "db.json"⟩
    let tree : FileTree := ⟨[(["work"], .directory)]⟩
    let written := db.write place tree ["work"]
    written.failure? = none ∧
      written.tree.readFile ["work"] place.compilePath =
        .ok (linkDocument db.links.toList).toUTF8 ∧
      written.tree.readFile ["work"] place.compilePath ≠
        .ok (compileDocument db.compiles.toList).toUTF8 := by
  intro db place tree written
  refine ⟨?_, ?_, ?_⟩ <;> decide +kernel

end

end BuildCommands
