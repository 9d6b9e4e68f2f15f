import BuildCommands.Proofs.Outcomes
import BuildCommands.Proofs.Utf8

/-!
# Events files

An events file is read as a text if its bytes hold one, perhaps behind a byte order mark, and then
every fault in it is bad input.  Bytes that hold no text are no such fault: they end the run as what
nothing was prepared for does.  So does a text beyond the limits of the JSON reader.

    readEvents reader tree directory input path = eventsOfText reader text
                                               if the file holds `text` (readEvents_of_holdsText)
    a file that holds no text is undecodable                    (exists_undecodable_of_no_text)
-/

namespace BuildCommands

/-! ## Definitions -/

/-- The bytes hold the text, perhaps behind a byte order mark. -/
def Text.HoldsText (bytes : List UInt8) (text : List Char) : Prop :=
  dropByteOrderMark bytes = encode text

/-! ## Reading -/

/-- What a text holds is never undecodable. -/
theorem eventsOfText_cases (reader : Json.Reader) (text : List Char) :
    (∃ events, eventsOfText reader text = .ok events) ∨
      (∃ failure, eventsOfText reader text = .error (.faulty failure)) ∨
      ∃ excess, eventsOfText reader text = .error (.exceeded excess) := by
  unfold eventsOfText
  split
  · next events _ => exact Or.inl ⟨events, rfl⟩
  · next failure _ => exact Or.inr (Or.inl ⟨failure, rfl⟩)
  · next excess _ => exact Or.inr (Or.inr ⟨excess, rfl⟩)

section

variable {reader : Json.Reader} {tree : FileTree} {directory : Location} {content : ByteArray}
  {path : String}
  (input : ByteArray)

/-- A file that holds a text is read as the text. -/
theorem readEvents_of_holdsText (hpath : path ≠ "-")
    (hfile : tree.readFile directory path = .ok content) {text : List Char}
    (htext : Text.HoldsText content.toList text) :
    readEvents reader tree directory input path = eventsOfText reader text := by
  have hdecode : Text.decodeMarked content.toList = .ok text := Text.decode_eq_ok_iff.mpr htext
  unfold readEvents
  rw [if_neg hpath, hfile]
  simp only [hdecode]

/-- A file that holds no text is undecodable. -/
theorem exists_undecodable_of_no_text (hpath : path ≠ "-")
    (hfile : tree.readFile directory path = .ok content)
    (htext : ∀ text, ¬Text.HoldsText content.toList text) :
    ∃ fault, readEvents reader tree directory input path = .error (.undecodable fault) := by
  obtain ⟨fault, hdecode⟩ := Text.exists_fault_iff.mpr htext
  refine ⟨fault, ?_⟩
  unfold readEvents Text.decodeMarked
  rw [if_neg hpath, hfile]
  simp only [hdecode]

end

namespace World

/-! ## Runs -/

variable {world : World} {task : Task} {arguments : List String} {display : Display} {jobs : Int}
  {content : ByteArray}

/-- A run that has what it needs reads an events file that holds a text, or reports the fault in it
as bad input.  A text beyond the limits of the reader, and a file that holds no text, end the run
with a failure nothing was prepared for. -/
theorem run_of_content (hrequest : Request.ofArguments arguments = .run task display)
    (hpackages : world.PackagesSuffice) (hjobs : task.jobs? = some jobs) (hhigh : 1 ≤ jobs)
    (hpath : task.events ≠ "-")
    (hfile : world.tree.readFile world.directory task.events = .ok content) :
    let reader : Json.Reader := ⟨world.limits, world.surrogates task.events⟩
    (∀ text, Text.HoldsText content.toList text →
      (∃ events build, eventsOfText reader text = .ok events ∧
          world.read task.events = .ok events ∧ world.build task = .ok build) ∨
        (∃ failure, eventsOfText reader text = .error (.faulty failure) ∧
          world.read task.events = .error (.faulty failure) ∧
          world.run arguments = ⟨1, [.failure true failure.message], world.tree,
            world.paletteFor display, display.verbose⟩) ∨
        ∃ excess, eventsOfText reader text = .error (.exceeded excess) ∧
          world.read task.events = .error (.exceeded excess) ∧
          world.run arguments = ⟨2, [fatal excess.message], world.tree,
            world.paletteFor display, display.verbose⟩) ∧
    ((∀ text, ¬Text.HoldsText content.toList text) →
      ∃ fault, world.read task.events = .error (.undecodable fault) ∧
        world.run arguments = ⟨2, [fatal fault.message], world.tree,
          world.paletteFor display, display.verbose⟩) := by
  intro reader
  have hfound : world.FindsEvents task := Or.inr (FileTree.isFile_of_readFile hfile)
  have hprepare : prepare world task = .ok () :=
    prepare_eq_ok_iff.mpr ⟨hpackages, hfound, jobs, hjobs, hhigh⟩
  have hrefused : ∀ failure, world.events task.events = .error failure →
      world.run arguments = ⟨failure.exitCode, [failure.message], world.tree,
        world.paletteFor display, display.verbose⟩ := fun failure hevents =>
    run_of_build_error hrequest (build_eq_error_iff.mpr (Or.inr ⟨hprepare, hevents⟩))
  constructor
  · intro text htext
    have hread : world.read task.events = eventsOfText reader text :=
      readEvents_of_holdsText world.input hpath hfile htext
    rcases eventsOfText_cases reader text with
      ⟨events, hevents⟩ | ⟨failure, hfailure⟩ | ⟨excess, hexcess⟩
    · rw [hevents] at hread
      obtain ⟨build, order, hbuild, -⟩ := exists_build hprepare hread
      exact Or.inl ⟨events, _, hevents, hread, hbuild⟩
    · rw [hfailure] at hread
      exact Or.inr (Or.inl ⟨failure, hfailure, hread,
        hrefused _ (events_eq_error_iff.mpr (Or.inr (Or.inr ⟨failure, rfl, hread⟩)))⟩)
    · rw [hexcess] at hread
      exact Or.inr (Or.inr ⟨excess, hexcess, hread,
        hrefused _ (events_eq_error_iff.mpr (Or.inr (Or.inl ⟨excess, rfl, hread⟩)))⟩)
  · intro htext
    obtain ⟨fault, hread⟩ := exists_undecodable_of_no_text world.input hpath hfile htext
    exact ⟨fault, hread, hrefused _ (events_eq_error_iff.mpr (Or.inl ⟨fault, rfl, hread⟩))⟩

/-- A byte order mark, and an event that is no object. -/
def markedFault : ByteArray := ⟨#[0xef, 0xbb, 0xbf, 0x37]⟩

/-- The mark is dropped, and the fault is reported as bad input. -/
theorem run_of_content_marked :
    let world := ofFile markedFault
    Text.HoldsText markedFault.toList ['7'] ∧
      world.read "e.jsonl" = .error (.faulty ⟨.notObject "int", 1⟩) ∧
      (world.run ["e.jsonl"]).exitCode = 1 ∧
      (world.run ["e.jsonl"]).messages =
        [.failure true "line 1: expected a JSON object, got int"] := by
  intro world
  have htext : Text.HoldsText markedFault.toList ['7'] := by
    unfold Text.HoldsText
    decide +kernel
  have hrequest : Request.ofArguments ["e.jsonl"] =
      .run ⟨"e.jsonl", .of .usual, some 1⟩ .usual := by decide +kernel
  have hpackages : world.PackagesSuffice := packagesSuffice_of_requirements rfl
  obtain ⟨hreads, -⟩ := run_of_content hrequest hpackages rfl (by decide) (by decide) rfl
  have hfault : eventsOfText ⟨world.limits, world.surrogates "e.jsonl"⟩ ['7'] =
      .error (.faulty ⟨.notObject "int", 1⟩) := by decide +kernel
  rcases hreads _ htext with
    ⟨events, _, hevents, -⟩ | ⟨failure, hfailure, hread, hrun⟩ | ⟨excess, hexcess, -⟩
  · rw [hfault] at hevents
    cases hevents
  · rw [hfault] at hfailure
    cases hfailure
    refine ⟨htext, hread, ?_⟩
    rw [hrun]
    exact ⟨rfl, by decide +kernel⟩
  · rw [hfault] at hexcess
    cases hexcess

/-- A byte that starts no character ends the run as a failure that nothing was prepared for. -/
theorem undecodable_file_fatal :
    let world := ofFile ⟨#[0xff]⟩
    world.tree.readFile world.directory "e.jsonl" = .ok ⟨#[0xff]⟩ ∧
      world.read "e.jsonl" = .error (.undecodable ⟨0, [0xff], .startByte⟩) ∧
      (world.run ["e.jsonl"]).exitCode = 2 ∧
      (world.run ["e.jsonl"]).transcript .error =
        "Fatal error: 'utf-8' codec can't decode byte 0xff in position 0: invalid start byte" ++
          "\n" := by
  intro world
  refine ⟨rfl, ?_, ?_, ?_⟩ <;> decide +kernel

end World

end BuildCommands
