import BuildCommands.Proofs.Delivery

/-!
# How a run ends

A run checks what it needs, reads the events, and writes only then.  So a run that is refused, by
its arguments, for a package or for bad input, leaves every file as it is.  The exit code is one
exactly for bad input: no events file, too few jobs, or a fault in the events.

    world.build task = .error failure ↔ the run is not prepared, or its events cannot be read
                                                                            (build_eq_error_iff)
    (world.run arguments).exitCode = 1 ↔ the input is bad                 (exitCode_eq_one_iff)
-/

namespace BuildCommands

namespace World

/-! ## Definitions -/

/-- Why the input of a run is bad. -/
inductive BadInput (world : World) (task : Task) : RunFailure → Prop
  | noEvents :
      world.PackagesSuffice → ¬world.FindsEvents task → BadInput world task (.noEvents task.events)
  | badJobs {jobs : Int} :
      world.PackagesSuffice → world.FindsEvents task → task.jobs? = some jobs → jobs < 1 →
        BadInput world task (.badJobs jobs)
  | events {jobs : Int} {failure : EventFailure} :
      world.PackagesSuffice → world.FindsEvents task → task.jobs? = some jobs → 1 ≤ jobs →
        world.read task.events = .error (.faulty failure) → BadInput world task (.events failure)

variable {world : World} {task : Task} {failure : RunFailure}

/-! ## Before the documents -/

theorem events_eq_error_iff {path : String} :
    world.events path = .error failure ↔
      (∃ fault, failure = .undecodable fault ∧ world.read path = .error (.undecodable fault)) ∨
        (∃ excess, failure = .exceeded excess ∧ world.read path = .error (.exceeded excess)) ∨
        ∃ fault, failure = .events fault ∧ world.read path = .error (.faulty fault) := by
  unfold World.events
  cases world.read path with
  | ok events => simp
  | error reason => cases reason <;> simp [eq_comm]

/-- A build fails before its session begins or not at all. -/
theorem build_eq_error_iff :
    world.build task = .error failure ↔ prepare world task = .error failure ∨
      prepare world task = .ok () ∧ world.events task.events = .error failure := by
  unfold World.build
  constructor
  · intro h
    rcases bind_eq_error_iff.mp h with h | ⟨_, hprepare, h⟩
    · exact Or.inl h
    rcases bind_eq_error_iff.mp h with h | ⟨events, -, h⟩
    · exact Or.inr ⟨hprepare, h⟩
    -- a session takes whatever events are read
    · obtain ⟨build, order, hbuild, -, -⟩ :=
        Build.ofEvents_eq world.workingPath task.threads world.schedule events
      rw [hbuild] at h
      cases h
  · rintro (h | ⟨hprepare, h⟩)
    · exact bind_eq_error_iff.mpr (Or.inl h)
    · exact bind_eq_error_iff.mpr (Or.inr ⟨(), hprepare, bind_eq_error_iff.mpr (Or.inl h)⟩)

/-! ## Bad input -/

theorem BadInput.exitCode (h : world.BadInput task failure) : failure.exitCode = 1 := by
  cases h <;> rfl

theorem BadInput.build_eq (h : world.BadInput task failure) :
    world.build task = .error failure := by
  rw [build_eq_error_iff]
  cases h with
  | noEvents hpackages hmissing => exact Or.inl (prepare_of_noEvents hpackages hmissing)
  | badJobs hpackages hfound hjobs hlow =>
    rw [prepare_of_found hpackages hfound, hjobs]
    exact Or.inl (if_pos hlow)
  | events hpackages hfound hjobs hhigh hread =>
    exact Or.inr ⟨prepare_eq_ok_iff.mpr ⟨hpackages, hfound, _, hjobs, hhigh⟩,
      events_eq_error_iff.mpr (Or.inr (Or.inr ⟨_, rfl, hread⟩))⟩

/-- A run that is not prepared has bad input, unless it lacks a package or its setting is void. -/
theorem badInput_of_prepare (hprepare : prepare world task = .error failure)
    (hcode : failure.exitCode = 1) : world.BadInput task failure := by
  by_cases hpackages : world.PackagesSuffice
  · by_cases hfound : world.FindsEvents task
    · rw [prepare_of_found hpackages hfound] at hprepare
      split at hprepare
      · cases hprepare
        cases hcode
      · next jobs hjobs =>
        split at hprepare
        · next hlow =>
          cases hprepare
          exact .badJobs hpackages hfound hjobs hlow
        · cases hprepare
    · rw [prepare_of_noEvents hpackages hfound] at hprepare
      cases hprepare
      exact .noEvents hpackages hfound
  · obtain ⟨complaint, hrefused⟩ := prepare_of_package task hpackages
    rw [hrefused] at hprepare
    cases hprepare
    cases hcode

/-- Bad input ends the build, and no other failure of a build counts as bad input. -/
theorem badInput_iff :
    world.BadInput task failure ↔ world.build task = .error failure ∧ failure.exitCode = 1 := by
  refine ⟨fun h => ⟨h.build_eq, h.exitCode⟩, ?_⟩
  rintro ⟨hbuild, hcode⟩
  rcases build_eq_error_iff.mp hbuild with hprepare | ⟨hprepare, hevents⟩
  · exact badInput_of_prepare hprepare hcode
  · obtain ⟨hpackages, hfound, jobs, hjobs, hhigh⟩ := prepare_eq_ok_iff.mp hprepare
    rcases events_eq_error_iff.mp hevents with
      ⟨fault, rfl, -⟩ | ⟨excess, rfl, -⟩ | ⟨fault, rfl, hread⟩
    · cases hcode
    · cases hcode
    · exact .events hpackages hfound hjobs hhigh hread

/-! ## Runs -/

section

variable {arguments : List String} {display : Display}

/-- A run whose build fails says why, and leaves the files as they are. -/
theorem run_of_build_error (hrequest : Request.ofArguments arguments = .run task display)
    (hbuild : world.build task = .error failure) :
    world.run arguments = ⟨failure.exitCode, [failure.message], world.tree,
      world.paletteFor display, display.verbose⟩ := by
  unfold run perform
  rw [hrequest]
  simp only [hbuild]

/-- What goes wrong with the documents is not bad input. -/
theorem exitCode_of_deliver {db : Database}
    (h : (world.deliver db task).outcome = .error failure) : failure.exitCode = 2 := by
  unfold deliver Written.deliver at h
  split at h
  · split at h <;> cases h
    rfl
  split at h
  · cases h
    rfl
  · split at h <;> cases h <;> rfl

/-- A run ends with exit code one exactly when its input is bad. -/
theorem exitCode_eq_one_iff :
    (world.run arguments).exitCode = 1 ↔ ∃ task display failure,
      Request.ofArguments arguments = .run task display ∧ world.BadInput task failure := by
  constructor
  · intro h
    unfold run at h
    split at h
    · cases h
    · cases h
    · cases h
    · next task display hrequest =>
      unfold perform at h
      cases hbuild : world.build task with
      | error failure =>
        rw [hbuild] at h
        exact ⟨task, display, failure, hrequest, badInput_iff.mpr ⟨hbuild, h⟩⟩
      | ok build =>
        rw [hbuild] at h
        cases houtcome : (world.deliver build.database task).outcome with
        | error failure =>
          simp only [houtcome, exitCode_of_deliver houtcome] at h
          cases h
        | ok place =>
          simp only [houtcome, conclude_exitCode] at h
          split at h <;> cases h
  · rintro ⟨task, display, failure, hrequest, hbad⟩
    rw [run_of_build_error hrequest (badInput_iff.mp hbad).1]
    exact hbad.exitCode

/-- A run that is refused leaves the files as they are: by its arguments, for a package, or for bad
input, which is what exit code one stands for. -/
theorem run_tree_of_refused (world : World) (arguments : List String) :
    ((world.run arguments).exitCode = 1 ↔ ∃ task display failure,
      Request.ofArguments arguments = .run task display ∧ world.BadInput task failure) ∧
    ((world.run arguments).exitCode = 1 ∨
        (∃ fault, Request.ofArguments arguments = .refused fault) ∨
        (∃ task display, Request.ofArguments arguments = .run task display ∧
          ¬world.PackagesSuffice) →
      (world.run arguments).tree = world.tree) := by
  refine ⟨exitCode_eq_one_iff, ?_⟩
  rintro (hexit | ⟨fault, hrequest⟩ | ⟨task, display, hrequest, hpackages⟩)
  · obtain ⟨task, display, failure, hrequest, hbad⟩ := exitCode_eq_one_iff.mp hexit
    rw [run_of_build_error hrequest (badInput_iff.mp hbad).1]
  · unfold run
    rw [hrequest]
    rfl
  · obtain ⟨complaint, hprepare⟩ := prepare_of_package task hpackages
    rw [run_of_build_error hrequest (build_eq_error_iff.mpr (Or.inl hprepare))]

/-- A compiler's run, and behind it an event without a command line. -/
def lateFault : ByteArray := String.toUTF8 <|
  "\x7b\"taskName\":\"CL\",\"commandLineText\":\"cl.exe /c a.c\",\"projectFilePath\":\"\"\x7d" ++
  "\n\x7b\"taskName\":\"CL\"\x7d"

/-- The run finds the fault on the second line, and does not make its output directory. -/
theorem run_tree_of_late_fault :
    (ofFile lateFault).BadInput ⟨"e.jsonl", ⟨some "out", some "c.json", some "l.json"⟩, some 1⟩
        (.events ⟨.badField "commandLineText", 2⟩) ∧
      let run := (ofFile lateFault).run
        ["e.jsonl", "-o", "out", "--compile-output", "c.json", "--link-output=l.json"]
      run.exitCode = 1 ∧ run.tree = (ofFile lateFault).tree := by
  have hbad : (ofFile lateFault).BadInput
      ⟨"e.jsonl", ⟨some "out", some "c.json", some "l.json"⟩, some 1⟩
      (.events ⟨.badField "commandLineText", 2⟩) :=
    .events (packagesSuffice_of_requirements rfl) (Or.inr (by decide +kernel)) rfl (by decide)
      (by decide +kernel)
  obtain ⟨hcode, htree⟩ := run_tree_of_refused (ofFile lateFault)
    ["e.jsonl", "-o", "out", "--compile-output", "c.json", "--link-output=l.json"]
  have hexit := hcode.mpr ⟨_, .usual, _, by decide +kernel, hbad⟩
  exact ⟨hbad, hexit, htree (Or.inl hexit)⟩

end

end World

end BuildCommands
