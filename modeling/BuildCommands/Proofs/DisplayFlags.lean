import BuildCommands.Proofs.Outcomes

/-!
# What is shown does not matter

What a run is to show comes in when all is done: it decides on neither the exit code nor the files.
This is so for two runs of the same task in the same world, where threads take turns in any way.

    schedules that agree, or one thread    the files are identical
    other schedules                        the documents hold the same records in another order
                                                                                    (run_display)

One thing is left that shows: if nobody reads the output, a summary breaks off and the run ends
well, but that the one line of a success cannot be printed is a failure.
-/

namespace BuildCommands

/-! ## Definitions -/

/-- The same records, in any order. -/
structure Database.SameRecords (db other : Database) : Prop where
  compiles : db.compiles.toList.Perm other.compiles.toList
  links : db.links.toList.Perm other.links.toList

theorem Database.SameRecords.symm {db other : Database} (h : db.SameRecords other) :
    other.SameRecords db :=
  ⟨h.compiles.symm, h.links.symm⟩

/-- What two runs of a task may leave: the same files, or what becomes of them when documents of the
same records are written. -/
def World.SameDocuments (world : World) (task : Task) (tree other : FileTree) : Prop :=
  tree = other ∨ ∃ (place : OutputPlace) (db db' : Database),
    task.place.place? = some place ∧ db.SameRecords db' ∧
    tree = ((world.surrogates task.events).write db place world.tree world.directory).tree ∧
    other = ((world.surrogates task.events).write db' place world.tree world.directory).tree

namespace World

variable {world : World} {task : Task}

/-! ## Schedules -/

/-- One thread has nobody to take turns with. -/
theorem ofEvents_of_le_one {threads : Nat} (h : threads ≤ 1) (base : String)
    (schedule schedule' : Nat → Nat) (events : List BuildEvent) :
    Build.ofEvents base threads schedule events = Build.ofEvents base threads schedule' events := by
  unfold Build.ofEvents
  rw [Session.processOn_of_le_one h, Session.processOn_of_le_one h]

/-- Records of the events in two orders. -/
theorem sameRecords_of_replays {build other : Build} {base : String}
    {events order order' : List BuildEvent} (h : build.Replays base events order)
    (h' : other.Replays base events order') : build.database.SameRecords other.database := by
  have hperm := h.perm.trans h'.perm.symm
  rw [h.database, h'.database]
  exact ⟨Database.compiles_replay_perm _ hperm, Database.links_replay_perm _ hperm⟩

/-- With another schedule a build fails for the same reason, or has the same records. -/
theorem build_schedule (world : World) (task : Task) (schedule : Nat → Nat) :
    (∃ failure, world.build task = .error failure ∧
        { world with schedule }.build task = .error failure) ∨
      ∃ build other, world.build task = .ok build ∧
        { world with schedule }.build task = .ok other ∧
        build.database.SameRecords other.database ∧
        (task.threads ≤ 1 ∨ schedule = world.schedule → other = build) := by
  cases hbuild : world.build task with
  | error failure =>
    have hother := build_eq_error_iff.mp hbuild
    exact Or.inl ⟨failure, rfl, build_eq_error_iff.mpr hother⟩
  | ok build =>
    obtain ⟨hprepare, events, hevents, replayed, hreplayed, rfl⟩ := build_eq_ok_iff.mp hbuild
    obtain ⟨found, order, hfound, hreplays, -⟩ :=
      Build.ofEvents_eq world.workingPath task.threads world.schedule events
    cases hfound.symm.trans hreplayed
    obtain ⟨other, order', hother, hreplays', -⟩ :=
      Build.ofEvents_eq world.workingPath task.threads schedule events
    have hsame := sameRecords_of_replays hreplays hreplays'
    refine Or.inr ⟨_, _, rfl, build_eq_ok_iff.mpr ⟨hprepare, events, hevents, other, hother, rfl⟩,
      ⟨hsame.compiles, hsame.links⟩, ?_⟩
    intro hturns
    have heq : Build.ofEvents world.workingPath task.threads schedule events =
        Build.ofEvents world.workingPath task.threads world.schedule events := by
      rcases hturns with hone | rfl
      · exact ofEvents_of_le_one hone _ _ _ _
      · rfl
    rw [hother, hreplayed] at heq
    rw [Except.ok.inj heq]
    rfl

/-! ## Documents of the same records -/

/-- Documents of the same records are delivered to the same place or not at all. -/
theorem deliver_sameRecords {db other : Database} (h : db.SameRecords other) {place : OutputPlace}
    (hdelivers : (world.deliver db task).outcome = .ok place) :
    (world.deliver other task).outcome = .ok place := by
  rw [deliver_eq_ok_iff] at hdelivers ⊢
  obtain ⟨hplace, hwrite⟩ := hdelivers
  obtain ⟨hencodes, hwrite⟩ := failure?_write_iff.mp hwrite
  exact ⟨hplace, failure?_write_iff.mpr
    ⟨hencodes.perm h.compiles h.links, failure?_write_of_other hwrite⟩⟩

theorem sameDocuments_deliver {db other : Database} (h : db.SameRecords other) :
    world.SameDocuments task (world.deliver db task).tree (world.deliver other task).tree := by
  unfold SameDocuments deliver
  cases hplace : task.place.place? with
  | some place => exact Or.inr ⟨place, db, other, rfl, h, rfl, rfl⟩
  | none => exact Or.inl rfl

/-! ## Runs -/

theorem perform_of_undelivered {build : Build} {failure : RunFailure} {asSummary : Bool}
    (hbuild : world.build task = .ok build)
    (houtcome : (world.deliver build.database task).outcome = .error failure) :
    world.perform task asSummary =
      (2, (build.log ++ (world.deliver build.database task).log).map .note ++ [failure.message],
        (world.deliver build.database task).tree) := by
  unfold perform
  simp only [hbuild, houtcome, exitCode_of_deliver houtcome]

theorem perform_of_delivered {build : Build} {place : OutputPlace} (asSummary : Bool)
    (hbuild : world.build task = .ok build)
    (houtcome : (world.deliver build.database task).outcome = .ok place) :
    world.perform task asSummary =
      ((world.conclude build place asSummary).1,
        (build.log ++ (world.deliver build.database task).log).map .note ++
          (world.conclude build place asSummary).2,
        (world.deliver build.database task).tree) := by
  unfold perform
  simp only [hbuild, houtcome]

/-- What is to be shown, and how threads take turns, decide on neither the exit code nor the files
but for the order of the records; and on the messages of a failure only through the schedule. -/
theorem perform_display (world : World) (task : Task) (schedule : Nat → Nat)
    (asSummary other : Bool) :
    let run := world.perform task asSummary
    let again := { world with schedule }.perform task other
    (world.prints? ≠ some 0 ∨ asSummary = other → run.1 = again.1) ∧
      world.SameDocuments task run.2.2 again.2.2 ∧
      (task.threads ≤ 1 ∨ schedule = world.schedule →
        run.2.2 = again.2.2 ∧
        (world.prints? ≠ some 0 ∧ run.1 ≠ 0 ∨ asSummary = other → run.2.1 = again.2.1)) ∧
      (world.prints? = some 0 → asSummary = true → other = false → run.1 = 0 → again.1 = 2) := by
  intro run again
  rcases build_schedule world task schedule with
    ⟨failure, hbuild, hagain⟩ | ⟨build, build', hbuild, hagain, hrecords, hturns⟩
  · have hsame : run = again := by
      simp only [run, again, perform, hbuild, hagain]
    have hcode : run.1 = failure.exitCode := by
      simp only [run, perform, hbuild]
    rw [← hsame]
    exact ⟨fun _ => rfl, Or.inl rfl, fun _ => ⟨rfl, fun _ => rfl⟩,
      fun _ _ _ h => absurd (hcode.symm.trans h) failure.exitCode_ne_zero⟩
  have hfiles : world.SameDocuments task (world.deliver build.database task).tree
      (world.deliver build'.database task).tree := sameDocuments_deliver hrecords
  rcases houtcome : (world.deliver build.database task).outcome with failure | place
  · have hother : ∃ failure', (world.deliver build'.database task).outcome = .error failure' := by
      cases hdelivers : (world.deliver build'.database task).outcome with
      | error failure' => exact ⟨failure', rfl⟩
      | ok place =>
        rw [deliver_sameRecords hrecords.symm hdelivers] at houtcome
        cases houtcome
    obtain ⟨failure', hother⟩ := hother
    have hrun : run = (2, (build.log ++ (world.deliver build.database task).log).map .note ++
        [failure.message], (world.deliver build.database task).tree) :=
      perform_of_undelivered hbuild houtcome
    have hagain : again = (2, (build'.log ++ (world.deliver build'.database task).log).map .note ++
        [failure'.message], (world.deliver build'.database task).tree) :=
      perform_of_undelivered hagain hother
    rw [hrun, hagain]
    refine ⟨fun _ => rfl, hfiles, fun h => ?_, fun _ _ _ h => nomatch h⟩
    cases hturns h
    cases houtcome.symm.trans hother
    exact ⟨rfl, fun _ => rfl⟩
  · have hother := deliver_sameRecords hrecords houtcome
    have hrun : run = ((world.conclude build place asSummary).1,
        (build.log ++ (world.deliver build.database task).log).map .note ++
          (world.conclude build place asSummary).2,
        (world.deliver build.database task).tree) := perform_of_delivered asSummary hbuild houtcome
    have hagain : again = ((world.conclude build' place other).1,
        (build'.log ++ (world.deliver build'.database task).log).map .note ++
          (world.conclude build' place other).2,
        (world.deliver build'.database task).tree) := perform_of_delivered other hagain hother
    rw [hrun, hagain]
    simp only [conclude_exitCode]
    refine ⟨?_, hfiles, fun h => ?_, ?_⟩
    · rintro (hread | rfl)
      · rw [if_neg fun h => hread h.2, if_neg fun h => hread h.2]
      · rfl
    · cases hturns h
      refine ⟨rfl, ?_⟩
      rintro (⟨hread, hfails⟩ | rfl)
      · exact absurd (if_neg fun h => hread h.2) hfails
      · rfl
    · rintro hunread rfl rfl -
      exact if_pos ⟨rfl, hunread⟩

/-- On one thread, or with the same turns, a task comes to the same. -/
theorem perform_schedule {schedule : Nat → Nat}
    (h : task.threads ≤ 1 ∨ schedule = world.schedule) (asSummary : Bool) :
    { world with schedule }.perform task asSummary = world.perform task asSummary := by
  obtain ⟨hcode, -, hsame, -⟩ := perform_display world task schedule asSummary asSummary
  obtain ⟨htree, hmessages⟩ := hsame h
  exact (Prod.ext (hcode (Or.inr rfl)) (Prod.ext (hmessages (Or.inr rfl)) htree)).symm

section

variable {arguments others : List String} {display other : Display}

end

end World

end BuildCommands
