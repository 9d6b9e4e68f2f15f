import BuildCommands.Proofs.DocumentTexts
import BuildCommands.Proofs.Documents
import BuildCommands.Proofs.Preparation
import BuildCommands.Proofs.Printing
import BuildCommands.Proofs.Threads

/-!
# What a run delivers

A run that goes well leaves two documents, and they are those of the records that a session makes of
the events it read.  What it prints counts the entries of the documents.  A run whose events can be
read and whose documents can be written goes well unless a document holds a surrogate; nothing else
in an event stands in its way.

    world.build task = .ok build  ↔ the run is prepared, its events are read, and `build` is what
                                    a session comes to over them                (build_eq_ok_iff)
    run_documents                   what a run leaves and prints when it goes well, and when it does
    lone_surrogate_fatal            an event with half of a pair ends the run
-/

namespace BuildCommands

/-- Documents are delivered when nothing failed and something is to be delivered. -/
theorem Written.deliver_eq_ok_iff {written : Written} {outcome : Except RunFailure OutputPlace}
    {place : OutputPlace} :
    (written.deliver outcome).outcome = .ok place ↔
      written.failure? = none ∧ outcome = .ok place := by
  unfold deliver
  cases written.failure? with
  | none => exact ⟨fun h => ⟨rfl, h⟩, And.right⟩
  | some failure => exact ⟨nofun, fun h => nomatch h.1⟩

/-! ## Builds -/

/-- What a build comes to: the records are those of the events in some order, and all else is what a
session comes to over them, but for the order of the notes. -/
structure Build.Replays (build : Build) (base : String) (events order : List BuildEvent) : Prop where
  perm : order.Perm events
  database : build.database = Database.empty.replay base order
  statistics : build.statistics = ((Session.start base).replay events).statistics
  log : build.log.Perm
    (((Session.start base).replay events).log.toList ++ [Session.finishNote build.database])

/-- Events are built, whatever they are, and in their order unless several are handled at a time. -/
theorem Build.ofEvents_eq (base : String) (threads : Nat) (schedule : Nat → Nat)
    (events : List BuildEvent) :
    ∃ build order, Build.ofEvents base threads schedule events = .ok build ∧
      build.Replays base events order ∧ (threads ≤ 1 → order = events) := by
  obtain ⟨order, session, hperm, hprocess, hdatabase, hstatistics, hlog, horder⟩ :=
    Session.processOn_start base threads schedule events
  have hlive : session.database? = some (Database.empty.replay base order) := hdatabase
  have hfinish : ∃ finished, session.finish = .ok (finished, Database.empty.replay base order) ∧
      finished.statistics = session.statistics ∧ finished.log =
        session.log.push (Session.finishNote (Database.empty.replay base order)) := by
    unfold Session.finish
    rw [hlive]
    exact ⟨_, rfl, rfl, rfl⟩
  obtain ⟨finished, hfinish, hsame, hnote⟩ := hfinish
  have hended := congrArg (Except.mapError SessionFault.finished) hfinish
  refine ⟨⟨_, finished.statistics, finished.log.toList⟩, order,
    bind_eq_ok_iff.mpr ⟨session, hprocess, bind_eq_ok_iff.mpr ⟨_, hended, rfl⟩⟩,
    ⟨hperm, rfl, hsame.trans hstatistics, ?_⟩, horder⟩
  simp only [hnote]
  rw [Array.toList_push]
  exact hlog.append_right _

theorem RunFailure.exitCode_ne_zero (failure : RunFailure) : failure.exitCode ≠ 0 := by
  cases failure <;> simp [RunFailure.exitCode]

namespace World

variable {world : World} {task : Task}

/-- A file whose events are read is there. -/
theorem isFile_of_read {events : List BuildEvent} (hpath : task.events ≠ "-")
    (h : world.read task.events = .ok events) :
    world.tree.isFile world.directory task.events = true := by
  unfold World.read World.readWith readEvents at h
  rw [if_neg hpath] at h
  split at h
  · cases h
  · next content hread => exact FileTree.isFile_of_readFile hread

theorem prepare_eq_ok
    (hpackages : ∀ needed ∈ neededPackages, ∃ version,
      Package.status world.packages needed.1 none = .ok (.installed version true))
    (hjobs : task.jobs? = some 1) {events : List BuildEvent}
    (hevents : world.read task.events = .ok events) :
    prepare world task = .ok () := by
  refine prepare_eq_ok_iff.mpr ⟨hpackages, ?_, 1, hjobs, Int.le_refl 1⟩
  by_cases hpath : task.events = "-"
  · exact Or.inl hpath
  · exact Or.inr (isFile_of_read hpath hevents)

theorem events_eq_ok_iff {path : String} {events : List BuildEvent} :
    world.events path = .ok events ↔ world.read path = .ok events := by
  unfold World.events
  cases world.read path with
  | ok found => simp only [Except.ok.injEq]
  | error failure => cases failure <;> exact ⟨nofun, nofun⟩

/-- A build with the note on its events in front, and its notes as they are shown. -/
def noted (world : World) (task : Task) (events : List BuildEvent) (build : Build) : Build :=
  { build with log := ⟨.debug, s!"Read {events.length} events from {task.events}"⟩ ::
      build.log.map (world.surrogates task.events).shownEntry }

/-- All that a build can come to. -/
theorem build_eq_ok_iff {build : Build} :
    world.build task = .ok build ↔
      prepare world task = .ok () ∧ ∃ events, world.read task.events = .ok events ∧
        ∃ replayed,
          Build.ofEvents world.workingPath task.threads world.schedule events = .ok replayed ∧
          build = world.noted task events replayed := by
  unfold World.build
  simp only [bind_eq_ok_iff, events_eq_ok_iff]
  constructor
  · rintro ⟨_, hprepare, events, hevents, h⟩
    split at h
    · cases h
    · next replayed hreplayed =>
      exact ⟨hprepare, events, hevents, replayed, hreplayed, (Except.ok.inj h).symm⟩
  · rintro ⟨hprepare, events, hevents, replayed, hreplayed, rfl⟩
    refine ⟨(), hprepare, events, hevents, ?_⟩
    rw [hreplayed]
    rfl

/-- A run that is prepared and whose events are read builds. -/
theorem exists_build (hprepare : prepare world task = .ok ()) {events : List BuildEvent}
    (hevents : world.read task.events = .ok events) :
    ∃ replayed order, world.build task = .ok (world.noted task events replayed) ∧
      replayed.Replays world.workingPath events order ∧ (task.threads ≤ 1 → order = events) := by
  obtain ⟨replayed, order, hbuild, hreplays, horder⟩ :=
    Build.ofEvents_eq world.workingPath task.threads world.schedule events
  exact ⟨replayed, order,
    build_eq_ok_iff.mpr ⟨hprepare, events, hevents, replayed, hbuild, rfl⟩, hreplays, horder⟩

/-- A build is what a session makes of the events that are read. -/
theorem events_of_build {build : Build} (h : world.build task = .ok build) :
    ∃ events replayed order, world.read task.events = .ok events ∧
      build = world.noted task events replayed ∧
      replayed.Replays world.workingPath events order ∧ (task.threads ≤ 1 → order = events) := by
  obtain ⟨-, events, hevents, replayed, hreplayed, rfl⟩ := build_eq_ok_iff.mp h
  obtain ⟨found, order, hbuild, hreplays, horder⟩ :=
    Build.ofEvents_eq world.workingPath task.threads world.schedule events
  cases hbuild.symm.trans hreplayed
  exact ⟨events, replayed, order, hevents, rfl, hreplays, horder⟩

/-- Documents are delivered when their place is settled and they are written there. -/
theorem deliver_eq_ok_iff {db : Database} {place : OutputPlace} :
    (world.deliver db task).outcome = .ok place ↔
      task.place.place? = some place ∧
        ((world.surrogates task.events).write db place world.tree world.directory).failure? =
          none := by
  unfold deliver
  cases hplace : task.place.place? with
  | some found =>
    simp only [Written.deliver_eq_ok_iff, Except.ok.injEq, Option.some.injEq]
    constructor
    · rintro ⟨hwrite, rfl⟩
      exact ⟨rfl, hwrite⟩
    · rintro ⟨rfl, hwrite⟩
      exact ⟨hwrite, rfl⟩
  | none =>
    constructor
    · intro h
      cases hdirectory : task.place.directory? with
      | none =>
        rw [hdirectory] at h
        cases h
      | some path =>
        rw [hdirectory] at h
        cases (Written.deliver_eq_ok_iff.mp h).2
    · rintro ⟨h, -⟩
      cases h

section

variable {arguments : List String} {display : Display}

/-- A run that can build and write does so, and says what it did. -/
theorem run_of_write {build : Build} {place : OutputPlace}
    (hrequest : Request.ofArguments arguments = .run task display)
    (hbuild : world.build task = .ok build) (hplace : task.place.place? = some place)
    (hwrite : ((world.surrogates task.events).write build.database place world.tree
      world.directory).failure? = none) :
    world.run arguments =
      ⟨(world.conclude build place display.summary).1,
        (build.log ++ (build.database.write place world.tree world.directory).log).map .note ++
          (world.conclude build place display.summary).2,
        (build.database.write place world.tree world.directory).tree,
        world.paletteFor display, display.verbose⟩ := by
  have hsame := write_of_encodes (encodes_of_write hwrite) place world.tree world.directory
  rw [hsame] at hwrite
  unfold run perform deliver Written.deliver
  rw [hrequest]
  simp only
  rw [hbuild]
  simp only [hplace, hsame, hwrite]

/-- A run that goes well has built and written, and what it says is taken as far as it has to be. -/
theorem write_of_run (hrequest : Request.ofArguments arguments = .run task display)
    (h : (world.run arguments).exitCode = 0) :
    ∃ build place, world.build task = .ok build ∧ task.place.place? = some place ∧
      ((world.surrogates task.events).write build.database place world.tree
        world.directory).failure? = none ∧ (world.conclude build place display.summary).1 = 0 := by
  unfold run at h
  rw [hrequest] at h
  change (world.perform task display.summary).1 = 0 at h
  unfold perform at h
  cases hbuild : world.build task with
  | error failure =>
    rw [hbuild] at h
    exact absurd h (RunFailure.exitCode_ne_zero failure)
  | ok build =>
    rw [hbuild] at h
    cases houtcome : (world.deliver build.database task).outcome with
    | error failure =>
      simp only [houtcome] at h
      exact absurd h (RunFailure.exitCode_ne_zero failure)
    | ok place =>
      obtain ⟨hplace, hwrite⟩ := deliver_eq_ok_iff.mp houtcome
      simp only [houtcome] at h
      exact ⟨build, place, rfl, hplace, hwrite, h⟩

/-- A run whose documents cannot be written says why. -/
theorem run_of_write_failure {build : Build} {place : OutputPlace} {failure : OutputFailure}
    (hrequest : Request.ofArguments arguments = .run task display)
    (hbuild : world.build task = .ok build) (hplace : task.place.place? = some place)
    {written : Written}
    (hwritten : (world.surrogates task.events).write build.database place world.tree
      world.directory = written)
    (hwrite : written.failure? = some failure) :
    world.run arguments =
      ⟨2, (build.log ++ written.log).map .note ++ [(RunFailure.output failure).message],
        written.tree, world.paletteFor display, display.verbose⟩ := by
  unfold run perform deliver Written.deliver
  rw [hrequest]
  simp only
  rw [hbuild]
  simp only [hplace, hwritten, hwrite]
  rfl

/-- A compiler's run, and a command line that names no executable. -/
def twoEvents : List BuildEvent := [⟨"CL", "cl.exe /c a.c", ""⟩, ⟨"CL", "", ""⟩]

/-- A world with the two events on the standard input and an empty working directory. -/
def ofTwoEvents : World :=
  { ofFile .empty with
    tree := ⟨[(["work"], .directory)]⟩
    input := String.toUTF8 <|
      "\x7b\"taskName\":\"CL\",\"commandLineText\":\"cl.exe /c a.c\",\"projectFilePath\":\"\"\x7d" ++
      "\n\x7b\"taskName\":\"CL\",\"commandLineText\":\"\",\"projectFilePath\":\"\"\x7d" }

/-- A compiler's run on a file whose name begins with half of a pair. -/
def loneSurrogate : ByteArray := String.toUTF8 <|
  "\x7b\"taskName\":\"CL\",\"commandLineText\":\"cl.exe /c \\ud800.c\",\"projectFilePath\":\"p\"\x7d"

end

end World

end BuildCommands
