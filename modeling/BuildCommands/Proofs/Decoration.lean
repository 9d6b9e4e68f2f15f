import BuildCommands.Proofs.DisplayFlags
import BuildCommands.Proofs.EscapeFreeArguments
import BuildCommands.Proofs.EscapeFreeFailures
import BuildCommands.Proofs.EscapeFreeNotes
import BuildCommands.Proofs.HelpTexts

/-!
# Colours are decoration

Whether a run is shown on a terminal decides on the paints alone: the messages are the same, and
where the texts that a run starts from are free of escapes, so is every message.  So the transcript
of a run on a terminal is the transcript of the same run elsewhere with escape codes in it, and
deleting the codes gives back the latter, column by column.

    (world.run arguments).messages          are free of escapes             (run_escapeFree)
    withoutCodes (transcript on a terminal) = transcript elsewhere          (run_decoration)

Each part of a run is followed by itself: what it lacks, what it notes while it builds, what it
notes while it writes the documents, and what it says in the end.
-/

namespace BuildCommands

/-! ## Builds -/

/-- Notes without escapes are so in any order. -/
theorem Build.Replays.log_escapeFree {base : String} {events order : List BuildEvent}
    {build : Build} (hreplays : build.Replays base events order) (hb : EscapeFree base)
    (h : ∀ event ∈ events, event.EscapeFree) : ∀ note ∈ build.log, EscapeFree note.text := by
  intro note hnote
  rcases List.mem_append.mp (hreplays.log.mem_iff.mp hnote) with hnote | hnote
  · exact replay_escapeFree hb h note (Array.mem_toList_iff.mp hnote)
  · cases List.mem_singleton.mp hnote
    unfold Session.finishNote
    simp +decide

namespace World

variable {world : World} {task : Task}

/-- What a run lacks is told by its arguments and by the versions of its packages. -/
theorem prepare_escapeFree (hpackages : ∀ entry ∈ world.packages.versions, EscapeFree entry.2)
    (htask : task.EscapeFree) {failure : RunFailure} (h : prepare world task = .error failure) :
    failure.message.EscapeFree := by
  have hneeded : ∀ needed ∈ neededPackages, EscapeFree needed.1 ∧ EscapeFree needed.2 := by
    decide
  by_cases hsuffice : world.PackagesSuffice
  · by_cases hfound : world.FindsEvents task
    · rw [prepare_of_found hsuffice hfound] at h
      split at h
      · cases h
        exact fatal_escapeFree (by decide)
      split at h
      · cases h
        refine Message.failure_escapeFree ?_
        simp +decide
      · cases h
    · rw [prepare_of_noEvents hsuffice hfound] at h
      cases h
      have hsource := htask.events
      refine Message.failure_escapeFree ?_
      simp +decide [hsource]
  · rw [← findSome?_complaint?_eq_none_iff, ← ne_eq, Option.ne_none_iff_exists'] at hsuffice
    obtain ⟨complaint, hcomplaint⟩ := hsuffice
    rw [prepare_of_complaint hcomplaint] at h
    cases h
    obtain ⟨needed, hmem, hcomplaint⟩ := List.exists_of_findSome?_eq_some hcomplaint
    obtain ⟨hpackage, hpurpose⟩ := hneeded needed hmem
    exact Package.complaint?_escapeFree hpackages hpackage hpurpose hcomplaint

theorem build_failure_escapeFree
    (hpackages : ∀ entry ∈ world.packages.versions, EscapeFree entry.2)
    (htask : task.EscapeFree) {failure : RunFailure} (h : world.build task = .error failure) :
    failure.message.EscapeFree := by
  rcases build_eq_error_iff.mp h with h | ⟨-, h⟩
  · exact prepare_escapeFree hpackages htask h
  rcases events_eq_error_iff.mp h with ⟨fault, rfl, -⟩ | ⟨excess, rfl, -⟩ | ⟨fault, rfl, hread⟩
  · exact fatal_escapeFree (Text.Utf8Fault.message_escapeFree fault)
  · exact fatal_escapeFree (Json.Excess.message_escapeFree excess)
  · exact Message.failure_escapeFree (readEvents_escapeFree htask.events hread)

theorem build_log_escapeFree (hpath : EscapeFree world.workingPath) (htask : task.EscapeFree)
    (hevents : ∀ events, world.read task.events = .ok events → ∀ event ∈ events, event.EscapeFree)
    {build : Build} (h : world.build task = .ok build) :
    ∀ note ∈ build.log, EscapeFree note.text := by
  obtain ⟨events, replayed, order, hread, rfl, hreplays, -⟩ := events_of_build h
  refine List.forall_mem_cons.mpr ⟨?_, List.forall_mem_map.mpr fun note hnote => ?_⟩
  · have hsource := htask.events
    simp +decide [hsource]
  · exact (world.surrogates task.events).shown_escapeFree
      (hreplays.log_escapeFree hpath (hevents events hread) note hnote)

end World

/-! ## Documents -/

/-- What is noted while documents are written, and why they could not be, is free of escapes. -/
structure Written.EscapeFree (written : Written) : Prop where
  log : ∀ note ∈ written.log, BuildCommands.EscapeFree note.text
  failure : ∀ failure ∈ written.failure?, BuildCommands.EscapeFree failure.message

theorem Written.EscapeFree.andThen {written : Written} (h : written.EscapeFree)
    {next : FileTree → Written} (hnext : ∀ tree, (next tree).EscapeFree) :
    (written.andThen next).EscapeFree := by
  unfold Written.andThen
  split
  · exact h
  · have hmore := hnext written.tree
    refine ⟨fun note hnote => ?_, hmore.failure⟩
    exact (List.mem_append.mp hnote).elim (h.log note) (hmore.log note)

theorem prepareOutput_escapeFree (tree : FileTree) (directory : Location) {path : String}
    (h : EscapeFree path) : (prepareOutput tree directory path).EscapeFree := by
  refine ⟨nofun, fun failure hfailure => ?_⟩
  obtain ⟨reason, -, rfl⟩ := Option.map_eq_some_iff.mp hfailure
  have hreason := FileFailure.message_escapeFree reason
  unfold OutputFailure.message
  simp +decide [h, hreason]

theorem writeDocument_escapeFree (tree : FileTree) (directory : Location) {path : String}
    (h : EscapeFree path) (document : String) :
    (writeDocument tree directory path document).EscapeFree := by
  unfold writeDocument
  split
  · refine ⟨List.forall_mem_singleton.mpr ?_, nofun⟩
    simp +decide [h]
  · next fault _ =>
    have hfault := FileFailure.message_escapeFree ⟨fault, path⟩
    refine ⟨List.forall_mem_singleton.mpr ?_, ?_⟩
    · simp +decide [h, hfault]
    · rintro _ ⟨⟩
      unfold OutputFailure.message
      simp +decide [h, hfault]

theorem surrogates_writeDocument_escapeFree (surrogates : Surrogates) (tree : FileTree)
    (directory : Location) {path : String} (h : EscapeFree path) (document : String) :
    (surrogates.writeDocument tree directory path document).EscapeFree := by
  unfold Surrogates.writeDocument
  split
  · exact writeDocument_escapeFree tree directory h document
  · next run _ =>
    simp only
    split
    · exact writeDocument_escapeFree tree directory h ""
    · refine ⟨nofun, ?_⟩
      rintro _ ⟨⟩
      exact SurrogateRun.message_escapeFree run

/-- The parts of the place are free of escapes. -/
structure OutputPlace.EscapeFree (place : OutputPlace) : Prop where
  directory : BuildCommands.EscapeFree place.directory
  compileName : BuildCommands.EscapeFree place.compileName
  linkName : BuildCommands.EscapeFree place.linkName

theorem OutputPlace.EscapeFree.pathOf {place : OutputPlace} (h : place.EscapeFree) {name : String}
    (hname : BuildCommands.EscapeFree name) : BuildCommands.EscapeFree (place.pathOf name) :=
  escapeFree_ofList.mpr (Path.isForeign_escape.not_mem_posix_join h.directory hname)

theorem write_escapeFree (surrogates : Surrogates) (db : Database) {place : OutputPlace}
    (h : place.EscapeFree) (tree : FileTree) (directory : Location) :
    (surrogates.write db place tree directory).EscapeFree := by
  unfold Surrogates.write Database.saveWith
  refine (Written.EscapeFree.andThen ?_ fun tree => ?_).andThen fun tree => ?_
  · exact prepareOutput_escapeFree tree directory h.directory
  · exact surrogates_writeDocument_escapeFree surrogates tree directory (h.pathOf h.compileName) _
  · exact surrogates_writeDocument_escapeFree surrogates tree directory (h.pathOf h.linkName) _

theorem Task.EscapeFree.place {task : Task} (h : task.EscapeFree) {place : OutputPlace}
    (hplace : task.place.place? = some place) : place.EscapeFree := by
  unfold RequestedPlace.place? at hplace
  split at hplace
  · next directory compileName linkName heq =>
    cases hplace
    obtain ⟨-, hdirectory, hcompile, hlink⟩ := h
    rw [heq] at hdirectory hcompile hlink
    exact ⟨hdirectory _ rfl, hcompile _ rfl, hlink _ rfl⟩
  · cases hplace

theorem fatal_void_escapeFree (setting : VoidSetting) :
    (RunFailure.void setting).message.EscapeFree := by
  cases setting <;> exact fatal_escapeFree (by decide)

theorem output_message_escapeFree {failure : OutputFailure} (h : EscapeFree failure.message) :
    (RunFailure.output failure).message.EscapeFree := by
  cases failure with
  | unencodable run => exact fatal_escapeFree h
  | directory path reason => exact Message.failure_escapeFree h
  | file path reason => exact Message.failure_escapeFree h

theorem Written.EscapeFree.deliver {written : Written} (h : written.EscapeFree)
    {outcome : Except RunFailure OutputPlace}
    (houtcome : ∀ failure, outcome = .error failure → failure.message.EscapeFree) :
    (∀ note ∈ (written.deliver outcome).log, BuildCommands.EscapeFree note.text) ∧
      ∀ failure, (written.deliver outcome).outcome = .error failure →
        failure.message.EscapeFree := by
  refine ⟨h.log, fun failure hfailure => ?_⟩
  unfold Written.deliver at hfailure
  split at hfailure
  · next reason hreason =>
    cases hfailure
    exact output_message_escapeFree (h.failure reason hreason)
  · exact houtcome failure hfailure

/-- Documents are delivered, or refused, without escapes. -/
theorem World.deliver_escapeFree (world : World) (db : Database) {task : Task}
    (h : task.EscapeFree) :
    (∀ note ∈ (world.deliver db task).log, EscapeFree note.text) ∧
      ∀ failure, (world.deliver db task).outcome = .error failure →
        failure.message.EscapeFree := by
  unfold World.deliver
  split
  · next place hplace =>
    exact (write_escapeFree _ db (h.place hplace) _ _).deliver nofun
  split
  · refine ⟨nofun, ?_⟩
    rintro _ ⟨⟩
    exact fatal_void_escapeFree .outputDirectory
  · next path hpath =>
    refine (prepareOutput_escapeFree _ _ (h.directory path hpath)).deliver ?_
    rintro _ ⟨⟩
    exact fatal_void_escapeFree .documentName

/-! ## Conclusions -/

theorem countLine_escapeFree {label : String} (h : EscapeFree label) (n : Int)
    (color : Option Paint) : (countLine label n color).EscapeFree := by
  have hcount := painted_escapeFree color (some .bright) (escapeFree_int_repr n)
  have hpadding : ∀ width, '\x1b' ∉ List.replicate width ' ' := by
    intro width hmem
    cases List.eq_of_mem_replicate hmem
  unfold countLine
  simp +decide [h, hcount, hpadding]

theorem summaryCounts_escapeFree (s : Statistics) (compiles links : Nat) :
    ∀ entry ∈ summaryCounts s compiles links, EscapeFree entry.1 := by
  unfold summaryCounts
  simp +decide

theorem skippedLines_escapeFree (n : Nat) : ∀ content ∈ skippedLines n, content.EscapeFree := by
  intro content hcontent
  unfold skippedLines at hcontent
  split at hcontent
  · cases hcontent
  · cases List.mem_singleton.mp hcontent
    refine painted_escapeFree _ _ ?_
    simp +decide

theorem reportLines_escapeFree (asSummary : Bool) (s : Statistics) (compiles links : Nat)
    {place : OutputPlace} (h : place.EscapeFree) :
    ∀ content ∈ reportLines asSummary s compiles links place, content.EscapeFree := by
  intro content hcontent
  cases asSummary with
  | false =>
    cases List.mem_singleton.mp hcontent
    have hdirectory := h.directory
    refine painted_escapeFree _ _ ?_
    simp +decide [hdirectory]
  | true =>
    rcases List.mem_append.mp hcontent with hcontent | hcontent
    · rcases List.mem_cons.mp hcontent with rfl | hcontent
      · simp +decide [summaryHeading]
      · obtain ⟨⟨label, n, paint⟩, hcount, rfl⟩ := List.mem_map.mp hcontent
        exact countLine_escapeFree (summaryCounts_escapeFree _ _ _ _ hcount) n _
    · have hcompile := h.pathOf h.compileName
      have hlink := h.pathOf h.linkName
      rcases List.mem_cons.mp hcontent with rfl | hcontent
      · simp +decide [OutputPlace.compilePath, hcompile]
      · cases List.mem_singleton.mp hcontent
        simp +decide [OutputPlace.linkPath, hlink]

/-- The warning and the report are free of escapes if the place is. -/
theorem conclude_escapeFree (world : World) (build : Build) {place : OutputPlace}
    (h : place.EscapeFree) (asSummary : Bool) :
    ∀ message ∈ (world.conclude build place asSummary).2, message.EscapeFree := by
  intro message hmessage
  rcases World.mem_conclude hmessage with hmessage | hmessage | rfl
  · rw [skipWarning_eq] at hmessage
    obtain ⟨content, hcontent, rfl⟩ := List.mem_map.mp hmessage
    exact Message.line_escapeFree (skippedLines_escapeFree _ content hcontent)
  · rw [report_eq] at hmessage
    obtain ⟨content, hcontent, rfl⟩ := List.mem_map.mp hmessage
    exact Message.line_escapeFree (reportLines_escapeFree _ _ _ _ h content hcontent)
  · exact fatal_escapeFree (by decide)

/-! ## Texts on the program -/

/-- The escape character is one that is seen. -/
theorem escapeFree_iff_ink {s : String} : EscapeFree s ↔ '\x1b' ∉ Arguments.ink s.toList := by
  unfold EscapeFree Arguments.ink
  rw [List.mem_filter]
  simp

/-- The usage has no escapes at any width. -/
theorem usage_escapeFree (columns : Nat) : EscapeFree (programManual.usage columns) := by
  rw [escapeFree_iff_ink, Arguments.ink_usage]
  decide +kernel

theorem help_escapeFree (columns : Nat) : EscapeFree (programManual.help columns) := by
  rw [escapeFree_iff_ink, Arguments.ink_help]
  decide +kernel

/-! ## Runs -/

section

variable {world : World} {arguments : List String}

/-- Nothing that a task is answered with has escapes, whether it fails or goes well. -/
theorem perform_escapeFree {task : Task} (asSummary : Bool) (htask : task.EscapeFree)
    (hpath : EscapeFree world.workingPath)
    (hpackages : ∀ package ∈ world.packages.versions, EscapeFree package.2)
    (hevents : ∀ events, world.read task.events = .ok events →
      ∀ event ∈ events, event.EscapeFree) :
    ∀ message ∈ (world.perform task asSummary).2.1, message.EscapeFree := by
  unfold World.perform
  cases hbuild : world.build task with
  | error failure =>
    exact List.forall_mem_singleton.mpr
      (World.build_failure_escapeFree hpackages htask hbuild)
  | ok build =>
    have hlog := World.build_log_escapeFree hpath htask hevents hbuild
    obtain ⟨hwritten, hfailure⟩ := World.deliver_escapeFree world build.database htask
    have hnotes : ∀ message ∈
        (build.log ++ (world.deliver build.database task).log).map Message.note,
        message.EscapeFree := by
      intro message hmessage
      obtain ⟨note, hnote, rfl⟩ := List.mem_map.mp hmessage
      exact (List.mem_append.mp hnote).elim (hlog note) (hwritten note)
    cases houtcome : (world.deliver build.database task).outcome with
    | error failure =>
      simp only [houtcome]
      refine List.forall_mem_append.mpr ⟨hnotes, List.forall_mem_singleton.mpr ?_⟩
      exact hfailure failure houtcome
    | ok place =>
      simp only [houtcome]
      have hplace := (World.deliver_eq_ok_iff.mp houtcome).1
      exact List.forall_mem_append.mpr
        ⟨hnotes, conclude_escapeFree world build (htask.place hplace) asSummary⟩

theorem say_escapeFree (world : World) (exitCode : Nat) (channel : Channel) {text : String}
    (h : EscapeFree text) :
    ∀ message ∈ (world.say exitCode channel text).messages, message.EscapeFree := by
  have htext : (Message.text channel [.text text]).EscapeFree := by
    show Painted.EscapeFree [.text text]
    simp [h]
  unfold World.say
  simp only
  split
  · exact nofun
  · exact List.forall_mem_singleton.mpr htext

/-- A run says nothing with escapes unless something that it starts from has some. -/
theorem run_escapeFree (harguments : ∀ a ∈ arguments, EscapeFree a)
    (hpath : EscapeFree world.workingPath)
    (hpackages : ∀ package ∈ world.packages.versions, EscapeFree package.2)
    (hevents : ∀ task display events, Request.ofArguments arguments = .run task display →
      world.read task.events = .ok events → ∀ event ∈ events, event.EscapeFree) :
    ∀ message ∈ (world.run arguments).messages, message.EscapeFree := by
  have hrequest := Request.ofArguments_escapeFree harguments
  unfold World.run
  split
  · exact say_escapeFree world _ _ (help_escapeFree _)
  · exact say_escapeFree world _ _ (by decide +kernel)
  · next fault heq =>
    rw [heq] at hrequest
    have hfault : EscapeFree fault.message := hrequest
    refine say_escapeFree world _ _ ?_
    rw [escapeFree_append, escapeFree_append, escapeFree_append, escapeFree_append]
    exact ⟨⟨⟨⟨usage_escapeFree _, by decide⟩, by decide⟩, hfault⟩, by decide⟩
  · next task display heq =>
    rw [heq] at hrequest
    exact perform_escapeFree display.summary hrequest hpath hpackages fun events =>
      hevents task display events heq

/-- A run is shown in the colours of its world, if in any. -/
theorem palette_of_run {used : Palette} (h : used ∈ (world.run arguments).palette?) :
    used = world.palette := by
  unfold World.run at h
  split at h
  iterate 3 cases h
  unfold World.paletteFor at h
  simp only at h
  split at h
  · cases h
    rfl
  · cases h

theorem palette?_of_no_terminal (hterminal : world.terminal = false) (arguments : List String) :
    (world.run arguments).palette? = none := by
  unfold World.run
  split
  iterate 3 rfl
  unfold World.paletteFor
  simp [hterminal]

/-- With the codes deleted, a run is what its messages are without colours. -/
theorem withoutCodes_transcript_run
    (hmessages : ∀ message ∈ (world.run arguments).messages, message.EscapeFree)
    (channel : Channel) :
    withoutCodes world.palette ((world.run arguments).transcript channel) =
      transcript none (world.run arguments).verbose channel (world.run arguments).messages :=
  withoutCodes_transcript hmessages fun _ => palette_of_run

/-- Texts that are seen as the same are so where a run only says one of them. -/
theorem ink_transcript_say (world : World) (exitCode : Nat) (target : Channel)
    {text other : String} (h : Arguments.ink text.toList = Arguments.ink other.toList)
    (verbose : Bool) (channel : Channel) :
    Arguments.ink
        (transcript none verbose channel (world.say exitCode target text).messages).toList =
      Arguments.ink
        (transcript none verbose channel (world.say exitCode target other).messages).toList := by
  have hsaid : ∀ text, transcript none verbose channel [.text target [.text text]] =
      if target = channel then text else "" := by
    intro text
    rw [transcript_eq_render, List.flatMap_singleton]
    by_cases htarget : target = channel
    · simp [Message.spans, htarget, Painted.render, Span.render]
    · simp [Message.spans, htarget, Painted.render]
  unfold World.say
  simp only
  split
  · rfl
  · rw [hsaid, hsaid]
    split
    · exact h
    · rfl

end

end BuildCommands
