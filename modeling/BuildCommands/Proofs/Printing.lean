import BuildCommands.Program
import Mathlib.Logic.Basic

/-!
# What a run prints

Notes go to the error channel, the report of a run that went well to the output channel, so the
output is the report alone: one line, or a summary with the counts of the session and of its
records.  A warning on command lines that were skipped stands behind the notes, if there were any.

    report build place asSummary         = the report's lines                   (report_eq)
    transcript of the output             = the report's lines, as far as the output takes them
                                                                   (transcript_output_conclude)
    transcript of the errors             = the notes, then the warning, if any
                                                                    (transcript_error_conclude)

An output that takes no line makes a failure of a run that went well, unless a summary was to be
printed (World.conclude_exitCode); then a summary breaks off wherever the output ends.
-/

namespace BuildCommands

/-! ## Definitions -/

/-- The counts of a summary, each with its label and its paint. -/
def summaryCounts (s : Statistics) (compiles links : Nat) : List (String × Nat × Paint) :=
  [("Events", s.total, .white), ("Compile invocations", s.compiles, .green),
    ("Link invocations", s.links, .green), ("Ignored events", s.ignored, .dim),
    ("Malformed events", s.malformed, if s.malformed = 0 then .white else .red),
    ("Compile records", compiles, .magenta), ("Link records", links, .magenta)]

def summaryHeading : Painted :=
  [.text "\n", .paint .bright, .paint .cyan, .text "=== Compilation Database Summary ===",
    .paint .reset]

/-- The paths of the documents. -/
def summaryPaths (place : OutputPlace) : List Painted :=
  [[.text "\n  ", .paint .dim, .text place.compilePath, .paint .reset],
    [.text "  ", .paint .dim, .text place.linkPath, .paint .reset]]

/-- The lines on what was done: one, or a summary of a heading, the counts and the paths. -/
def reportLines (asSummary : Bool) (s : Statistics) (compiles links : Nat) (place : OutputPlace) :
    List Painted :=
  if asSummary then
    summaryHeading :: (summaryCounts s compiles links).map (fun (label, n, paint) =>
      countLine label n (some paint)) ++ summaryPaths place
  else
    [painted (some .green) none
      (s!"Wrote {compiles} compile and " ++ s!"{links} link records to {place.directory}")]

/-- The warning that command lines were skipped. -/
def skippedLine (n : Nat) : Painted :=
  painted (some .yellow) none
    ("Warning: " ++ s!"Skipped {n} malformed invocation(s), see log output")

/-- The warning, if there is anything to warn of. -/
def skippedLines (n : Nat) : List Painted := if n = 0 then [] else [skippedLine n]

/-- The lines as they are printed. -/
def linesText (palette? : Option Palette) (lines : List Painted) : String :=
  String.join (lines.map (·.render palette? ++ "\n"))

/-! ## Transcripts -/

section

variable {palette? : Option Palette} {verbose : Bool} {channel : Channel}

theorem transcript_append (messages more : List Message) :
    transcript palette? verbose channel (messages ++ more) =
      transcript palette? verbose channel messages ++ transcript palette? verbose channel more := by
  unfold transcript
  rw [List.map_append, String.join_append]

theorem transcript_of_silent {messages : List Message}
    (h : ∀ message ∈ messages, message.written palette? verbose channel = "") :
    transcript palette? verbose channel messages = "" := by
  unfold transcript
  rw [List.map_congr_left h]
  induction messages with
  | nil => rfl
  | cons message messages ih =>
    rw [List.map_cons, String.join_cons, ih (List.forall_mem_cons.mp h).2, String.append_empty]

theorem transcript_notes (log : List LogEntry) :
    transcript palette? verbose .output (log.map .note) = "" := by
  refine transcript_of_silent fun message hmessage => ?_
  obtain ⟨entry, -, rfl⟩ := List.mem_map.mp hmessage
  rfl

theorem written_line_self (content : Painted) :
    (Message.line channel content).written palette? verbose channel =
      content.render palette? ++ "\n" := by
  have hrender : (content ++ [Span.text "\n"]).render palette? = content.render palette? ++ "\n" := by
    unfold Painted.render
    rw [List.map_append, String.join_append]
    rfl
  exact (if_pos rfl).trans hrender

theorem transcript_lines (lines : List Painted) :
    transcript palette? verbose channel (lines.map (.line channel)) = linesText palette? lines := by
  unfold transcript linesText
  rw [List.map_map]
  congr 1
  exact List.map_congr_left fun content _ => written_line_self content

theorem transcript_lines_of_ne {other : Channel} (h : other ≠ channel) (lines : List Painted) :
    transcript palette? verbose channel (lines.map (.line other)) = "" := by
  refine transcript_of_silent fun message hmessage => ?_
  obtain ⟨content, -, rfl⟩ := List.mem_map.mp hmessage
  exact if_neg h

end

theorem skipWarning_eq (build : Build) :
    skipWarning build = (skippedLines build.statistics.malformed).map (.line .error) := by
  unfold skipWarning skippedLines
  by_cases hnone : build.statistics.malformed = 0
  · simp only [hnone, if_true, List.map_nil]
  · simp only [if_neg hnone]
    rfl

theorem report_eq (build : Build) (place : OutputPlace) (asSummary : Bool) :
    report build place asSummary =
      (reportLines asSummary build.statistics build.database.compiles.size
        build.database.links.size place).map (.line .output) := by
  cases asSummary <;> rfl

/-! ## Conclusions -/

namespace World

variable {world : World} {build : Build} {place : OutputPlace} {asSummary : Bool}

theorem taken_map {α β : Type} (f : α → β) (prints : List α) :
    world.taken (prints.map f) = (world.taken prints).map f := by
  unfold taken
  cases world.prints? with
  | none => rfl
  | some count => exact List.map_take.symm

theorem mem_of_mem_taken {α : Type} {prints : List α} {x : α} (h : x ∈ world.taken prints) :
    x ∈ prints := by
  unfold taken at h
  cases hprints : world.prints? with
  | none => rwa [hprints] at h
  | some count =>
    rw [hprints] at h
    exact List.mem_of_mem_take h

/-- A run that ends well warns and reports, as far as the output takes it. -/
theorem conclude_of_exitCode (h : (world.conclude build place asSummary).1 = 0) :
    (world.conclude build place asSummary).2 =
      skipWarning build ++ world.taken (report build place asSummary) := by
  unfold conclude at h ⊢
  simp only at h ⊢
  split at h
  · next hwell => rw [if_pos hwell]
  · cases h

/-- Only that the one line is not taken is a failure. -/
theorem conclude_exitCode :
    (world.conclude build place asSummary).1 =
      if asSummary = false ∧ world.prints? = some 0 then 2 else 0 := by
  unfold conclude
  cases asSummary with
  | true => rfl
  | false =>
    unfold taken
    rcases hprints : world.prints? with _ | _ | count
    · rfl
    · rfl
    · simp [report]

/-- Nothing is said but the warning, the report and that nobody reads it. -/
theorem mem_conclude {message : Message} (h : message ∈ (world.conclude build place asSummary).2) :
    message ∈ skipWarning build ∨ message ∈ report build place asSummary ∨
      message = RunFailure.brokenPipe.message := by
  unfold conclude at h
  simp only at h
  split at h
  · exact (List.mem_append.mp h).imp_right fun hm => Or.inl (mem_of_mem_taken hm)
  · exact (List.mem_append.mp h).imp_right fun hm => Or.inr (List.mem_singleton.mp hm)

end World

section

variable (world : World) (palette? : Option Palette) (verbose : Bool) (log : List LogEntry)
  (build : Build) (place : OutputPlace) (asSummary : Bool)

/-- The report is all that is printed. -/
theorem transcript_output_conclude :
    transcript palette? verbose .output
        (log.map .note ++ (skipWarning build ++ world.taken (report build place asSummary))) =
      linesText palette? (world.taken (reportLines asSummary build.statistics
        build.database.compiles.size build.database.links.size place)) := by
  have hother : Channel.error ≠ Channel.output := by decide
  rw [skipWarning_eq, report_eq, World.taken_map, transcript_append, transcript_append,
    transcript_notes, transcript_lines_of_ne hother, transcript_lines, String.empty_append,
    String.empty_append]

/-- Behind the notes, the warning alone goes to the error channel. -/
theorem transcript_error_conclude :
    transcript palette? verbose .error
        (log.map .note ++ (skipWarning build ++ world.taken (report build place asSummary))) =
      transcript palette? verbose .error (log.map .note) ++
        linesText palette? (skippedLines build.statistics.malformed) := by
  have hother : Channel.output ≠ Channel.error := by decide
  rw [skipWarning_eq, report_eq, World.taken_map, transcript_append, transcript_append,
    transcript_lines, transcript_lines_of_ne hother, String.append_empty]

/-- The warning is among the messages of a run that went well when command lines were skipped. -/
theorem exists_skippedLine_mem_iff :
    (∃ n, Message.line .error (skippedLine n) ∈
        log.map .note ++ (skipWarning build ++ world.taken (report build place asSummary))) ↔
      0 < build.statistics.malformed := by
  rw [skipWarning_eq, report_eq, World.taken_map]
  unfold skippedLines
  constructor
  · rintro ⟨n, h⟩
    rcases List.mem_append.mp h with h | h
    · obtain ⟨entry, -, h⟩ := List.mem_map.mp h
      cases h
    rcases List.mem_append.mp h with h | h
    · refine Nat.pos_of_ne_zero fun hzero => ?_
      rw [if_pos hzero] at h
      cases h
    · obtain ⟨content, -, h⟩ := List.mem_map.mp h
      cases h
  · intro h
    refine ⟨build.statistics.malformed, List.mem_append_right _ (List.mem_append_left _ ?_)⟩
    rw [if_neg (Nat.pos_iff_ne_zero.mp h)]
    exact List.mem_singleton_self _

end

end BuildCommands
