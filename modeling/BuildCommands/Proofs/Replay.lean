import BuildCommands.Session

/-!
# Replay

What an event adds to the records is a function of the event and the base directory.  No event is
refused, since no file of a run is without a name, so a session that is under way appends what the
events add, one after the other.

    record db (outcome event) = .ok (db.add event)                     (record_outcome)
    process events            = .ok (records, counts and notes appended) (process_live)
-/

namespace BuildCommands

/-! ## Definitions -/

/-- The run that an event reports, if its task is a tool's and its command line can be read. -/
def BuildEvent.invocation? (base : String) (event : BuildEvent) : Option Invocation :=
  (ToolKind.ofTask event.task).toOption.bind fun kind =>
    (Invocation.parse base kind event.directory event.commandLine).toOption

/-- One record for each file of a compiler run. -/
def BuildEvent.compileRecords (base : String) (event : BuildEvent) : List CompileRecord :=
  match event.invocation? base with
  | none => []
  | some invocation =>
    match invocation.kind with
    | .compile => invocation.files.map (⟨invocation.command, invocation.directory, ·⟩)
    | .link => []

/-- One record for a run of a linker or librarian, whatever its files. -/
def BuildEvent.linkRecord? (base : String) (event : BuildEvent) : Option LinkRecord :=
  match event.invocation? base with
  | none => none
  | some invocation =>
    match invocation.kind with
    | .compile => none
    | .link => some ⟨invocation.command, invocation.directory, invocation.files⟩

/-- The records with those of some events behind them. -/
def Database.replay (db : Database) (base : String) (events : List BuildEvent) : Database where
  compiles := db.compiles ++ events.flatMap (·.compileRecords base)
  links := db.links ++ events.filterMap (·.linkRecord? base)

/-- A session with some events behind it. -/
def Session.replay (session : Session) (events : List BuildEvent) : Session where
  base := session.base
  database? := session.database?.map (·.replay session.base events)
  statistics := events.foldl (fun s event => s.count (event.outcome session.base)) session.statistics
  log := session.log ++ events.flatMap fun event => (event.outcome session.base).notes event

/-! ## Names of files -/

theorem Classification.empty_not_mem_files (c : Classification) (kind : ToolKind) :
    "" ∉ c.files kind := by
  unfold Classification.files
  rw [List.mem_append]
  rintro (h | h)
  · split at h
    · exact absurd (List.mem_filter.mp h).2 (by decide)
    · cases h
  · exact absurd (List.mem_filter.mp h).2 (by simp [Classification.accepts])

theorem Invocation.empty_not_mem_files {base directory commandLine : String} {kind : ToolKind}
    {invocation : Invocation} (h : Invocation.parse base kind directory commandLine = .ok invocation) :
    "" ∉ invocation.files := by
  unfold Invocation.parse at h
  cases hs : CommandLine.splitExecutable commandLine with
  | error fault =>
    rw [hs] at h
    cases h
  | ok split =>
    rw [hs] at h
    cases h
    exact Classification.empty_not_mem_files _ _

/-! ## One event -/

section

variable {base : String} {event : BuildEvent}

theorem outcome_of_unsupported {fault : UnsupportedTask}
    (h : ToolKind.ofTask event.task = .error fault) : event.outcome base = .ignored := by
  unfold BuildEvent.outcome
  rw [h]

theorem outcome_of_malformed {kind : ToolKind} {fault : CommandLine.Malformed}
    (hk : ToolKind.ofTask event.task = .ok kind)
    (hp : Invocation.parse base kind event.directory event.commandLine = .error fault) :
    event.outcome base = .malformed fault := by
  unfold BuildEvent.outcome
  rw [hk]
  simp only
  rw [hp]

theorem outcome_of_parsed {kind : ToolKind} {invocation : Invocation}
    (hk : ToolKind.ofTask event.task = .ok kind)
    (hp : Invocation.parse base kind event.directory event.commandLine = .ok invocation) :
    event.outcome base = .recorded invocation := by
  unfold BuildEvent.outcome
  rw [hk]
  simp only
  rw [hp]

/-- Either the event reports a run, whose files have names, and comes to it, or it reports none and
is ignored or malformed. -/
theorem outcome_cases (base : String) (event : BuildEvent) :
    (∃ invocation, event.invocation? base = some invocation ∧
      event.outcome base = .recorded invocation ∧ "" ∉ invocation.files) ∨
    (event.invocation? base = none ∧
      (event.outcome base = .ignored ∨ ∃ fault, event.outcome base = .malformed fault)) := by
  unfold BuildEvent.invocation?
  cases hk : ToolKind.ofTask event.task with
  | error fault => exact Or.inr ⟨rfl, Or.inl (outcome_of_unsupported hk)⟩
  | ok kind =>
    show (∃ invocation, (Invocation.parse base kind _ _).toOption = _ ∧ _) ∨
      ((Invocation.parse base kind _ _).toOption = _ ∧ _)
    cases hp : Invocation.parse base kind event.directory event.commandLine with
    | error fault => exact Or.inr ⟨rfl, Or.inr ⟨fault, outcome_of_malformed hk hp⟩⟩
    | ok invocation =>
      exact Or.inl ⟨invocation, rfl, outcome_of_parsed hk hp, Invocation.empty_not_mem_files hp⟩

/-- Nothing that an event comes to is refused. -/
theorem record_outcome (db : Database) :
    db.record (event.outcome base) = .ok (db.replay base [event]) := by
  unfold Database.replay
  rw [List.flatMap_singleton, List.filterMap_cons, List.filterMap_nil]
  unfold BuildEvent.compileRecords BuildEvent.linkRecord?
  rcases outcome_cases base event with ⟨invocation, h, ho, hnames⟩ | ⟨h, ho | ⟨fault, ho⟩⟩
  · rw [h, ho]
    cases hk : invocation.kind with
    | compile => simp [Database.record, hk, Database.addCompile, hnames, Database.compileBlock]
    | link => simp [Database.record, hk, Database.addLink]
  · rw [h, ho]
    simp [Database.record]
  · rw [h, ho]
    simp [Database.record]

theorem append_lists {α : Type} (xs : Array α) (l m : List α) : xs ++ (l ++ m) = xs ++ l ++ m := by
  apply Array.ext'
  simp

theorem Database.replay_nil (db : Database) : db.replay base [] = db := by
  unfold Database.replay
  simp

theorem Database.replay_append (db : Database) (events more : List BuildEvent) :
    db.replay base (events ++ more) = (db.replay base events).replay base more := by
  unfold Database.replay
  rw [List.flatMap_append, List.filterMap_append, append_lists, append_lists]

/-- An event that reports no run adds nothing. -/
theorem Database.replay_of_none (h : event.invocation? base = none) (db : Database) :
    db.replay base [event] = db := by
  unfold Database.replay
  rw [List.flatMap_singleton, List.filterMap_cons, List.filterMap_nil]
  unfold BuildEvent.compileRecords BuildEvent.linkRecord?
  rw [h]
  simp

/-- Only the events that report runs add records. -/
theorem Database.replay_filter (events : List BuildEvent) : ∀ db : Database,
    db.replay base (events.filter fun event => (event.invocation? base).isSome) =
      db.replay base events := by
  induction events with
  | nil =>
    intro db
    rfl
  | cons event events ih =>
    intro db
    cases h : event.invocation? base with
    | none =>
      rw [List.filter_cons_of_neg (by simp [h]), ih, ← List.singleton_append,
        db.replay_append [event], replay_of_none h]
    | some invocation =>
      rw [List.filter_cons_of_pos (by simp [h]), ← List.singleton_append, db.replay_append [event],
        ih, ← db.replay_append]
      rfl

end

/-! ## Sessions -/

namespace Session

variable {session : Session}

theorem replay_nil (session : Session) : session.replay [] = session := by
  unfold Session.replay
  cases session
  simp [Database.replay_nil]

theorem replay_append (session : Session) (events more : List BuildEvent) :
    session.replay (events ++ more) = (session.replay events).replay more := by
  unfold Session.replay
  rw [List.flatMap_append, List.foldl_append, append_lists, Option.map_map]
  congr 1
  apply congrArg (Option.map · session.database?)
  funext db
  exact db.replay_append events more

theorem isSome_replay (session : Session) (events : List BuildEvent) :
    (session.replay events).database?.isSome = session.database?.isSome := by
  unfold Session.replay
  rw [Option.isSome_map]

/-- A session under way takes any event. -/
theorem handle_live (h : session.database?.isSome) (event : BuildEvent) :
    session.handle event =
      .ok (session.replay [event], (event.outcome session.base).kind?) := by
  obtain ⟨db, hdb⟩ := Option.isSome_iff_exists.mp h
  unfold Session.handle Session.replay
  rw [hdb]
  simp [record_outcome]

/-- A session under way takes any events, and is still under way. -/
theorem process_live (events : List BuildEvent) : ∀ session : Session,
    session.database?.isSome → session.process events = .ok (session.replay events) := by
  induction events with
  | nil =>
    intro session _
    rw [replay_nil]
    rfl
  | cons event events ih =>
    intro session h
    have hlive : (session.replay [event]).database?.isSome := by
      rw [isSome_replay]
      exact h
    unfold Session.process
    rw [handle_live h]
    show (session.replay [event]).process events = _
    rw [ih _ hlive, ← replay_append]
    rfl

/-- Events may be handled in parts. -/
theorem foldlM_process (parts : List (List BuildEvent)) : ∀ session : Session,
    session.database?.isSome →
      parts.foldlM Session.process session = .ok (session.replay parts.flatten) := by
  induction parts with
  | nil =>
    intro session _
    rw [List.flatten_nil, replay_nil]
    rfl
  | cons events parts ih =>
    intro session h
    have hlive : (session.replay events).database?.isSome := by
      rw [isSome_replay]
      exact h
    rw [List.foldlM_cons, process_live events session h, List.flatten_cons, replay_append]
    exact ih _ hlive

/-- A session that starts with no records takes any events, at once or in parts, and then has what
the events add to the records, in order.  Those that report no run make no difference to it. -/
theorem process_start (base : String) (parts : List (List BuildEvent)) :
    ∃ session,
      (start base).process parts.flatten = .ok session ∧
      session.database =
        .ok ⟨(parts.flatten.flatMap (·.compileRecords base)).toArray,
          (parts.flatten.filterMap (·.linkRecord? base)).toArray⟩ ∧
      parts.foldlM process (start base) = .ok session ∧
      ∃ kept,
        (start base).process
            (parts.flatten.filter fun event => (event.invocation? base).isSome) = .ok kept ∧
          kept.database = session.database := by
  refine ⟨(start base).replay parts.flatten, process_live _ _ rfl, ?_, foldlM_process parts _ rfl,
    (start base).replay _, process_live _ _ rfl, ?_⟩
  · show Except.ok (Database.empty.replay base parts.flatten) = _
    unfold Database.replay Database.empty
    simp
  · show Except.ok (Database.empty.replay base _) = .ok (Database.empty.replay base parts.flatten)
    rw [Database.replay_filter]

end Session

end BuildCommands
