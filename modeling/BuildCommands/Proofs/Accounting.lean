import BuildCommands.Proofs.Lifecycle
import BuildCommands.Proofs.Lists

/-!
# What the statistics count

Every event of a session is counted once: as a compiler run or a linker run, by the kind it is
recorded as, or as ignored or malformed.  The counts agree with everything else that an event
leaves behind: its records, its warning and its answer.

    (s.count outcome).get c = s.get c + if outcome.counter = c then 1 else 0      (get_count)
    (session.replay events).statistics.get c = … + how many events count so       (get_replay)
-/

namespace BuildCommands

/-! ## Definitions -/

/-- What an event is counted as. -/
inductive Counter where
  | compiles
  | links
  | ignored
  | malformed
  deriving DecidableEq, Repr

/-- How many events were counted so. -/
def Statistics.get (s : Statistics) : Counter → Nat
  | .compiles => s.compiles
  | .links => s.links
  | .ignored => s.ignored
  | .malformed => s.malformed

/-- The counter of the runs of a kind. -/
def ToolKind.counter : ToolKind → Counter
  | .compile => .compiles
  | .link => .links

/-- The kind that a counter stands for, if it counts runs. -/
def Counter.kind? : Counter → Option ToolKind
  | .compiles => some .compile
  | .links => some .link
  | .ignored | .malformed => none

/-- What an event with this outcome is counted as. -/
def Outcome.counter : Outcome → Counter
  | .ignored => .ignored
  | .malformed _ => .malformed
  | .recorded invocation => invocation.kind.counter

/-- What an event is counted as. -/
def BuildEvent.counter (base : String) (event : BuildEvent) : Counter :=
  (event.outcome base).counter

/-- The files of the run that an event reports. -/
def BuildEvent.files (base : String) (event : BuildEvent) : List String :=
  ((event.invocation? base).map Invocation.files).getD []

/-! ## One event -/

theorem Statistics.get_count (s : Statistics) (o : Outcome) (c : Counter) :
    (s.count o).get c = s.get c + if o.counter = c then 1 else 0 := by
  cases o with
  | ignored | malformed => cases c <;> rfl
  | recorded invocation =>
    cases hkind : invocation.kind <;> cases c <;>
      simp [count, Outcome.counter, hkind, ToolKind.counter, get]

theorem Statistics.total_eq (s : Statistics) :
    s.total = s.get .compiles + s.get .links + s.get .ignored + s.get .malformed := rfl

/-- The answer tells the kind that is counted. -/
theorem Outcome.kind?_eq (o : Outcome) : o.kind? = o.counter.kind? := by
  cases o with
  | ignored | malformed => rfl
  | recorded invocation =>
    cases hkind : invocation.kind <;> simp [kind?, counter, hkind, ToolKind.counter, Counter.kind?]

/-- Only a malformed event is warned about, and once. -/
theorem Outcome.warnings_notes (event : BuildEvent) (o : Outcome) :
    ((o.notes event).filter (·.level = .warning)).length =
      if o.counter = .malformed then 1 else 0 := by
  cases o with
  | ignored => rfl
  | malformed => rfl
  | recorded invocation =>
    have hcounter : (recorded invocation).counter ≠ .malformed := by
      cases hkind : invocation.kind <;> simp [counter, hkind, ToolKind.counter]
    rw [if_neg hcounter, List.length_eq_zero_iff, List.filter_eq_nil_iff]
    intro entry hentry
    rcases List.mem_append.mp hentry with hentry | hentry
    · obtain ⟨text, -, rfl⟩ := List.mem_map.mp hentry
      simp
    · split at hentry
      · rw [List.mem_singleton.mp hentry]
        simp
      · cases hentry

section

variable {base : String} {event : BuildEvent}

/-- A run is counted by the kind it is recorded as. -/
theorem counter_of_invocation {invocation : Invocation}
    (h : event.invocation? base = some invocation) :
    event.counter base = invocation.kind.counter := by
  rcases outcome_cases base event with ⟨found, hfound, ho, -⟩ | ⟨hnone, -⟩
  · rw [h] at hfound
    rw [BuildEvent.counter, ho, Option.some.inj hfound]
    rfl
  · rw [h] at hnone
    cases hnone

/-- An event that reports no run counts as none. -/
theorem counter_of_none (h : event.invocation? base = none) :
    event.counter base = .ignored ∨ event.counter base = .malformed := by
  rcases outcome_cases base event with ⟨found, hfound, -, -⟩ | ⟨-, ho | ⟨fault, ho⟩⟩
  · rw [h] at hfound
    cases hfound
  · exact Or.inl (congrArg Outcome.counter ho)
  · exact Or.inr (congrArg Outcome.counter ho)

theorem length_compileRecords (base : String) (event : BuildEvent) :
    (event.compileRecords base).length =
      if event.counter base = .compiles then (event.files base).length else 0 := by
  unfold BuildEvent.compileRecords BuildEvent.files
  cases h : event.invocation? base with
  | none => rcases counter_of_none h with hc | hc <;> rw [hc] <;> rfl
  | some invocation =>
    rw [counter_of_invocation h]
    cases hkind : invocation.kind <;> simp [hkind, ToolKind.counter]

theorem isSome_linkRecord? (base : String) (event : BuildEvent) :
    (event.linkRecord? base).isSome = decide (event.counter base = .links) := by
  unfold BuildEvent.linkRecord?
  cases h : event.invocation? base with
  | none => rcases counter_of_none h with hc | hc <;> rw [hc] <;> rfl
  | some invocation =>
    rw [counter_of_invocation h]
    cases hkind : invocation.kind <;> simp [hkind, ToolKind.counter]

/-- A compiler run without files adds nothing. -/
theorem Database.replay_of_no_files (hcounter : event.counter base = .compiles)
    (hfiles : event.files base = []) (db : Database) : db.replay base [event] = db := by
  have hcompiles := length_compileRecords base event
  rw [hfiles, List.length_nil, ite_self, List.length_eq_zero_iff] at hcompiles
  have hlinks := isSome_linkRecord? base event
  rw [hcounter, decide_eq_false (by decide), Option.isSome_eq_false_iff, Option.isNone_iff_eq_none]
    at hlinks
  unfold Database.replay
  rw [List.flatMap_singleton, List.filterMap_cons, List.filterMap_nil, hcompiles, hlinks]
  simp

/-- The run that a compiler task reports is recorded as a linker's if it has a link switch. -/
theorem kind_of_invocation {invocation : Invocation} {kind : ToolKind}
    (hkind : ToolKind.ofTask event.task = .ok kind)
    (h : event.invocation? base = some invocation) :
    invocation.kind = kind.recordedAs invocation.tokens := by
  unfold BuildEvent.invocation? at h
  rw [hkind] at h
  change (Invocation.parse base kind _ _).toOption = _ at h
  unfold Invocation.parse at h
  cases hs : CommandLine.splitExecutable event.commandLine with
  | error fault =>
    rw [hs] at h
    cases h
  | ok split =>
    rw [hs] at h
    cases h
    rfl

end

/-! ## Sessions -/

namespace Session

variable {base : String}

theorem get_foldl_count (base : String) (c : Counter) (events : List BuildEvent) :
    ∀ s : Statistics, (events.foldl (fun s event => s.count (event.outcome base)) s).get c =
      s.get c + events.countP (·.counter base = c) := by
  induction events with
  | nil =>
    intro s
    rfl
  | cons event events ih =>
    intro s
    have hstep : (s.count (event.outcome base)).get c =
        s.get c + if event.counter base = c then 1 else 0 := s.get_count _ c
    rw [List.foldl_cons, ih, hstep, List.countP_cons, Nat.add_assoc,
      Nat.add_comm (List.countP _ events)]
    simp only [decide_eq_true_eq]

/-- Each event behind a session is counted once. -/
theorem get_replay (session : Session) (events : List BuildEvent) (c : Counter) :
    (session.replay events).statistics.get c =
      session.statistics.get c + events.countP (·.counter session.base = c) :=
  get_foldl_count session.base c events session.statistics

/-- The warnings are as many as the malformed events. -/
theorem length_warnings_replay (session : Session) (events : List BuildEvent) :
    (session.replay events).warnings.length =
      session.warnings.length + events.countP (·.counter session.base = .malformed) := by
  unfold warnings replay
  rw [Array.toList_appendList, List.filter_append, List.length_append, List.filter_flatMap,
    List.length_flatMap]
  simp only [Outcome.warnings_notes]
  rw [← sum_map_ite_one]
  rfl

theorem length_compiles_replay (db : Database) (base : String) (events : List BuildEvent) :
    (db.replay base events).compiles.toList.length = db.compiles.toList.length +
      ((events.filter (·.counter base = .compiles)).map fun event =>
        (event.files base).length).sum := by
  unfold Database.replay
  rw [Array.toList_appendList, List.length_append, List.length_flatMap]
  simp only [length_compileRecords]
  rw [sum_map_ite]

theorem length_links_replay (db : Database) (base : String) (events : List BuildEvent) :
    (db.replay base events).links.toList.length =
      db.links.toList.length + events.countP (·.counter base = .links) := by
  unfold Database.replay
  rw [Array.toList_appendList, List.length_append, List.length_filterMap_eq_countP]
  simp only [isSome_linkRecord?]

/-- Every count of some events together is their number. -/
theorem sum_countP_counter (base : String) (events : List BuildEvent) :
    events.countP (·.counter base = .compiles) + events.countP (·.counter base = .links) +
      events.countP (·.counter base = .ignored) + events.countP (·.counter base = .malformed) =
      events.length := by
  induction events with
  | nil => rfl
  | cons event events ih =>
    simp only [List.countP_cons, List.length_cons]
    cases event.counter base <;> simp <;> omega

/-- A session under way answers each event with the kind it is counted as. -/
theorem answer_of_mem_run {calls : List Call} (hcalls : .finish ∉ calls) : ∀ session : Session,
    session.database?.isSome → ∀ event answer, (.handle event, answer) ∈ (session.run calls).2 →
      answer = .handled (event.counter session.base).kind? := by
  induction calls with
  | nil =>
    intro session _ event answer h
    cases h
  | cons c calls ih =>
    intro session hlive event answer h
    rw [List.mem_cons, not_or] at hcalls
    rw [run_cons] at h
    rcases List.mem_cons.mp h with h | h
    · obtain ⟨rfl, rfl⟩ := Prod.mk.inj h
      rw [call_handle_live hlive, Outcome.kind?_eq]
      rfl
    · have hnext := fst_call_live hlive (Ne.symm hcalls.1)
      rw [hnext] at h
      refine ih hcalls.2 (session.replay c.events) ?_ event answer h
      rwa [isSome_replay]

/-- A session that started with no records has counted each of its events once, and the counts agree
with its records and warnings.  The next event is counted once too: a compiler run with a link
switch as a linker's, one without files although it adds no record.  Its answer tells how. -/
theorem run_accounts (base : String) {calls : List Call} (hcalls : .finish ∉ calls) :
    let session := ((start base).run calls).1
    let events := calls.flatMap Call.events
    ∃ db, session.database = .ok db ∧
      session.statistics.total = events.length ∧
      (∀ c, session.statistics.get c = events.countP (·.counter base = c)) ∧
      session.statistics.links = db.links.toList.length ∧
      db.compiles.toList.length =
        ((events.filter (·.counter base = .compiles)).map fun event =>
          (event.files base).length).sum ∧
      session.statistics.malformed = session.warnings.length ∧
      (∀ event answer, (.handle event, answer) ∈ ((start base).run calls).2 →
        answer = .handled (event.counter base).kind?) ∧
      ∀ event, ∃ next,
        session.handle event = .ok (next, (event.counter base).kind?) ∧
        (∀ c, next.statistics.get c =
          session.statistics.get c + if event.counter base = c then 1 else 0) ∧
        (∀ invocation, event.invocation? base = some invocation →
          ToolKind.ofTask event.task = .ok .compile →
          event.counter base =
            if handsToLinker invocation.tokens = true then .links else .compiles) ∧
        (event.counter base = .compiles → event.files base = [] →
          next.database = session.database) := by
  intro session events
  have hsession : session = (start base).replay events := fst_run_live hcalls _ rfl
  have hbase : session.base = base := congrArg Session.base hsession
  have hlive : session.database?.isSome := by
    rw [hsession, isSome_replay]
    rfl
  have hcount : ∀ c, session.statistics.get c = events.countP (·.counter base = c) := by
    intro c
    rw [hsession, get_replay]
    cases c <;> exact Nat.zero_add _
  refine ⟨Database.empty.replay base events, ?_, ?_, hcount, ?_, ?_, ?_,
    answer_of_mem_run hcalls _ rfl, fun event => ⟨session.replay [event], ?_, ?_, ?_, ?_⟩⟩
  · rw [hsession]
    rfl
  · rw [Statistics.total_eq, hcount, hcount, hcount, hcount, sum_countP_counter]
  · rw [length_links_replay]
    exact (hcount .links).trans (Nat.zero_add _).symm
  · rw [length_compiles_replay]
    exact Nat.zero_add _
  · have hwarnings := length_warnings_replay (start base) events
    rw [← hsession] at hwarnings
    exact (hcount .malformed).trans (hwarnings.trans (Nat.zero_add _)).symm
  · rw [handle_live hlive, hbase, Outcome.kind?_eq]
    rfl
  · intro c
    rw [get_replay, hbase, List.countP_singleton]
    simp only [decide_eq_true_eq]
  · intro invocation hinvocation htask
    rw [counter_of_invocation hinvocation, kind_of_invocation htask hinvocation]
    unfold ToolKind.recordedAs
    cases handsToLinker invocation.tokens <;> rfl
  · intro hcompiles hfiles
    obtain ⟨db, hdb⟩ := Option.isSome_iff_exists.mp hlive
    unfold replay database
    rw [hbase, hdb, Option.map_some, Database.replay_of_no_files hcompiles hfiles]

/-- A compiler run that links, one without files, one of two files, another task and a command line
without an executable. -/
theorem run_accounts_five_ways :
    let calls : List Call := [.handle ⟨"CL", "cl.exe a.c /link /OUT:x.exe", "x"⟩,
      .process [⟨"CL", "cl.exe /c", "x"⟩, ⟨"Exec", "", "x"⟩, ⟨"CL", "cl.exe a.c b.c", "x"⟩],
      .database, .handle ⟨"Link", "", "x"⟩]
    let session := ((start "/b").run calls).1
    .finish ∉ calls ∧ session.statistics = ⟨2, 1, 1, 1⟩ ∧ session.statistics.total = 5 ∧
      ∃ db, session.database = .ok db ∧ db.links.toList.length = 1 ∧
        db.compiles.toList.length = 2 ∧ session.warnings.length = 1 := by
  intro calls session
  have hcalls : Call.finish ∉ calls := by decide
  have hstatistics : session.statistics = ⟨2, 1, 1, 1⟩ := by decide +kernel
  obtain ⟨db, hdb, htotal, -, hlinks, hcompiles, hmalformed, -⟩ := run_accounts "/b" hcalls
  have hfiles : (((calls.flatMap Call.events).filter (·.counter "/b" = .compiles)).map fun event =>
      (event.files "/b").length).sum = 2 := by decide +kernel
  refine ⟨hcalls, hstatistics, htotal, db, hdb, ?_, hcompiles.trans hfiles, ?_⟩
  · rw [← hlinks, hstatistics]
  · rw [← hmalformed, hstatistics]

end Session

end BuildCommands
