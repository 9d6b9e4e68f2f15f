import BuildCommands.Proofs.Replay
import Mathlib.Data.List.Basic

/-!
# Events in another order

Events of a parallel build arrive in any order.  The order decides where an event's records stand
and nothing else: an event adds the same records, the same count and the same notes wherever it is
handled, and its compile records stand together, in the order of its files.

    order.Perm events → statistics, records and warnings are the same up to order
                                                              (Session.process_perm)
-/

namespace BuildCommands

/-! ## Definitions -/

/-- The warnings noted so far. -/
def Session.warnings (session : Session) : List LogEntry :=
  session.log.toList.filter (·.level = .warning)

/-! ## Counting -/

/-- Of two outcomes either may be counted first. -/
theorem Statistics.count_comm (s : Statistics) (a b : Outcome) :
    (s.count a).count b = (s.count b).count a := by
  unfold Statistics.count
  grind

/-! ## Records and warnings -/

section

variable {base : String} {events order : List BuildEvent}

theorem Database.compiles_replay_perm (db : Database) (h : order.Perm events) :
    (db.replay base order).compiles.toList.Perm (db.replay base events).compiles.toList := by
  unfold Database.replay
  rw [Array.toList_appendList, Array.toList_appendList]
  exact (h.flatMap_right _).append_left _

theorem Database.links_replay_perm (db : Database) (h : order.Perm events) :
    (db.replay base order).links.toList.Perm (db.replay base events).links.toList := by
  unfold Database.replay
  rw [Array.toList_appendList, Array.toList_appendList]
  exact (h.filterMap _).append_left _

/-- The records of one event stand together behind those of the events before it. -/
theorem Database.compiles_replay_split (db : Database) (before after : List BuildEvent)
    (event : BuildEvent) :
    (db.replay base (before ++ event :: after)).compiles.toList =
      (db.replay base before).compiles.toList ++ event.compileRecords base ++
        after.flatMap (·.compileRecords base) := by
  unfold Database.replay
  rw [Array.toList_appendList, Array.toList_appendList, List.flatMap_append, List.flatMap_cons]
  simp only [List.append_assoc]

namespace Session

theorem statistics_replay_perm (session : Session) (h : order.Perm events) :
    (session.replay order).statistics = (session.replay events).statistics :=
  h.foldl_eq' (fun _ _ _ _ s => s.count_comm _ _) session.statistics

theorem warnings_replay_perm (session : Session) (h : order.Perm events) :
    (session.replay order).warnings.Perm (session.replay events).warnings := by
  unfold warnings replay
  rw [Array.toList_appendList, Array.toList_appendList]
  exact ((h.flatMap_right _).append_left _).filter _

/-! ## Sessions -/

/-- A session that starts with no records takes the events of a build in any order, and then has the
same statistics and, up to their order, the same records and warnings.  Whatever the order, the
compile records of each event are one block, in the order of its files. -/
theorem process_perm (base : String) (h : order.Perm events) :
    ∃ s t : Session, ∃ db db' : Database,
      (start base).process events = .ok s ∧ s.database = .ok db ∧
      (start base).process order = .ok t ∧ t.database = .ok db' ∧
      t.statistics = s.statistics ∧
      db'.compiles.toList.Perm db.compiles.toList ∧
      db'.links.toList.Perm db.links.toList ∧
      t.warnings.Perm s.warnings ∧
      ∀ before event after, order = before ++ event :: after →
        db'.compiles.toList =
          before.flatMap (·.compileRecords base) ++ event.compileRecords base ++
            after.flatMap (·.compileRecords base) := by
  refine ⟨(start base).replay events, (start base).replay order, Database.empty.replay base events,
    Database.empty.replay base order, process_live _ _ rfl, rfl, process_live _ _ rfl, rfl,
    statistics_replay_perm _ h, Database.compiles_replay_perm _ h, Database.links_replay_perm _ h,
    warnings_replay_perm _ h, ?_⟩
  rintro before event after rfl
  have hbefore : (Database.empty.replay base before).compiles.toList =
      before.flatMap (·.compileRecords base) := by
    unfold Database.replay
    rw [Array.toList_appendList]
    rfl
  rw [Database.compiles_replay_split, hbefore]

/-- A run of two files, one of the linker and one that names no executable, handled backwards. -/
theorem process_perm_reverse :
    [BuildEvent.mk "CL" "" "x", ⟨"Link", "link.exe a.obj", "x"⟩, ⟨"CL", "cl.exe a.c b.c", "x"⟩].Perm
      [⟨"CL", "cl.exe a.c b.c", "x"⟩, ⟨"Link", "link.exe a.obj", "x"⟩, ⟨"CL", "", "x"⟩] ∧
    ∃ s t : Session, ∃ db db' : Database,
      (start "/b").process
          [⟨"CL", "cl.exe a.c b.c", "x"⟩, ⟨"Link", "link.exe a.obj", "x"⟩, ⟨"CL", "", "x"⟩] =
        .ok s ∧ s.database = .ok db ∧
      (start "/b").process
          [⟨"CL", "", "x"⟩, ⟨"Link", "link.exe a.obj", "x"⟩, ⟨"CL", "cl.exe a.c b.c", "x"⟩] =
        .ok t ∧ t.database = .ok db' ∧
      t.statistics = s.statistics ∧ db'.compiles.toList.Perm db.compiles.toList ∧
      db'.links.toList.Perm db.links.toList ∧ t.warnings.Perm s.warnings := by
  have h : [BuildEvent.mk "CL" "" "x", ⟨"Link", "link.exe a.obj", "x"⟩,
      ⟨"CL", "cl.exe a.c b.c", "x"⟩].Perm
        [⟨"CL", "cl.exe a.c b.c", "x"⟩, ⟨"Link", "link.exe a.obj", "x"⟩, ⟨"CL", "", "x"⟩] := by
    decide
  obtain ⟨s, t, db, db', hs, hdb, ht, hdb', hstatistics, hcompiles, hlinks, hwarnings, -⟩ :=
    process_perm "/b" h
  exact ⟨h, s, t, db, db', hs, hdb, ht, hdb', hstatistics, hcompiles, hlinks, hwarnings⟩

end Session

end

end BuildCommands
