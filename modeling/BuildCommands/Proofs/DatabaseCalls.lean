import BuildCommands.Database
import Mathlib.Data.List.Basic

/-!
# Calls on a database

A database lives through calls: the records of a compiler run are added, the record of a linker run
is added, or a snapshot is taken.  Records are only ever added behind those that are there, all of a
call's or none, so a history of calls leaves what its calls recorded, one behind the other.

    records after a call  = what was there ++ what the call recorded      (compiles_call, links_call)
    records after some    = what was there ++ what each recorded          (compiles_run, links_run)
    snapshots             : each begins every later one                   (pairwise_snapshots)
-/

namespace BuildCommands

namespace Database

/-! ## Definitions -/

/-- A call on a database. -/
inductive Call where
  | addCompile (command directory : String) (files : List String)
  | addLink (command directory : String) (files : List String)
  | snapshot
  deriving DecidableEq, Repr

/-- What a call answers. -/
inductive Answer where
  /-- So many compile records are new. -/
  | added (count : Nat)
  | linked (record : LinkRecord)
  | refused (fault : EmptyFileName)
  /-- The records at the time. -/
  | taken (records : Database)
  deriving DecidableEq, Repr

/-- The database after a call, and the answer.  A call that is refused hands out no database, and
the one before it stays. -/
def call (db : Database) : Call → Database × Answer
  | .addCompile command directory files =>
    match db.addCompile command directory files with
    | .ok next => (next, .added (next.compiles.size - db.compiles.size))
    | .error fault => (db, .refused fault)
  | .addLink command directory files =>
    (db.addLink ⟨command, directory, files⟩, .linked ⟨command, directory, files⟩)
  | .snapshot => (db, .taken db)

/-- The database after some calls, and each call with its answer. -/
def run (db : Database) : List Call → Database × List (Call × Answer)
  | [] => (db, [])
  | call :: calls =>
    let (next, answer) := db.call call
    let (last, answered) := next.run calls
    (last, (call, answer) :: answered)

def Call.isCompile : Call → Bool
  | .addCompile .. => true
  | _ => false

def Call.isLink : Call → Bool
  | .addLink .. => true
  | _ => false

/-- The compile records of a call that was answered so: its block, if it was not refused. -/
def recorded : Call × Answer → List CompileRecord
  | (.addCompile command directory files, .added _) => compileBlock command directory files
  | _ => []

/-- The link record that a call asks for. -/
def Call.linkRecord? : Call → Option LinkRecord
  | .addLink command directory files => some ⟨command, directory, files⟩
  | _ => none

def Answer.snapshot? : Answer → Option Database
  | .taken records => some records
  | _ => none

/-- The snapshots in a history of calls. -/
def snapshots (answered : List (Call × Answer)) : List Database :=
  answered.filterMap (·.2.snapshot?)

/-- The records of the second database begin with those of the first. -/
structure Begins (db later : Database) : Prop where
  compiles : db.compiles.toList <+: later.compiles.toList
  links : db.links.toList <+: later.links.toList

/-! ## One call -/

section

variable {db : Database} {command directory : String} {files : List String}

theorem call_addCompile_unnamed (h : "" ∈ files) :
    db.call (.addCompile command directory files) = (db, .refused {}) := by
  have hrefused : db.addCompile command directory files = .error {} := by
    unfold addCompile
    rw [if_pos (List.contains_iff_mem.mpr h)]
  rw [call, hrefused]

theorem call_addCompile_named (h : "" ∉ files) :
    db.call (.addCompile command directory files) =
      ({ db with compiles := db.compiles ++ compileBlock command directory files },
        .added files.length) := by
  have hadded : db.addCompile command directory files =
      .ok { db with compiles := db.compiles ++ compileBlock command directory files } := by
    unfold addCompile
    rw [if_neg (by rwa [List.contains_iff_mem])]
  have hcount : (db.compiles ++ compileBlock command directory files).size - db.compiles.size =
      files.length := by
    rw [← Array.length_toList, Array.toList_appendList, List.length_append, compileBlock,
      List.length_map, Array.length_toList, Nat.add_sub_cancel_left]
  rw [call, hadded]
  simp only [hcount]

end

/-- A call puts the compile records that it recorded behind those that are there. -/
theorem compiles_call (db : Database) (c : Call) :
    (db.call c).1.compiles.toList = db.compiles.toList ++ recorded (c, (db.call c).2) := by
  cases c with
  | addCompile command directory files =>
    by_cases h : "" ∈ files
    · rw [call_addCompile_unnamed h]
      exact (List.append_nil _).symm
    · rw [call_addCompile_named h]
      exact Array.toList_appendList
  | addLink | snapshot => exact (List.append_nil _).symm

/-- A call puts the link record that it asks for behind those that are there. -/
theorem links_call (db : Database) (c : Call) :
    (db.call c).1.links.toList = db.links.toList ++ c.linkRecord?.toList := by
  cases c with
  | addCompile command directory files =>
    by_cases h : "" ∈ files
    · rw [call_addCompile_unnamed h]
      exact (List.append_nil _).symm
    · rw [call_addCompile_named h]
      exact (List.append_nil _).symm
  | addLink command directory files => exact Array.toList_push
  | snapshot => exact (List.append_nil _).symm

theorem file_ne_of_mem_recorded (db : Database) (c : Call) {record : CompileRecord}
    (h : record ∈ recorded (c, (db.call c).2)) : record.file ≠ "" := by
  cases c with
  | addCompile command directory files =>
    by_cases hnames : "" ∈ files
    · rw [call_addCompile_unnamed hnames] at h
      cases h
    · rw [call_addCompile_named hnames] at h
      obtain ⟨file, hfile, rfl⟩ := List.mem_map.mp h
      exact fun he => hnames (he ▸ hfile)
  | addLink | snapshot => cases h

/-- Whether a call is refused, and so what it records, does not depend on the database. -/
theorem recorded_call (db other : Database) (c : Call) :
    recorded (c, (db.call c).2) = recorded (c, (other.call c).2) := by
  cases c with
  | addCompile command directory files =>
    by_cases h : "" ∈ files
    · rw [call_addCompile_unnamed h, call_addCompile_unnamed h]
    · rw [call_addCompile_named h, call_addCompile_named h]
  | addLink | snapshot => rfl

theorem Begins.refl (db : Database) : db.Begins db := ⟨List.prefix_refl _, List.prefix_refl _⟩

theorem Begins.trans {db later last : Database} (h : db.Begins later) (h' : later.Begins last) :
    db.Begins last :=
  ⟨h.compiles.trans h'.compiles, h.links.trans h'.links⟩

theorem begins_call (db : Database) (c : Call) : db.Begins (db.call c).1 :=
  ⟨compiles_call db c ▸ List.prefix_append _ _, links_call db c ▸ List.prefix_append _ _⟩

theorem eq_of_snapshot?_call {db records : Database} {c : Call}
    (h : (db.call c).2.snapshot? = some records) : records = db := by
  cases c with
  | addCompile command directory files =>
    by_cases hnames : "" ∈ files
    · rw [call_addCompile_unnamed hnames] at h
      cases h
    · rw [call_addCompile_named hnames] at h
      cases h
  | addLink => cases h
  | snapshot => exact (Option.some.inj h).symm

/-! ## Histories of calls -/

theorem run_cons (db : Database) (c : Call) (calls : List Call) :
    db.run (c :: calls) =
      (((db.call c).1.run calls).1, (c, (db.call c).2) :: ((db.call c).1.run calls).2) := rfl

theorem map_fst_run (calls : List Call) : ∀ db : Database,
    (db.run calls).2.map Prod.fst = calls := by
  induction calls with
  | nil =>
    intro db
    rfl
  | cons c calls ih =>
    intro db
    rw [run_cons, List.map_cons, ih]

/-- A history of calls puts the compile records of each behind those that are there. -/
theorem compiles_run (calls : List Call) : ∀ db : Database,
    (db.run calls).1.compiles.toList =
      db.compiles.toList ++ (db.run calls).2.flatMap recorded := by
  induction calls with
  | nil =>
    intro db
    exact (List.append_nil _).symm
  | cons c calls ih =>
    intro db
    rw [run_cons, ih, compiles_call, List.flatMap_cons, List.append_assoc]

/-- A history of calls puts the link records of each behind those that are there. -/
theorem links_run (calls : List Call) : ∀ db : Database,
    (db.run calls).1.links.toList = db.links.toList ++ calls.filterMap Call.linkRecord? := by
  induction calls with
  | nil =>
    intro db
    exact (List.append_nil _).symm
  | cons c calls ih =>
    intro db
    rw [run_cons, ih, links_call, List.append_assoc, List.filterMap_eq_flatMap_toList,
      List.filterMap_eq_flatMap_toList, List.flatMap_cons]

theorem file_ne_of_mem_run (calls : List Call) : ∀ db : Database,
    ∀ record ∈ (db.run calls).2.flatMap recorded, record.file ≠ "" := by
  induction calls with
  | nil =>
    intro db record h
    cases h
  | cons c calls ih =>
    intro db record h
    rw [run_cons, List.flatMap_cons] at h
    rcases List.mem_append.mp h with h | h
    · exact file_ne_of_mem_recorded db c h
    · exact ih _ record h

/-- Only the calls that add compile records matter to what is recorded of them. -/
theorem recorded_run_filter (calls : List Call) : ∀ db other : Database,
    (other.run (calls.filter Call.isCompile)).2.flatMap recorded =
      (db.run calls).2.flatMap recorded := by
  induction calls with
  | nil =>
    intro db other
    rfl
  | cons c calls ih =>
    intro db other
    rw [run_cons, List.flatMap_cons]
    cases hc : c.isCompile with
    | true =>
      rw [List.filter_cons_of_pos hc, run_cons, List.flatMap_cons, recorded_call other db,
        ih (db.call c).1]
    | false =>
      have hnone : recorded (c, (db.call c).2) = [] := by
        cases c with
        | addCompile => cases hc
        | addLink | snapshot => rfl
      rw [List.filter_cons_of_neg (by simp [hc]), hnone, List.nil_append, ih (db.call c).1]

/-- Only the calls that add link records matter to what is recorded of them. -/
theorem linkRecords_filter (calls : List Call) :
    (calls.filter Call.isLink).filterMap Call.linkRecord? = calls.filterMap Call.linkRecord? := by
  rw [List.filterMap_filter]
  congr 1
  funext c
  cases c <;> rfl

theorem snapshots_run_cons (db : Database) (c : Call) (calls : List Call) :
    snapshots (db.run (c :: calls)).2 =
      (db.call c).2.snapshot?.toList ++ snapshots ((db.call c).1.run calls).2 := by
  unfold snapshots
  rw [List.filterMap_eq_flatMap_toList, List.filterMap_eq_flatMap_toList, run_cons,
    List.flatMap_cons]

/-- Every snapshot of a history begins with what was there before it. -/
theorem begins_snapshot (calls : List Call) : ∀ db : Database,
    ∀ records ∈ snapshots (db.run calls).2, db.Begins records := by
  induction calls with
  | nil =>
    intro db records h
    cases h
  | cons c calls ih =>
    intro db records h
    rw [snapshots_run_cons] at h
    rcases List.mem_append.mp h with h | h
    · rw [eq_of_snapshot?_call (Option.mem_toList.mp h)]
      exact .refl db
    · exact (begins_call db c).trans (ih _ records h)

/-- Every snapshot of a history begins every later one. -/
theorem pairwise_snapshots (calls : List Call) : ∀ db : Database,
    (snapshots (db.run calls).2).Pairwise Begins := by
  induction calls with
  | nil =>
    intro db
    exact .nil
  | cons c calls ih =>
    intro db
    rw [snapshots_run_cons]
    cases h : (db.call c).2.snapshot? with
    | none => exact ih _
    | some records =>
      rw [eq_of_snapshot?_call h]
      refine .cons (fun later hlater => ?_) (ih _)
      exact (begins_call db c).trans (begins_snapshot calls _ later hlater)

/-- The records of a new database after any history of calls are those of its calls: the blocks of
the compile calls that were not refused and the records of the link calls, in order.  All of them
have names, snapshots grow, a call with a name missing is refused and changes nothing, and neither
sort of call matters to the records of the other. -/
theorem run_empty (calls : List Call) :
    let db := (empty.run calls).1
    let answered := (empty.run calls).2
    answered.map Prod.fst = calls ∧
      db.compiles.toList = answered.flatMap recorded ∧
      db.links.toList = calls.filterMap Call.linkRecord? ∧
      (∀ record ∈ db.compiles.toList, record.file ≠ "") ∧
      db.size = db.compiles.toList.length + db.links.toList.length ∧
      (snapshots answered).Pairwise Begins ∧
      (∀ command directory files,
        db.call (.addCompile command directory files) =
          if "" ∈ files then (db, .refused {})
          else ({ db with compiles := db.compiles ++ compileBlock command directory files },
            .added files.length)) ∧
      (∀ command directory files,
        db.call (.addLink command directory files) =
          ({ db with links := db.links.push ⟨command, directory, files⟩ },
            .linked ⟨command, directory, files⟩)) ∧
      db.call .snapshot = (db, .taken db) ∧
      (empty.run (calls.filter Call.isCompile)).1.compiles.toList = db.compiles.toList ∧
      (empty.run (calls.filter Call.isLink)).1.links.toList = db.links.toList := by
  intro db answered
  have hcompiles : db.compiles.toList = answered.flatMap recorded := compiles_run calls empty
  have hlinks : db.links.toList = calls.filterMap Call.linkRecord? := links_run calls empty
  refine ⟨map_fst_run calls empty, hcompiles, hlinks, ?_, ?_, pairwise_snapshots calls empty, ?_,
    fun _ _ _ => rfl, rfl, ?_, ?_⟩
  · intro record hrecord
    rw [hcompiles] at hrecord
    exact file_ne_of_mem_run calls empty record hrecord
  · rw [Array.length_toList, Array.length_toList]
    rfl
  · intro command directory files
    split_ifs with h
    · exact call_addCompile_unnamed h
    · exact call_addCompile_named h
  · rw [compiles_run, recorded_run_filter calls empty empty, hcompiles]
    rfl
  · rw [links_run, linkRecords_filter, hlinks]
    rfl

end Database

end BuildCommands
