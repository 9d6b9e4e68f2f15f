import BuildCommands.Proofs.Reordering
import BuildCommands.Session.Threads

/-!
# Events on several threads

Threads take the steps of all events, each event's in their order, and none is left out.  A step
adds the same to the session whenever it is taken, so a build on several threads comes to what it
comes to when the events are handled one after the other in some order, but for the order of its
notes.

    interleave window schedule queues  is the items of the queues in some order   (interleave_perm)
    processOn threads schedule events  records as some order of the events does    (processOn_start)

No step of a session that is under way is refused, so it does not matter what the threads would do
about a refusal.
-/

namespace BuildCommands

/-! ## Definitions -/

namespace SessionStep

/-- The event whose records the step adds. -/
def recorded? : SessionStep → Option BuildEvent
  | .record event => some event
  | _ => none

/-- The event that the step counts. -/
def counted? : SessionStep → Option BuildEvent
  | .count event => some event
  | _ => none

/-- The note that the step makes. -/
def note? : SessionStep → Option LogEntry
  | .note entry => some entry
  | _ => none

end SessionStep

/-- A session with some steps behind it. -/
def Session.after (session : Session) (steps : List SessionStep) : Session where
  base := session.base
  database? := session.database?.map (·.replay session.base (steps.filterMap (·.recorded?)))
  statistics := (steps.filterMap (·.counted?)).foldl
    (fun s event => s.count (event.outcome session.base)) session.statistics
  log := session.log ++ steps.filterMap (·.note?)

/-! ## Interleaving -/

section

variable {α : Type} {queues : List (List α)}

/-- What is taken from one queue and what is left are all items. -/
theorem cons_flatten_set_perm {item : α} {queue : List α} : ∀ {k : Nat} {queues : List (List α)},
    queues[k]? = some (item :: queue) → (item :: (queues.set k queue).flatten).Perm queues.flatten
  | 0, first :: queues, h => by
    cases h
    exact List.Perm.refl _
  | k + 1, first :: queues, h => by
    have hrest : (item :: (queues.set k queue).flatten).Perm queues.flatten :=
      cons_flatten_set_perm (by simpa using h)
    exact List.perm_middle.symm.trans (hrest.append_left first)

theorem flatten_length_of_take {item : α} {queue : List α} {k : Nat}
    (h : queues[k]? = some (item :: queue)) :
    queues.flatten.length = (queues.set k queue).flatten.length + 1 :=
  (cons_flatten_set_perm h).length_eq.symm

/-- As long as items are left, a queue in the window has one. -/
theorem exists_next {window left : Nat} (hwindow : 0 < window) (choice : Nat)
    (hleft : queues.flatten.length = left + 1) :
    ∃ item queue,
      (queues.filter (!·.isEmpty))[choice % min window (queues.filter (!·.isEmpty)).length]? =
        some (item :: queue) := by
  have hlength : 0 < (queues.filter (!·.isEmpty)).length := by
    refine List.length_pos_iff.mpr fun hnil => ?_
    rw [← List.flatten_filter_not_isEmpty, hnil] at hleft
    cases hleft
  have hk : choice % min window (queues.filter (!·.isEmpty)).length <
      (queues.filter (!·.isEmpty)).length :=
    Nat.lt_of_lt_of_le (Nat.mod_lt _ (by omega)) (Nat.min_le_right _ _)
  have hmem := List.getElem_mem hk
  rw [List.getElem?_eq_getElem hk]
  cases hqueue : (queues.filter (!·.isEmpty))[choice % min window _] with
  | nil =>
    rw [hqueue] at hmem
    simp at hmem
  | cons item queue => exact ⟨item, queue, rfl⟩

theorem interleave_perm {window : Nat} (hwindow : 0 < window) (schedule : Nat → Nat) :
    ∀ (left : Nat) (queues : List (List α)), queues.flatten.length = left →
      (interleave window schedule left queues).Perm queues.flatten
  | 0, queues, hleft => by
    rw [List.length_eq_zero_iff.mp hleft]
    exact List.Perm.refl _
  | left + 1, queues, hleft => by
    obtain ⟨item, queue, hnext⟩ := exists_next hwindow (schedule left) hleft
    have hitems := cons_flatten_set_perm hnext
    have hrest := flatten_length_of_take hnext
    rw [List.flatten_filter_not_isEmpty, hleft, Nat.add_right_cancel_iff] at hrest
    rw [List.flatten_filter_not_isEmpty] at hitems
    unfold interleave
    simp only [hnext]
    exact ((interleave_perm hwindow schedule left _ hrest.symm).cons item).trans hitems

end

/-! ## Steps -/

namespace Session

variable {session : Session}

theorem isSome_after (session : Session) (steps : List SessionStep) :
    (session.after steps).database?.isSome = session.database?.isSome := by
  unfold after
  rw [Option.isSome_map]

theorem after_nil (session : Session) : session.after [] = session := by
  unfold after
  cases session
  simp [Database.replay_nil]

theorem after_append (session : Session) (steps more : List SessionStep) :
    session.after (steps ++ more) = (session.after steps).after more := by
  unfold after
  simp only [List.filterMap_append, List.foldl_append, append_lists, Option.map_map]
  congr 1
  exact congrArg (Option.map · session.database?) (funext fun db => db.replay_append _ _)

/-- No step of a session that is under way is refused. -/
theorem take_live (h : session.database?.isSome) (step : SessionStep) :
    session.take step = .ok (session.after [step]) := by
  obtain ⟨db, hdb⟩ := Option.isSome_iff_exists.mp h
  unfold after
  cases step with
  | begin =>
    simp only [take, hdb]
    cases session
    simp_all [SessionStep.recorded?, SessionStep.counted?, SessionStep.note?, Database.replay_nil]
  | note entry =>
    simp [take, SessionStep.recorded?, SessionStep.counted?, SessionStep.note?, hdb,
      Database.replay_nil]
  | record event =>
    simp [take, SessionStep.recorded?, SessionStep.counted?, SessionStep.note?, hdb,
      record_outcome]
  | count event =>
    simp [take, SessionStep.recorded?, SessionStep.counted?, SessionStep.note?, hdb,
      Database.replay_nil]

theorem foldlM_take_live (steps : List SessionStep) : ∀ session : Session,
    session.database?.isSome → steps.foldlM take session = .ok (session.after steps) := by
  induction steps with
  | nil =>
    intro session _
    rw [after_nil]
    rfl
  | cons step steps ih =>
    intro session h
    have hlive : (session.after [step]).database?.isSome := by
      rw [isSome_after]
      exact h
    rw [List.foldlM_cons, take_live h, show step :: steps = [step] ++ steps from rfl, after_append]
    exact ih _ hlive

/-! ## Events -/

theorem filterMap_steps (base : String) (event : BuildEvent) :
    (event.steps base).filterMap (·.recorded?) = [event] ∧
      (event.steps base).filterMap (·.counted?) = [event] ∧
      (event.steps base).filterMap (·.note?) = (event.outcome base).notes event := by
  unfold BuildEvent.steps
  simp [SessionStep.recorded?, SessionStep.counted?, SessionStep.note?, List.filterMap_map,
    List.filterMap_append]

theorem filterMap_flatMap_steps (base : String) (events : List BuildEvent) :
    (events.flatMap (·.steps base)).filterMap (·.recorded?) = events ∧
      (events.flatMap (·.steps base)).filterMap (·.counted?) = events ∧
      (events.flatMap (·.steps base)).filterMap (·.note?) =
        events.flatMap fun event => (event.outcome base).notes event := by
  induction events with
  | nil => exact ⟨rfl, rfl, rfl⟩
  | cons event events ih =>
    obtain ⟨hrecorded, hcounted, hnoted⟩ := filterMap_steps base event
    simp only [List.flatMap_cons, List.filterMap_append, hrecorded, hcounted, hnoted, ih,
      List.singleton_append, and_self]

/-- The steps of an event, taken one behind the other, are what handling it at once comes to. -/
theorem foldlM_take_steps (session : Session) (event : BuildEvent) :
    (event.steps session.base).foldlM take session = (session.handle event).map (·.1) := by
  cases hdb : session.database? with
  | none =>
    unfold BuildEvent.steps handle
    simp only [List.cons_append, List.foldlM_cons, take, hdb]
    rfl
  | some db =>
    have hlive : session.database?.isSome := by rw [hdb]; rfl
    obtain ⟨hrecorded, hcounted, hnoted⟩ := filterMap_steps session.base event
    rw [foldlM_take_live _ _ hlive, handle_live hlive]
    unfold after replay
    rw [hrecorded, hcounted, hnoted, List.flatMap_singleton]
    rfl

/-! ## Builds -/

theorem processOn_of_le_one {threads : Nat} (h : threads ≤ 1) (schedule : Nat → Nat)
    (session : Session) (events : List BuildEvent) :
    session.processOn threads schedule events = session.process events := if_pos h

/-- However the threads take turns, every event is recorded, and what the session comes to is what
it comes to when the events are handled in some order, one after the other, but for the order of the
notes.  On one thread this is the order of the events. -/
theorem processOn_start (base : String) (threads : Nat) (schedule : Nat → Nat)
    (events : List BuildEvent) :
    ∃ order session, order.Perm events ∧
      (start base).processOn threads schedule events = .ok session ∧
      session.database? = ((start base).replay order).database? ∧
      session.statistics = ((start base).replay events).statistics ∧
      session.log.toList.Perm ((start base).replay events).log.toList ∧
      (threads ≤ 1 → order = events) := by
  by_cases hone : threads ≤ 1
  · have hprocess := process_live events (start base) rfl
    rw [← processOn_of_le_one hone schedule] at hprocess
    exact ⟨events, _, .refl _, hprocess, rfl, rfl, .refl _, fun _ => rfl⟩
  have hsteps := interleave_perm (Nat.zero_lt_of_lt (Nat.lt_of_not_le hone)) schedule _
    (events.map (·.steps base)) rfl
  rw [← List.flatMap_def] at hsteps
  have hprocess : (start base).processOn threads schedule events =
      .ok ((start base).after (interleave threads schedule
        (events.flatMap (·.steps base)).length (events.map (·.steps base)))) := by
    unfold processOn
    rw [if_neg hone, List.flatMap_def]
    exact foldlM_take_live _ (start base) rfl
  generalize interleave threads schedule _ _ = row at hsteps hprocess
  obtain ⟨hrecorded, hcounted, hnoted⟩ := filterMap_flatMap_steps base events
  refine ⟨row.filterMap (·.recorded?), (start base).after row, ?_, hprocess, rfl, ?_, ?_,
    fun h => absurd h hone⟩
  · rw [← hrecorded]
    exact hsteps.filterMap SessionStep.recorded?
  · have hperm := hsteps.filterMap SessionStep.counted?
    rw [hcounted] at hperm
    exact statistics_replay_perm (start base) hperm
  · have hperm := hsteps.filterMap SessionStep.note?
    rw [hnoted] at hperm
    unfold after replay
    rw [Array.toList_appendList, Array.toList_appendList]
    exact hperm.append_left _

end Session

end BuildCommands
