import BuildCommands.Event.Log

/-!
# Which values are events

A value describes an event if it is an object with the three texts; where a name occurs twice, the
last field counts.  Any other value misses something, and the fault says what: the type of a value
that is no object, or else the first of the three fields that is missing or no text.

    ofJson line value = .ok event            ↔ Describes value event             (ofJson_eq_ok_iff)
    ofJson line value = .error ⟨fault, line⟩ ↔ Misses value fault                (ofJson_eq_error_iff)
-/

namespace BuildCommands

/-! ## Definitions -/

/-- The last field of the name holds the value. -/
def Json.HasField (fields : List (String × Json)) (name : String) (value : Json) : Prop :=
  ∃ front back, fields = front ++ (name, value) :: back ∧ ∀ field ∈ back, field.1 ≠ name

/-- The value is an object that holds the texts of the event. -/
def Describes (value : Json) (event : BuildEvent) : Prop :=
  ∃ fields, value = .object fields ∧
    Json.HasField fields "taskName" (.text event.task) ∧
    Json.HasField fields "commandLineText" (.text event.commandLine) ∧
    Json.HasField fields "projectFilePath" (.text event.projectFile)

/-- The fields of an event in the order in which they are looked up. -/
def eventFields : List String := ["taskName", "commandLineText", "projectFilePath"]

/-- What a value misses that describes no event. -/
inductive Misses (value : Json) : EventFault → Prop
  | notObject (h : ∀ fields, value ≠ .object fields) : Misses value (.notObject value.typeName)
  | badField {fields : List (String × Json)} {front back : List String} {name : String}
      (hvalue : value = .object fields) (hnames : eventFields = front ++ name :: back)
      (hfront : ∀ n ∈ front, ∃ text, Json.HasField fields n (.text text))
      (hname : ∀ text, ¬Json.HasField fields name (.text text)) : Misses value (.badField name)

/-! ## Fields -/

section

variable {fields : List (String × Json)} {name : String}

theorem Json.field?_eq_some_iff {value : Json} :
    field? fields name = some value ↔ HasField fields name value := by
  unfold field? HasField
  constructor
  · intro h
    obtain ⟨⟨found, v⟩, hfind, rfl⟩ := Option.map_eq_some_iff.mp h
    obtain ⟨hname, back, front, hfields, hback⟩ := List.find?_eq_some_iff_append.mp hfind
    obtain rfl : found = name := by simpa using hname
    refine ⟨front.reverse, back.reverse, ?_, by simpa using hback⟩
    simpa using congrArg List.reverse hfields
  · rintro ⟨front, back, rfl, hback⟩
    refine Option.map_eq_some_iff.mpr ⟨(name, value), ?_, rfl⟩
    refine List.find?_eq_some_iff_append.mpr ⟨by simp, back.reverse, front.reverse, by simp, ?_⟩
    simpa using hback

theorem textField_eq_ok_iff {text : String} :
    textField fields name = .ok text ↔ Json.HasField fields name (.text text) := by
  rw [← Json.field?_eq_some_iff]
  unfold textField
  cases h : Json.field? fields name with
  | none => simp
  | some value => cases value <;> simp [Json.text?]

theorem textField_eq_error_iff {fault : EventFault} :
    textField fields name = .error fault ↔
      (∀ text, ¬Json.HasField fields name (.text text)) ∧ fault = .badField name := by
  have hok : (∀ text, ¬Json.HasField fields name (.text text)) ↔
      ∀ text, textField fields name ≠ .ok text := by
    simp only [ne_eq, textField_eq_ok_iff]
  rw [hok]
  unfold textField
  cases (Json.field? fields name).bind Json.text? with
  | none => simp [eq_comm]
  | some text => simp

end

/-! ## Events -/

namespace BuildEvent

theorem ofFields_eq_ok_iff {fields : List (String × Json)} {event : BuildEvent} :
    ofFields fields = .ok event ↔ Describes (.object fields) event := by
  have hdescribes : Describes (.object fields) event ↔
      textField fields "taskName" = .ok event.task ∧
        textField fields "commandLineText" = .ok event.commandLine ∧
        textField fields "projectFilePath" = .ok event.projectFile := by
    simp [Describes, textField_eq_ok_iff]
  rw [hdescribes]
  unfold ofFields
  cases textField fields "taskName" with
  | error fault => simp [bind, Except.bind]
  | ok task =>
    cases textField fields "commandLineText" with
    | error fault => simp [bind, Except.bind]
    | ok commandLine =>
      cases textField fields "projectFilePath" with
      | error fault => simp [bind, Except.bind]
      | ok projectFile => cases event; simp [bind, Except.bind, pure, Except.pure]

/-- The fields of an event one by one, each with those in front of it. -/
theorem exists_eventFields_iff {P : List String → String → Prop} :
    (∃ front name back, eventFields = front ++ name :: back ∧ P front name) ↔
      P [] "taskName" ∨ P ["taskName"] "commandLineText" ∨
        P ["taskName", "commandLineText"] "projectFilePath" := by
  constructor
  · rintro ⟨front, name, back, hnames, h⟩
    rcases front with _ | ⟨a, _ | ⟨b, _ | ⟨c, front⟩⟩⟩
    · obtain ⟨rfl, -⟩ := List.cons.inj hnames
      exact Or.inl h
    · cases hnames
      exact Or.inr (Or.inl h)
    · cases hnames
      exact Or.inr (Or.inr h)
    · simp [eventFields] at hnames
  · rintro (h | h | h)
    · exact ⟨_, _, _, rfl, h⟩
    · exact ⟨["taskName"], _, _, rfl, h⟩
    · exact ⟨["taskName", "commandLineText"], _, _, rfl, h⟩

/-- The first field that cannot be had ends the reading of an object. -/
theorem ofFields_eq_error_iff {fields : List (String × Json)} {fault : EventFault} :
    ofFields fields = .error fault ↔
      ∃ front name back, eventFields = front ++ name :: back ∧
        (∀ n ∈ front, ∃ text, textField fields n = .ok text) ∧
        textField fields name = .error fault := by
  rw [exists_eventFields_iff]
  simp only [List.forall_mem_cons]
  unfold ofFields
  cases textField fields "taskName" with
  | error fault => simp [bind, Except.bind]
  | ok task =>
    cases textField fields "commandLineText" with
    | error fault => simp [bind, Except.bind]
    | ok commandLine =>
      cases textField fields "projectFilePath" with
      | error fault => simp [bind, Except.bind]
      | ok projectFile => simp [bind, Except.bind, pure, Except.pure]

theorem ofFields_eq_error_iff_misses {fields : List (String × Json)} {fault : EventFault} :
    ofFields fields = .error fault ↔ Misses (.object fields) fault := by
  simp only [ofFields_eq_error_iff, textField_eq_ok_iff, textField_eq_error_iff]
  constructor
  · rintro ⟨front, name, back, hnames, hfront, hname, rfl⟩
    exact .badField rfl hnames hfront hname
  · rintro (⟨h⟩ | ⟨⟨⟩, hnames, hfront, hname⟩)
    · exact absurd rfl (h fields)
    · exact ⟨_, _, _, hnames, hfront, hname, rfl⟩

/-- A value is read if it describes an event. -/
theorem ofJson_eq_ok_iff {line : Int} {value : Json} {event : BuildEvent} :
    ofJson line value = .ok event ↔ Describes value event := by
  unfold ofJson
  cases value with
  | object fields =>
    rw [← ofFields_eq_ok_iff]
    dsimp only
    cases ofFields fields with
    | error fault => exact iff_of_false nofun nofun
    | ok found =>
      constructor
      · rintro ⟨⟩
        rfl
      · rintro ⟨⟩
        rfl
  | _ => exact iff_of_false nofun nofun

/-- A value that describes no event is refused for what it misses, on its line. -/
theorem ofJson_eq_error_iff {line : Int} {value : Json} {failure : EventFailure} :
    ofJson line value = .error failure ↔ ∃ fault, Misses value fault ∧ failure = ⟨fault, line⟩ := by
  unfold ofJson
  cases value with
  | object fields =>
    simp only [← ofFields_eq_error_iff_misses]
    cases ofFields fields with
    | error fault =>
      constructor
      · rintro ⟨⟩
        exact ⟨fault, rfl, rfl⟩
      · rintro ⟨_, ⟨⟩, rfl⟩
        rfl
    | ok event => exact iff_of_false nofun nofun
  | _ =>
    constructor
    · rintro ⟨⟩
      exact ⟨_, .notObject (by simp), rfl⟩
    · rintro ⟨_, ⟨h⟩ | ⟨⟨⟩⟩, rfl⟩
      rfl

/-- Every value describes an event or misses something. -/
theorem describes_or_misses (value : Json) :
    (∃ event, Describes value event) ∨ ∃ fault, Misses value fault := by
  cases hread : ofJson 0 value with
  | ok event => exact Or.inl ⟨event, ofJson_eq_ok_iff.mp hread⟩
  | error failure =>
    obtain ⟨fault, hmisses, -⟩ := ofJson_eq_error_iff.mp hread
    exact Or.inr ⟨fault, hmisses⟩

end BuildEvent

theorem EventLog.ofValue_of_describes {value : Json} {event : BuildEvent}
    (h : Describes value event) (number : Int) : ofValue number value = .ok event := by
  rw [ofValue, BuildEvent.ofJson_eq_ok_iff.mpr h]
  rfl

theorem EventLog.ofValue_of_misses {value : Json} {fault : EventFault} (h : Misses value fault)
    (number : Int) : ofValue number value = .error (.faulty ⟨fault, number⟩) := by
  rw [ofValue, BuildEvent.ofJson_eq_error_iff.mpr ⟨fault, h, rfl⟩]
  rfl

end BuildCommands
