import BuildCommands.Event
import BuildCommands.Text.Blank
import BuildCommands.Text.Utf8

/-!
# Event logs

A log of events is either one JSON array, when its first character that is not white space is a
bracket, or one JSON object on each line that is not blank.  Reading goes on up to the first fault
and keeps the events before it; an array that is not JSON holds no events at all.  Where the JSON
reader meets one of its limits, that is no fault of an event and ends the reading in its own way.
-/

namespace BuildCommands

/-! ## Texts -/

/-- What ends the reading of a log: a faulty event, or a limit of the JSON reader. -/
inductive LogFailure where
  | faulty (failure : EventFailure)
  | exceeded (excess : Json.Excess)
  deriving DecidableEq, Repr

/-- The events read from a log, and the failure that ended the reading. -/
structure EventLog where
  events : List BuildEvent
  failure? : Option LogFailure
  deriving DecidableEq, Repr

namespace EventLog

/-- The event that a value on the given line describes. -/
def ofValue (line : Int) (value : Json) : Except LogFailure BuildEvent :=
  (BuildEvent.ofJson line value).mapError .faulty

/-- The events up to the first failure; `done` holds the ones so far in reverse. -/
def collect (done : List BuildEvent) : List (Except LogFailure BuildEvent) → EventLog
  | [] => ⟨done.reverse, none⟩
  | .ok event :: rest => collect (event :: done) rest
  | .error failure :: _ => ⟨done.reverse, some failure⟩

/-- The event on a line with the given number. -/
def readLine (reader : Json.Reader) (number : Nat) (line : List Char) :
    Except LogFailure BuildEvent :=
  match Json.parse reader line with
  | .ok value => ofValue number value
  | .error (.fault fault _) => .error (.faulty ⟨.notJson fault, number⟩)
  | .error (.excess excess) => .error (.exceeded excess)

/-- The lines that are not blank, with their numbers. -/
def numberedLines (text : List Char) : List (List Char × Nat) :=
  ((Text.splitLines text).zipIdx 1).filter fun line => !line.1.all Text.isBlank

/-- Reads a log with an object on each line. -/
def ofLines (reader : Json.Reader) (text : List Char) : EventLog :=
  collect [] ((numberedLines text).map fun line => readLine reader line.2 line.1)

/-- Reads a log that is one array. -/
def ofArray (reader : Json.Reader) (text : List Char) : EventLog :=
  match Json.parse reader text with
  | .error (.fault fault rest) => ⟨[], some (.faulty ⟨.notJson fault, Json.lineOf text rest⟩)⟩
  | .error (.excess excess) => ⟨[], some (.exceeded excess)⟩
  | .ok (.array items) => collect [] (items.map (ofValue 0))
  | .ok _ => ⟨[], none⟩

/-- Reads a log. -/
def ofText (reader : Json.Reader) (text : List Char) : EventLog :=
  if (Text.dropBlank text).head? = some '[' then ofArray reader text else ofLines reader text

end EventLog

/-! ## Files -/

/-- Why the events of a file cannot be had: its bytes are not UTF-8, it holds a faulty event, or it
exceeds a limit of the JSON reader. -/
inductive ReadFailure where
  | undecodable (fault : Text.Utf8Fault)
  | faulty (failure : EventFailure)
  | exceeded (excess : Json.Excess)
  deriving DecidableEq, Repr

/-- Every event of a log, unless the reading ends before.  All line breaks count as line feeds. -/
def eventsOfText (reader : Json.Reader) (text : List Char) :
    Except ReadFailure (List BuildEvent) :=
  match EventLog.ofText reader (Text.replaceLineBreaks '\n' text) with
  | ⟨events, none⟩ => .ok events
  | ⟨_, some (.faulty failure)⟩ => .error (.faulty failure)
  | ⟨_, some (.exceeded excess)⟩ => .error (.exceeded excess)

/-- The events of the file that a path names, or of the standard input when the path is a dash.
Only a file may start with a byte order mark. -/
def readEvents (reader : Json.Reader) (tree : FileTree) (directory : Location) (input : ByteArray)
    (path : String) : Except ReadFailure (List BuildEvent) :=
  if path = "-" then
    match Text.decode input.toList with
    | .ok text => eventsOfText reader text
    | .error fault => .error (.undecodable fault)
  else
    match tree.readFile directory path with
    | .error fault => .error (.faulty ⟨.unreadable path ⟨fault, path⟩, 0⟩)
    | .ok content =>
      match Text.decodeMarked content.toList with
      | .ok text => eventsOfText reader text
      | .error fault => .error (.undecodable fault)

end BuildCommands
