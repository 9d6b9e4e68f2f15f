import BuildCommands.Proofs.EventLines
import BuildCommands.Proofs.EventReading
import BuildCommands.Proofs.JsonDocuments

/-!
# Line numbers

A log that does not begin with a bracket is read line by line, blank lines left out, up to the
first line that describes no event; the failure has the number of that line among all of them.
Blank lines that are put in anywhere change no event, and move the number by as many as stand in
front of the line.  A line that exceeds a limit of the reader ends the reading as well, whether it
describes an event or not, and its failure has no number.

    ofText reader text = log ↔ ReadsLines reader (splitLines text) log
    ofText reader text' = i.shift (ofText reader text)
                              where the lines of both are those of an insertion `i`
                                                                                 (ofText_insertion)
-/

namespace BuildCommands

/-! ## Definitions -/

/-- The line is not blank. -/
def hasContent (line : List Char) : Bool := !line.all Text.isBlank

section

variable (reader : Json.Reader)

/-- The line is a document whose value describes the event. -/
def LineDescribes (line : List Char) (event : BuildEvent) : Prop :=
  ∃ value, Json.parse reader line = .ok value ∧ Describes value event

/-- How the line of the given number ends the reading: it is not JSON or misses something, or it
exceeds a limit, which no document does whose value keeps the limits. -/
inductive LineFails (number : Nat) (line : List Char) : LogFailure → Prop
  | notJson {fault : Json.Fault} {rest : List Char} (hdocument : ¬Json.IsDocument line)
      (hparse : Json.parse reader line = .error (.fault fault rest)) :
      LineFails number line (.faulty ⟨.notJson fault, number⟩)
  | misses {value : Json} {fault : EventFault} (hparse : Json.parse reader line = .ok value)
      (h : Misses value fault) : LineFails number line (.faulty ⟨fault, number⟩)
  | exceeds {excess : Json.Excess} (hparse : Json.parse reader line = .error (.excess excess))
      (hvalue : ∀ value, Json.parse (.free reader.surrogates) line = .ok value →
        Json.fits reader 0 value = false) : LineFails number line (.exceeded excess)

/-- The log that lines give: every line with content describes its event, or the lines with content
before the first that ends the reading do. -/
inductive ReadsLines : List (List Char) → EventLog → Prop
  | all {lines : List (List Char)} {events : List BuildEvent}
      (h : List.Forall₂ (LineDescribes reader) (lines.filter hasContent) events) :
      ReadsLines lines ⟨events, none⟩
  | upTo {before after : List (List Char)} {line : List Char} {events : List BuildEvent}
      {failure : LogFailure}
      (hbefore : List.Forall₂ (LineDescribes reader) (before.filter hasContent) events)
      (hcontent : hasContent line = true)
      (hline : LineFails reader (before.length + 1) line failure) :
      ReadsLines (before ++ line :: after) ⟨events, some failure⟩

end

/-- Lines put in between others: some in front of the first line, and some behind each line. -/
structure Insertion where
  front : List (List Char)
  behind : List (List Char × List (List Char))

namespace Insertion

/-- The lines without those put in. -/
def original (i : Insertion) : List (List Char) := i.behind.map (·.1)

/-- The lines with those put in. -/
def result (i : Insertion) : List (List Char) :=
  i.front ++ i.behind.flatMap fun line => line.1 :: line.2

/-- The lines put in. -/
def inserted (i : Insertion) : List (List Char) := i.front ++ i.behind.flatMap (·.2)

/-- How many lines are put in before the original line of the given index. -/
def countBefore (i : Insertion) (index : Nat) : Nat :=
  i.front.length + ((i.behind.take index).map (·.2.length)).sum

/-- The log with the number of its failure, if it has one, moved along with its line. -/
def shift (i : Insertion) (log : EventLog) : EventLog :=
  ⟨log.events, log.failure?.map fun
    | .faulty failure =>
      .faulty ⟨failure.fault, failure.line + i.countBefore (failure.line.toNat - 1)⟩
    | .exceeded excess => .exceeded excess⟩

end Insertion

/-! ## Reading a line -/

section

variable {reader : Json.Reader} {line : List Char} (number : Nat)

theorem readLine_of_describes {event : BuildEvent} (h : LineDescribes reader line event) :
    EventLog.readLine reader number line = .ok event := by
  obtain ⟨value, hparse, hdescribes⟩ := h
  rw [EventLog.readLine, hparse]
  exact EventLog.ofValue_of_describes hdescribes _

theorem readLine_of_fails {failure : LogFailure} (h : LineFails reader number line failure) :
    EventLog.readLine reader number line = .error failure := by
  rw [EventLog.readLine]
  cases h with
  | notJson _ hparse => rw [hparse]
  | misses hparse h =>
    rw [hparse]
    exact EventLog.ofValue_of_misses h _
  | exceeds hparse => rw [hparse]

/-- Every line describes an event or ends the reading. -/
theorem lineDescribes_or_fails (reader : Json.Reader) (line : List Char) :
    (∃ event, LineDescribes reader line event) ∨
      ∃ failure, LineFails reader number line failure := by
  have hlimited := Json.limited_parse reader line
  cases hparse : Json.parse reader line with
  | ok value =>
    rcases BuildEvent.describes_or_misses value with ⟨event, h⟩ | ⟨fault, h⟩
    · exact Or.inl ⟨event, value, hparse, h⟩
    · exact Or.inr ⟨_, .misses hparse h⟩
  | error failure =>
    right
    cases failure with
    | fault fault rest =>
      refine ⟨_, .notJson (fun h => ?_) hparse⟩
      obtain ⟨value, hvalue⟩ := (Json.exists_parse_iff reader.surrogates).mpr h
      rw [hlimited.eq_fault hparse] at hvalue
      cases hvalue
    | excess excess =>
      refine ⟨_, .exceeds hparse fun value hvalue => ?_⟩
      rw [← Bool.not_eq_true]
      intro hfits
      rw [hlimited.eq_ok_iff.mpr ⟨hvalue, hfits⟩] at hparse
      cases hparse

end

/-! ## Reading lines -/

/-- What is read of numbered lines. -/
def readNumbered (reader : Json.Reader) (lines : List (List Char)) (number : Nat) :
    List (Except LogFailure BuildEvent) :=
  ((lines.zipIdx number).filter fun line => hasContent line.1).map fun line =>
    EventLog.readLine reader line.2 line.1

section

variable (reader : Json.Reader)

theorem readNumbered_append (before after : List (List Char)) (number : Nat) :
    readNumbered reader (before ++ after) number =
      readNumbered reader before number ++ readNumbered reader after (number + before.length) := by
  unfold readNumbered
  rw [List.zipIdx_append, List.filter_append, List.map_append]

theorem readNumbered_cons {line : List Char} (h : hasContent line = true)
    (lines : List (List Char)) (number : Nat) :
    readNumbered reader (line :: lines) number =
      EventLog.readLine reader number line :: readNumbered reader lines (number + 1) := by
  simp [readNumbered, h]

theorem readNumbered_cons_blank {line : List Char} (h : hasContent line = false)
    (lines : List (List Char)) (number : Nat) :
    readNumbered reader (line :: lines) number = readNumbered reader lines (number + 1) := by
  simp [readNumbered, h]

end

section

variable {reader : Json.Reader}

theorem readNumbered_of_describes {lines : List (List Char)} {events : List BuildEvent}
    (h : List.Forall₂ (LineDescribes reader) (lines.filter hasContent) events) (number : Nat) :
    readNumbered reader lines number = events.map .ok := by
  induction lines generalizing events number with
  | nil =>
    cases h
    rfl
  | cons line lines ih =>
    cases hcontent : hasContent line with
    | false =>
      rw [List.filter_cons_of_neg (by simp [hcontent])] at h
      rw [readNumbered_cons_blank reader hcontent, ih h]
    | true =>
      rw [List.filter_cons_of_pos hcontent] at h
      cases h with
      | cons hline hlines =>
        rw [readNumbered_cons reader hcontent, ih hlines, readLine_of_describes _ hline,
          List.map_cons]

namespace ReadsLines

variable {lines : List (List Char)} {log : EventLog}

theorem collect_readNumbered (h : ReadsLines reader lines log) :
    EventLog.collect [] (readNumbered reader lines 1) = log := by
  cases h with
  | all h =>
    rw [readNumbered_of_describes h]
    exact EventLog.collect_ok _ []
  | upTo hbefore hcontent hline =>
    rw [readNumbered_append, readNumbered_of_describes hbefore, readNumbered_cons _ hcontent,
      Nat.add_comm 1, readLine_of_fails _ hline]
    exact EventLog.collect_fault _ [] _ _

/-- Lines always give some log. -/
theorem exists_log (reader : Json.Reader) (lines : List (List Char)) :
    ∃ log, ReadsLines reader lines log := by
  rcases exists_forall₂_or_first (LineDescribes reader) (lines.filter hasContent) with
    ⟨events, h⟩ | ⟨before, line, after, events, hsplit, hbefore, hnone⟩
  · exact ⟨_, .all h⟩
  · obtain ⟨first, rest, rfl, rfl, hrest⟩ := List.filter_eq_append_iff.mp hsplit
    obtain ⟨blank, behind, rfl, hblank, hcontent, -⟩ := List.filter_eq_cons_iff.mp hrest
    obtain ⟨failure, hline⟩ := (lineDescribes_or_fails ((first ++ blank).length + 1) reader
      line).resolve_left (not_exists.mpr hnone)
    have hfilter : blank.filter hasContent = [] := by simpa using hblank
    have hfront : (first ++ blank).filter hasContent = first.filter hasContent := by
      rw [List.filter_append, hfilter, List.append_nil]
    rw [← List.append_assoc]
    exact ⟨_, .upTo (hfront ▸ hbefore) hcontent hline⟩

end ReadsLines

end

namespace EventLog

theorem ofLines_iff {reader : Json.Reader} {text : List Char} {log : EventLog} :
    ofLines reader text = log ↔ ReadsLines reader (Text.splitLines text) log := by
  have hread : ofLines reader text =
      collect [] (readNumbered reader (Text.splitLines text) 1) := rfl
  constructor
  · rintro rfl
    obtain ⟨log, h⟩ := ReadsLines.exists_log reader (Text.splitLines text)
    rwa [hread, h.collect_readNumbered]
  · intro h
    rw [hread, h.collect_readNumbered]

end EventLog

/-! ## Lines put in -/

theorem filter_flatMap_behind {behind : List (List Char × List (List Char))}
    (h : ∀ line ∈ behind.flatMap (·.2), hasContent line = false) :
    (behind.flatMap fun line => line.1 :: line.2).filter hasContent =
      (behind.map (·.1)).filter hasContent := by
  induction behind with
  | nil => rfl
  | cons line behind ih =>
    rw [List.flatMap_cons, List.forall_mem_append] at h
    have hblank : line.2.filter hasContent = [] := by simpa using h.1
    rw [List.flatMap_cons, List.map_cons, List.cons_append, List.filter_cons, List.filter_cons,
      List.filter_append, hblank, List.nil_append, ih h.2]

namespace Insertion

variable {i : Insertion}

/-- Blank lines that are put in change no line with content. -/
theorem filter_result (h : ∀ line ∈ i.inserted, hasContent line = false) :
    i.result.filter hasContent = i.original.filter hasContent := by
  obtain ⟨hfront, hbehind⟩ := List.forall_mem_append.mp h
  have hblank : i.front.filter hasContent = [] := by simpa using hfront
  rw [result, List.filter_append, hblank, List.nil_append, filter_flatMap_behind hbehind, original]

theorem length_result (i : Insertion) :
    i.result.length = i.original.length + i.countBefore i.behind.length := by
  obtain ⟨front, behind⟩ := i
  simp only [result, original, countBefore, List.length_append, List.length_map, List.take_length]
  induction behind with
  | nil => simp
  | cons line behind ih =>
    rw [List.flatMap_cons, List.length_append, List.length_cons, List.length_cons, List.map_cons,
      List.sum_cons]
    omega

/-- A failure on the line behind `count` others is moved behind all that stands before it now. -/
theorem shift_faulty {count length : Nat} (h : length = count + i.countBefore count)
    (events : List BuildEvent) (fault : EventFault) :
    i.shift ⟨events, some (.faulty ⟨fault, (count + 1 : Nat)⟩)⟩ =
      ⟨events, some (.faulty ⟨fault, (length + 1 : Nat)⟩)⟩ := by
  simp only [shift, Option.map_some, Int.toNat_natCast, Nat.add_sub_cancel, h]
  congr 4
  omega

/-- Blank lines that are put in move the failure along with its line. -/
theorem readsLines {reader : Json.Reader} {log : EventLog}
    (hread : ReadsLines reader i.original log)
    (h : ∀ line ∈ i.inserted, hasContent line = false) :
    ReadsLines reader i.result (i.shift log) := by
  have hfilter := filter_result h
  generalize hlines : i.original = lines at hread hfilter
  cases hread with
  | all hread =>
    rw [← hfilter] at hread
    exact .all hread
  | @upTo before after line events failure hbefore hcontent hline =>
    obtain ⟨first, rest, hbehind, rfl, hrest⟩ := List.map_eq_append_iff.mp hlines
    obtain ⟨⟨line, blank⟩, last, rfl, rfl, -⟩ := List.map_eq_cons_iff.mp hrest
    -- what stands in front of the faulty line is an insertion as well
    let j : Insertion := ⟨i.front, first⟩
    have hj : ∀ line ∈ j.inserted, hasContent line = false := by
      intro line hmem
      refine h line ?_
      rw [inserted, hbehind, List.flatMap_append, ← List.append_assoc]
      exact List.mem_append_left _ hmem
    have hfront : List.Forall₂ (LineDescribes reader) (j.result.filter hasContent) events := by
      rw [filter_result hj]
      exact hbefore
    have hresult : i.result =
        j.result ++ line :: (blank ++ last.flatMap fun line => line.1 :: line.2) := by
      rw [result, hbehind, List.flatMap_append, List.flatMap_cons, ← List.append_assoc]
      rfl
    have hcount : i.countBefore first.length = j.countBefore first.length := by
      rw [countBefore, hbehind, List.take_left, countBefore, List.take_length]
    have hlength : j.result.length = first.length + i.countBefore first.length := by
      rw [length_result, original, List.length_map, hcount]
    rw [List.length_map] at hline
    rw [hresult]
    cases hline with
    | exceeds hparse hvalue => exact .upTo hfront hcontent (.exceeds hparse hvalue)
    | notJson hdocument hparse =>
      rw [shift_faulty hlength]
      exact .upTo hfront hcontent (.notJson hdocument hparse)
    | misses hparse hmisses =>
      rw [shift_faulty hlength]
      exact .upTo hfront hcontent (.misses hparse hmisses)

end Insertion

/-! ## Logs -/

namespace Text

theorem isBlank_of_isLineEnd {c : Char} (h : isLineEnd c = true) : isBlank c = true := by
  simp only [isLineEnd, Bool.or_eq_true, Bool.and_eq_true, decide_eq_true_eq, beq_iff_eq] at h
  simp only [isBlank, Bool.or_eq_true, Bool.and_eq_true, decide_eq_true_eq, beq_iff_eq]
  omega

/-- The lines of a text hold all of it that is not blank. -/
theorem filter_flatten_splitLinesFrom (line cs : List Char) :
    (splitLinesFrom line cs).flatten.filter (!isBlank ·) =
      (line.reverse ++ cs).filter (!isBlank ·) := by
  fun_induction splitLinesFrom line cs with
  | case1 line h =>
    rw [List.isEmpty_iff.mp h]
    rfl
  | case2 line h => simp
  | case3 line rest ih =>
    have hreturn : (!isBlank '\r') = false := by decide
    have hfeed : (!isBlank '\n') = false := by decide
    simp [ih, hreturn, hfeed]
  | case4 line c rest _ hend ih => simp [ih, isBlank_of_isLineEnd hend]
  | case5 line c rest _ hend ih => simpa using ih

/-- Blank lines hold nothing that is not blank. -/
theorem filter_flatten_content (lines : List (List Char)) :
    (lines.filter hasContent).flatten.filter (!isBlank ·) =
      lines.flatten.filter (!isBlank ·) := by
  induction lines with
  | nil => rfl
  | cons line lines ih =>
    rw [List.flatten_cons, List.filter_append, ← ih]
    cases hcontent : hasContent line with
    | true => rw [List.filter_cons_of_pos hcontent, List.flatten_cons, List.filter_append]
    | false =>
      have hblank : line.filter (!isBlank ·) = [] := by
        simpa [hasContent] using hcontent
      rw [List.filter_cons_of_neg (by simp [hcontent]), hblank, List.nil_append]

/-- What a text begins with apart from white space is decided by its lines with content. -/
theorem head?_dropBlank_congr {text text' : List Char}
    (h : (splitLines text).filter hasContent = (splitLines text').filter hasContent) :
    (dropBlank text).head? = (dropBlank text').head? := by
  have hhead : ∀ text, (dropBlank text).head? =
      (((splitLines text).filter hasContent).flatten.filter (!isBlank ·)).head? := by
    intro text
    rw [filter_flatten_content, splitLines, filter_flatten_splitLinesFrom, List.reverse_nil,
      List.nil_append, List.head?_filter, List.find?_eq_head?_dropWhile_not]
    simp [dropBlank]
  rw [hhead, hhead, h]

end Text

namespace EventLog

/-- The failure of lines names a line, and its wording does. -/
theorem message_of_readsLines {reader : Json.Reader} {lines : List (List Char)} {log : EventLog}
    (h : ReadsLines reader lines log) {failure : EventFailure}
    (hfailure : log.failure? = some (.faulty failure)) :
    failure.message = s!"line {failure.line}: " ++ failure.fault.describe := by
  cases h with
  | all _ => cases hfailure
  | @upTo before _ _ _ _ _ _ hline =>
    have hnumber : ((before.length + 1 : Nat) : Int) ≠ 0 := by omega
    cases hfailure
    cases hline <;> exact if_neg hnumber

/-- A log that does not begin with a bracket gives the events of its lines with content up to the
first one that is faulty, whose number its failure has and its message names, or that exceeds a
limit.  Blank lines that are put in change no event and move the number by as many as stand in front
of that line. -/
theorem ofText_insertion (reader : Json.Reader) {text : List Char}
    (hfirst : (Text.dropBlank text).head? ≠ some '[') :
    (∀ log, ofText reader text = log ↔ ReadsLines reader (Text.splitLines text) log) ∧
    (∀ failure, (ofText reader text).failure? = some (.faulty failure) →
      failure.message = s!"line {failure.line}: " ++ failure.fault.describe) ∧
    ∀ (i : Insertion) (text' : List Char), Text.splitLines text = i.original →
      Text.splitLines text' = i.result → (∀ line ∈ i.inserted, hasContent line = false) →
      ofText reader text' = i.shift (ofText reader text) := by
  have hlines : ∀ {text}, (Text.dropBlank text).head? ≠ some '[' →
      ofText reader text = ofLines reader text :=
    fun h => if_neg h
  have hread : ReadsLines reader (Text.splitLines text) (ofLines reader text) :=
    ofLines_iff.mp rfl
  rw [hlines hfirst]
  refine ⟨fun log => ofLines_iff, fun failure => message_of_readsLines hread, ?_⟩
  intro i text' horiginal hresult hblank
  have hsame : (Text.splitLines text').filter hasContent =
      (Text.splitLines text).filter hasContent := by
    rw [hresult, horiginal, Insertion.filter_result hblank]
  rw [← Text.head?_dropBlank_congr hsame] at hfirst
  rw [hlines hfirst, ofLines_iff, hresult]
  rw [horiginal] at hread
  exact Insertion.readsLines hread hblank

/-- A number on the second line, which is the fifth with one blank line in front of the event and
two behind it. -/
theorem ofText_insertion_three :
    let event : BuildEvent := ⟨"CL", "cl.exe a.c", "p"⟩
    let i : Insertion := ⟨[[' ']], [(event.line, [[], ['\t', '\u3000']]), (['7'], [[]])]⟩
    let text := event.line ++ ['\n', '7']
    let text' := ' ' :: '\x85' :: (event.line ++
      ['\r', '\n', '\n', '\t', '\u3000', '\u2028', '7', '\n', '\n'])
    let reader : Json.Reader := .usual .usual
    ofText reader text = ⟨[event], some (.faulty ⟨.notObject "int", 2⟩)⟩ ∧
      ReadsLines reader (Text.splitLines text) (ofText reader text) ∧
      EventFailure.message ⟨.notObject "int", 2⟩ = "line 2: expected a JSON object, got int" ∧
      ofText reader text' = i.shift (ofText reader text) ∧
      ofText reader text' = ⟨[event], some (.faulty ⟨.notObject "int", 5⟩)⟩ := by
  intro event i text text' reader
  have hfirst : (Text.dropBlank text).head? ≠ some '[' := by decide +kernel
  have hread : ofText reader text = ⟨[event], some (.faulty ⟨.notObject "int", 2⟩)⟩ := by
    decide +kernel
  have hblank : i.inserted.all (fun line => hasContent line = false) = true := by decide +kernel
  obtain ⟨hlines, hmessage, hshift⟩ := ofText_insertion reader hfirst
  have hmoved : ofText reader text' = i.shift (ofText reader text) := by
    refine hshift i text' (by decide +kernel) (by decide +kernel) ?_
    simpa using hblank
  refine ⟨hread, (hlines _).mp rfl, ?_, hmoved, ?_⟩
  · rw [hmessage ⟨.notObject "int", 2⟩ (by rw [hread])]
    decide +kernel
  · rw [hmoved, hread]
    decide +kernel

/-- An event with one more field, an integer of one digit more than the reader admits.  Without limits
it is read; with them the line is refused for the field, which no event needs. -/
theorem long_field_refused :
    let event : BuildEvent := ⟨"CL", "cl.exe a.c", "p"⟩
    let digits := List.replicate 4301 '9'
    let line := '\x7b' :: (Json.renderText "more" ++ ':' :: digits ++ ',' :: event.line.tail)
    ofText (.free .usual) line = ⟨[event], none⟩ ∧
      ofText (.usual .usual) line = ⟨[], some (.exceeded (.digits 4301))⟩ ∧
      Json.Excess.message (.digits 4301) = "Exceeds the limit (4300 digits) for integer string " ++
        "conversion: value has 4301 digits; use sys.set_int_max_str_digits() to increase the limit" := by
  intro event digits line
  refine ⟨?_, ?_, ?_⟩ <;> decide +kernel

end EventLog

end BuildCommands
