import BuildCommands.Event.Log
import BuildCommands.Proofs.Documents
import BuildCommands.Proofs.JsonExtent
import BuildCommands.Proofs.Lists

/-!
# Events on lines and events in an array

The same events can be written as one array or as one object on each line.  The array is always
read back.  The lines are cut at every line boundary of Unicode, and three of the boundaries may
stand raw in a text: next line, line separator and paragraph separator.  The lines are read back
as well exactly when they hold none of these.

    WritesEvent line event      the line is one object that describes the event
    ofText reader (lines, joined) = ⟨events, none⟩ ↔ no line holds one of the three
                                                                                (ofText_written)
-/

namespace BuildCommands

/-! ## Lines -/

namespace Text

theorem splitLinesFrom_append {line : List Char} (h : ∀ c ∈ line, isLineEnd c = false)
    (rest : List Char) :
    ∀ done, splitLinesFrom done (line ++ rest) = splitLinesFrom (line.reverse ++ done) rest := by
  induction line with
  | nil => exact fun done => rfl
  | cons c line ih =>
    intro done
    obtain ⟨hc, hline⟩ := List.forall_mem_cons.mp h
    rw [List.cons_append, splitLinesFrom, hc, if_neg Bool.false_ne_true, ih hline]
    · simp
    · rintro rest rfl
      cases hc

/-- A line reaches up to the first line end. -/
theorem splitLines_append_cons {line : List Char} (h : ∀ c ∈ line, isLineEnd c = false) {c : Char}
    (hend : isLineEnd c = true) (hreturn : c ≠ '\r') (rest : List Char) :
    splitLines (line ++ c :: rest) = line :: splitLines rest := by
  unfold splitLines
  rw [splitLinesFrom_append h, splitLinesFrom, if_pos hend]
  · simp
  · exact fun _ hc _ => hreturn hc

theorem splitLines_of_forall {line : List Char} (hne : line ≠ [])
    (h : ∀ c ∈ line, isLineEnd c = false) : splitLines line = [line] := by
  have hsplit := splitLinesFrom_append h [] []
  rw [List.append_nil, List.append_nil] at hsplit
  rw [splitLines, hsplit, splitLinesFrom]
  simp [hne]

/-- Lines without a line end in them are the lines of the text that joins them. -/
theorem splitLines_intercalate {lines : List (List Char)} (hne : ∀ line ∈ lines, line ≠ [])
    (h : ∀ line ∈ lines, ∀ c ∈ line, isLineEnd c = false) :
    splitLines (['\n'].intercalate lines) = lines := by
  induction lines with
  | nil => rfl
  | cons line lines ih =>
    obtain ⟨hline, hlines⟩ := List.forall_mem_cons.mp h
    obtain ⟨hfirst, hrest⟩ := List.forall_mem_cons.mp hne
    cases lines with
    | nil => rw [List.intercalate_singleton, splitLines_of_forall hfirst hline]
    | cons next lines =>
      rw [List.intercalate_cons_cons, List.append_assoc, List.singleton_append,
        splitLines_append_cons hline rfl (by decide), ih hrest hlines]

/-- A line end inside one of the lines that are joined cuts it: what stands before is a line of the
text. -/
theorem exists_cut {lines : List (List Char)} (hreturn : ∀ line ∈ lines, '\r' ∉ line)
    (h : ∃ line ∈ lines, ∃ c ∈ line, isLineEnd c = true) :
    ∃ before c after, before ++ c :: after ∈ lines ∧ isLineEnd c = true ∧
      before ∈ splitLines (['\n'].intercalate lines) := by
  induction lines with
  | nil => simp at h
  | cons line lines ih =>
    obtain ⟨hline, hlines⟩ := List.forall_mem_cons.mp hreturn
    cases hfind : line.find? isLineEnd with
    | some c =>
      obtain ⟨hc, before, after, rfl, hbefore⟩ := List.find?_eq_some_iff_append.mp hfind
      refine ⟨before, c, after, List.mem_cons_self, hc, ?_⟩
      have hfree : ∀ x ∈ before, isLineEnd x = false := by simpa using hbefore
      have hne : c ≠ '\r' := by
        rintro rfl
        exact hline (by simp)
      obtain ⟨tail, htail⟩ := exists_intercalate_cons ['\n'] (before ++ c :: after) lines
      rw [htail, List.append_assoc, List.cons_append, splitLines_append_cons hfree hc hne]
      exact List.mem_cons_self
    | none =>
      have hfree : ∀ x ∈ line, isLineEnd x = false := by simpa using hfind
      have hlater : ∃ line ∈ lines, ∃ c ∈ line, isLineEnd c = true := by
        obtain ⟨other, hother, c, hc, hend⟩ := h
        rcases List.mem_cons.mp hother with rfl | hother
        · rw [hfree c hc] at hend
          cases hend
        · exact ⟨other, hother, c, hc, hend⟩
      obtain ⟨before, c, after, hmem, hc, hcut⟩ := ih hlines hlater
      refine ⟨before, c, after, List.mem_cons_of_mem _ hmem, hc, ?_⟩
      cases lines with
      | nil => cases hmem
      | cons next lines =>
        rw [List.intercalate_cons_cons, List.append_assoc, List.singleton_append,
          splitLines_append_cons hfree rfl (by decide)]
        exact List.mem_cons_of_mem _ hcut

theorem isBlank_of_isSpace {c : Char} (h : Json.isSpace c = true) : isBlank c = true := by
  simp only [Json.isSpace, Bool.or_eq_true, beq_iff_eq] at h
  rcases h with ((rfl | rfl) | rfl) | rfl <;> decide

/-- White space of a document in front of a character that is not blank is dropped. -/
theorem dropBlank_gap {gap : List Char} (h : Json.IsGap gap) {c : Char} (hc : isBlank c = false)
    (rest : List Char) : dropBlank (gap ++ c :: rest) = c :: rest := by
  unfold dropBlank
  rw [List.dropWhile_append_of_pos fun x hx => isBlank_of_isSpace (h x hx),
    List.dropWhile_cons_of_neg (by simp [hc])]

end Text

/-! ## Objects and arrays -/

namespace Json

/-- Which of the line ends may stand in a document beside line feed and carriage return. -/
theorem IsPlain.isLineEnd_iff {c : Char} (h : IsPlain c) (hfeed : c ≠ '\n') (hreturn : c ≠ '\r') :
    Text.isLineEnd c = true ↔ c = '\x85' ∨ c = '\u2028' ∨ c = '\u2029' := by
  constructor
  · intro hend
    have hcontrol : 0x20 ≤ c.toNat := by
      refine h.resolve_right fun hspace => ?_
      simp only [Json.isSpace, Bool.or_eq_true, beq_iff_eq, hfeed, hreturn, or_false] at hspace
      rcases hspace with rfl | rfl <;> cases hend
    simp only [Text.isLineEnd, Bool.or_eq_true, Bool.and_eq_true, decide_eq_true_eq,
      beq_iff_eq] at hend
    simp only [← Char.toNat_inj]
    show c.toNat = 0x85 ∨ c.toNat = 0x2028 ∨ c.toNat = 0x2029
    omega
  · rintro (rfl | rfl | rfl) <;> rfl

theorem SpellsItem.exists_object {text : List Char} {fields : List (String × Json)}
    (h : SpellsItem text (.object fields)) :
    ∃ gap rest, IsGap gap ∧ text = gap ++ '{' :: rest := by
  cases h with
  | item hbefore h _ =>
    cases h with
    | emptyObject _ => exact ⟨_, _, hbefore, rfl⟩
    | object _ => exact ⟨_, _, hbefore, rfl⟩

theorem SpellsItem.exists_array {text : List Char} {items : List Json}
    (h : SpellsItem text (.array items)) :
    ∃ gap rest, IsGap gap ∧ text = gap ++ '[' :: rest := by
  cases h with
  | item hbefore h _ =>
    cases h with
    | emptyArray _ => exact ⟨_, _, hbefore, rfl⟩
    | array _ => exact ⟨_, _, hbefore, rfl⟩

end Json

/-! ## Events -/

theorem EventLog.ofValue_toJson (line : Int) (event : BuildEvent) :
    EventLog.ofValue line event.toJson = .ok event := by
  rfl

/-- An event keeps the limits of every reader, alone and in an array. -/
theorem BuildEvent.fits_toJson (reader : Json.Reader) {depth : Nat} (h : depth < 3)
    (event : BuildEvent) : Json.fits reader depth event.toJson = true :=
  Json.fits_texts (reader.admitsLevel_of_lt h)
    [("taskName", event.task), ("commandLineText", event.commandLine),
      ("projectFilePath", event.projectFile)]

/-- The line is one object that describes the event, with no line feed or carriage return in it. -/
structure WritesEvent (line : List Char) (event : BuildEvent) : Prop where
  spells : Json.SpellsItem line event.toJson
  feed : '\n' ∉ line
  carriage : '\r' ∉ line

namespace WritesEvent

variable {line : List Char} {event : BuildEvent}

theorem isLineEnd_iff (h : WritesEvent line event) {c : Char} (hc : c ∈ line) :
    Text.isLineEnd c = true ↔ c = '\x85' ∨ c = '\u2028' ∨ c = '\u2029' := by
  refine (h.spells.plain c hc).isLineEnd_iff ?_ ?_
  · rintro rfl
    exact h.feed hc
  · rintro rfl
    exact h.carriage hc

theorem exists_brace (h : WritesEvent line event) :
    ∃ gap rest, Json.IsGap gap ∧ line = gap ++ '{' :: rest :=
  h.spells.exists_object

section

variable {before after : List Char} {c : Char}

/-- The object begins before any foreign character. -/
theorem brace_mem_before (h : WritesEvent (before ++ c :: after) event) (hc : 0x80 ≤ c.toNat) :
    '{' ∈ before := by
  obtain ⟨gap, rest, hgap, heq⟩ := h.exists_brace
  have hskip : Json.skipSpace before ++ c :: after = '{' :: rest := by
    rw [← Json.skipSpace_append_foreign (Json.isForeign_cons hc after), heq,
      Json.skipSpace_gap hgap, Json.skipSpace_cons (by decide)]
  cases hbefore : Json.skipSpace before with
  | nil =>
    rw [hbefore] at hskip
    cases hskip
    exact absurd hc (by decide)
  | cons d ds =>
    rw [hbefore] at hskip
    cases hskip
    exact (List.dropWhile_sublist _).mem (hbefore ▸ List.mem_cons_self)

/-- A line that is cut at a foreign character is no document, for the whole line is one. -/
theorem parse_before (reader : Json.Reader) (h : WritesEvent (before ++ c :: after) event)
    (hc : 0x80 ≤ c.toNat) : ∃ failure, Json.parse reader before = .error failure := by
  cases hparse : Json.parse reader before with
  | error failure => exact ⟨failure, rfl⟩
  | ok value =>
    have hwhole := Json.parse_of_fits reader h.spells (event.fits_toJson reader (by decide))
    rw [Json.parse_append_foreign (Json.isForeign_cons hc after) (List.cons_ne_nil _ _) hparse]
      at hwhole
    cases hwhole

end

end WritesEvent

theorem exists_writes {lines : List (List Char)} {events : List BuildEvent}
    (h : List.Forall₂ WritesEvent lines events) :
    ∀ line ∈ lines, ∃ event, WritesEvent line event := by
  induction h with
  | nil => exact List.forall_mem_nil _
  | cons hline _ ih => exact List.forall_mem_cons.mpr ⟨⟨_, hline⟩, ih⟩

/-! ## Writing an event on a line -/

namespace Json

/-- A text field as it stands on a line with others. -/
def inlineField (name value : String) : List Char :=
  renderText name ++ [':', ' '] ++ renderText value

theorem spells_inlineField {gap : List Char} (hgap : IsGap gap) (name value : String) :
    SpellsField (gap ++ inlineField name value) (name, .text value) := by
  have h := @spells_field 0 gap [] hgap (List.forall_mem_nil _) (name, .text value)
    (spells_text 0 value)
  simpa [inlineField, renderAt] using h

/-- A text is written without controls. -/
theorem le_of_mem_renderText (s : String) : ∀ c ∈ renderText s, 0x20 ≤ c.toNat := by
  have hbody := (spells_flatMap s.toList).le
  have hquote : 0x20 ≤ '"'.toNat := by decide
  exact List.forall_mem_append.mpr
    ⟨List.forall_mem_cons.mpr ⟨hquote, hbody⟩, List.forall_mem_singleton.mpr hquote⟩

theorem le_of_mem_inlineField (name value : String) :
    ∀ c ∈ inlineField name value, 0x20 ≤ c.toNat := by
  have hcolon : ∀ c ∈ [':', ' '], 0x20 ≤ c.toNat := List.all_iff_forall_prop.mp rfl
  unfold inlineField
  simp only [List.forall_mem_append]
  exact ⟨⟨le_of_mem_renderText name, hcolon⟩, le_of_mem_renderText value⟩

end Json

/-- The object of an event on one line. -/
def BuildEvent.line (event : BuildEvent) : List Char :=
  '{' :: (Json.inlineField "taskName" event.task ++
    ',' :: ([' '] ++ Json.inlineField "commandLineText" event.commandLine ++
      ',' :: ([' '] ++ Json.inlineField "projectFilePath" event.projectFile)) ++ ['}'])

theorem BuildEvent.writes_line (event : BuildEvent) : WritesEvent event.line event := by
  have hnone : Json.IsGap [] := by decide
  have hspace : Json.IsGap [' '] := by decide
  have hspells : Json.Spells event.line event.toJson :=
    .object (.cons (Json.spells_inlineField hnone _ _)
      (.cons (Json.spells_inlineField hspace _ _) (.last (Json.spells_inlineField hspace _ _))))
  have hcontrol : ∀ c ∈ event.line, 0x20 ≤ c.toNat := by
    have hfield := Json.le_of_mem_inlineField
    unfold line
    simp only [List.forall_mem_cons, List.forall_mem_append, List.not_mem_nil, false_implies,
      implies_true, and_true]
    exact ⟨by decide, ⟨hfield _ _, by decide, ⟨by decide, hfield _ _⟩, by decide, by decide,
      hfield _ _⟩, by decide⟩
  refine ⟨?_, ?_, ?_⟩
  · simpa using Json.SpellsItem.item hnone hspells hnone
  · exact fun h => absurd (hcontrol _ h) (by decide)
  · exact fun h => absurd (hcontrol _ h) (by decide)

namespace EventLog

variable {events : List BuildEvent}

theorem collect_ok (events done : List BuildEvent) :
    collect done (events.map .ok) = ⟨done.reverse ++ events, none⟩ := by
  induction events generalizing done with
  | nil => simp [collect]
  | cons event events ih => simp [collect, ih]

/-- A failure ends the reading behind the events in front of it. -/
theorem collect_fault (events done : List BuildEvent) (failure : LogFailure)
    (results : List (Except LogFailure BuildEvent)) :
    collect done (events.map .ok ++ .error failure :: results) =
      ⟨done.reverse ++ events, some failure⟩ := by
  induction events generalizing done with
  | nil => simp [collect]
  | cons event events ih => simp [collect, ih]

/-- One event that is faulty ends the reading with a failure. -/
theorem collect_error {results : List (Except LogFailure BuildEvent)} {failure : LogFailure}
    (h : .error failure ∈ results) (done : List BuildEvent) :
    (collect done results).failure? ≠ none := by
  induction results generalizing done with
  | nil => cases h
  | cons result results ih =>
    cases result with
    | error failure => simp [collect]
    | ok event =>
      rw [collect]
      exact ih (by simpa using h) _

/-! ## An array of events -/

section

variable (reader : Json.Reader)

/-- The array of events is read back, wherever it has white space and however it escapes. -/
theorem ofText_array {document : List Char}
    (h : Json.SpellsItem document (.array (events.map BuildEvent.toJson))) :
    ofText reader document = ⟨events, none⟩ := by
  obtain ⟨gap, rest, hgap, hdocument⟩ := h.exists_array
  have hfirst : (Text.dropBlank document).head? = some '[' := by
    rw [hdocument, Text.dropBlank_gap hgap (by decide), List.head?_cons]
  have hlevel := reader.admitsLevel_of_lt (by decide : 0 < 3)
  have hevent := @BuildEvent.fits_toJson reader 1 (by decide)
  have hfits : Json.fits reader 0 (.array (events.map BuildEvent.toJson)) = true := by
    simp [Json.fits_array, hlevel, hevent]
  rw [ofText, if_pos hfirst, ofArray, Json.parse_of_fits reader h hfits]
  simp only [List.map_map]
  exact collect_ok events []

/-! ## Lines of events -/

theorem readLine_writes {line : List Char} {event : BuildEvent} (h : WritesEvent line event)
    (number : Nat) : readLine reader number line = .ok event := by
  rw [readLine, Json.parse_of_fits reader h.spells (event.fits_toJson reader (by decide))]
  exact ofValue_toJson number event

theorem map_readLine {lines : List (List Char)} (h : List.Forall₂ WritesEvent lines events)
    (number : Nat) :
    (lines.zipIdx number).map (fun line => readLine reader line.2 line.1) = events.map .ok := by
  induction h generalizing number with
  | nil => rfl
  | cons hline _ ih =>
    rw [List.zipIdx_cons, List.map_cons, List.map_cons, ih, readLine_writes reader hline]

/-- Lines of objects are no array. -/
theorem ofText_lines {lines : List (List Char)} (h : List.Forall₂ WritesEvent lines events) :
    ofText reader (['\n'].intercalate lines) = ofLines reader (['\n'].intercalate lines) := by
  rw [ofText, if_neg]
  cases h with
  | nil => simp [Text.dropBlank]
  | @cons line _ lines _ hline =>
    obtain ⟨gap, rest, hgap, rfl⟩ := hline.exists_brace
    obtain ⟨tail, htail⟩ := exists_intercalate_cons ['\n'] (gap ++ '{' :: rest) lines
    rw [htail, List.append_assoc, List.cons_append, Text.dropBlank_gap hgap (by decide)]
    simp

theorem ofLines_whole {lines : List (List Char)} (h : List.Forall₂ WritesEvent lines events)
    (hends : ∀ line ∈ lines, ∀ c ∈ line, Text.isLineEnd c = false) :
    ofLines reader (['\n'].intercalate lines) = ⟨events, none⟩ := by
  have hbrace : ∀ line ∈ lines, '{' ∈ line := by
    intro line hmem
    obtain ⟨event, hline⟩ := exists_writes h line hmem
    obtain ⟨gap, rest, -, rfl⟩ := hline.exists_brace
    simp
  have hsplit := Text.splitLines_intercalate
    (fun line hmem => List.ne_nil_of_mem (hbrace line hmem)) hends
  have hnumbered : numberedLines (['\n'].intercalate lines) = lines.zipIdx 1 := by
    rw [numberedLines, hsplit, List.filter_eq_self]
    intro line hmem
    have hfirst : line.1 ∈ (lines.zipIdx 1).map Prod.fst := List.mem_map_of_mem hmem
    rw [List.zipIdx_map_fst] at hfirst
    rw [Bool.not_eq_true', List.all_eq_false]
    exact ⟨'{', hbrace line.1 hfirst, by decide⟩
  rw [ofLines, hnumbered, map_readLine reader h]
  exact collect_ok events []

theorem ofLines_cut {lines : List (List Char)} (h : List.Forall₂ WritesEvent lines events)
    (hends : ∃ line ∈ lines, ∃ c ∈ line, Text.isLineEnd c = true) :
    (ofLines reader (['\n'].intercalate lines)).failure? ≠ none := by
  have hcarriage : ∀ line ∈ lines, '\r' ∉ line := by
    intro line hmem
    obtain ⟨event, hline⟩ := exists_writes h line hmem
    exact hline.carriage
  obtain ⟨before, c, after, hmem, hend, hcut⟩ := Text.exists_cut hcarriage hends
  obtain ⟨event, hline⟩ := exists_writes h _ hmem
  have hforeign : 0x80 ≤ c.toNat := by
    rcases (hline.isLineEnd_iff (by simp)).mp hend with rfl | rfl | rfl <;> decide
  have hblank : before.all Text.isBlank = false :=
    List.all_eq_false.mpr ⟨'{', hline.brace_mem_before hforeign, by decide⟩
  obtain ⟨failure, hparse⟩ := hline.parse_before reader hforeign
  rw [← List.zipIdx_map_fst 1 (Text.splitLines _)] at hcut
  obtain ⟨⟨before, number⟩, hpiece, rfl⟩ := List.mem_map.mp hcut
  obtain ⟨ending, hread⟩ : ∃ ending, readLine reader number before = .error ending := by
    rw [readLine, hparse]
    cases failure <;> exact ⟨_, rfl⟩
  refine collect_error (List.mem_map.mpr ⟨(before, number), ?_, hread⟩) []
  exact List.mem_filter.mpr ⟨hpiece, by simpa using hblank⟩

/-- The array of some events is always read back.  The same events with an object on each line are
read back exactly when no line holds next line, line separator or paragraph separator. -/
theorem ofText_written {lines : List (List Char)} {document : List Char}
    (hlines : List.Forall₂ WritesEvent lines events)
    (hdocument : Json.SpellsItem document (.array (events.map BuildEvent.toJson))) :
    ofText reader document = ⟨events, none⟩ ∧
      (ofText reader (['\n'].intercalate lines) = ⟨events, none⟩ ↔
        ∀ line ∈ lines, ∀ c ∈ line, c ≠ '\x85' ∧ c ≠ '\u2028' ∧ c ≠ '\u2029') := by
  refine ⟨ofText_array reader hdocument, ?_⟩
  rw [ofText_lines reader hlines]
  have hends : ∀ line ∈ lines, ∀ c ∈ line,
      (c ≠ '\x85' ∧ c ≠ '\u2028' ∧ c ≠ '\u2029') ↔ Text.isLineEnd c = false := by
    intro line hmem c hc
    obtain ⟨event, hline⟩ := exists_writes hlines line hmem
    rw [← Bool.not_eq_true, hline.isLineEnd_iff hc]
    simp only [not_or, ne_eq]
  constructor
  · intro hread line hmem c hc
    rw [hends line hmem c hc, ← Bool.not_eq_true]
    intro hend
    refine ofLines_cut reader hlines ⟨line, hmem, c, hc, hend⟩ ?_
    rw [hread]
  · intro hfree
    refine ofLines_whole reader hlines fun line hmem c hc => ?_
    exact (hends line hmem c hc).mp (hfree line hmem c hc)

end

/-- Two events with quotes, backslashes, a tab and letters beyond the basic range. -/
theorem ofText_written_pair :
    let first : BuildEvent := ⟨"CL", "\"C:\\cl.exe\" /c\tä.c", "C:\\p\\日.vcxproj"⟩
    let second : BuildEvent := ⟨"Link", "link.exe a.obj", "p"⟩
    let reader : Json.Reader := .usual .usual
    List.Forall₂ WritesEvent [first.line, second.line] [first, second] ∧
      ofText reader (['\n'].intercalate [first.line, second.line]) = ⟨[first, second], none⟩ ∧
      ofText reader ('[' :: (first.line ++ ',' :: second.line ++ [']'])) = ⟨[first, second], none⟩ := by
  intro first second reader
  have hlines : List.Forall₂ WritesEvent [first.line, second.line] [first, second] :=
    .cons first.writes_line (.cons second.writes_line .nil)
  have harray : Json.Spells ('[' :: (first.line ++ ',' :: second.line ++ [']']))
      (.array ([first, second].map BuildEvent.toJson)) :=
    .array (.cons first.writes_line.spells (.last second.writes_line.spells))
  have hdocument := Json.SpellsItem.item (List.forall_mem_nil _) harray (List.forall_mem_nil _)
  rw [List.nil_append, List.append_nil] at hdocument
  obtain ⟨hread, hreads⟩ := ofText_written reader hlines hdocument
  have hfree : [first.line, second.line].all (fun line => line.all fun c =>
      c != '\x85' && (c != '\u2028' && c != '\u2029')) = true := by decide +kernel
  simp only [List.all_eq_true, Bool.and_eq_true, bne_iff_ne] at hfree
  exact ⟨hlines, hreads.mpr hfree, hread⟩

/-- A line separator in a command line ends the line for the reader. -/
theorem line_separator_unread :
    let event : BuildEvent := ⟨"CL", "cl.exe a\u2028b.c", "p"⟩
    let reader : Json.Reader := .usual .usual
    WritesEvent event.line event ∧
      ofText reader (['\n'].intercalate [event.line]) =
        ⟨[], some (.faulty ⟨.notJson .unterminatedText, 1⟩)⟩ ∧
      ofText reader ('[' :: (event.line ++ [']'])) = ⟨[event], none⟩ := by
  intro event reader
  refine ⟨event.writes_line, ?_, ?_⟩ <;> decide +kernel

end EventLog

end BuildCommands
