import BuildCommands.Proofs.EventLines
import BuildCommands.Proofs.EventReading
import BuildCommands.Proofs.JsonFaults

/-!
# Arrays of events

A log that begins with a bracket is one JSON document.  If it is an array, its items are read in
turn up to the first that describes no event.  If it is not JSON, not one event is read, and the
failure has the number of the last line up to which the document could still have been one.  Where
the document exceeds a limit of the reader, not one event is read either, and the failure has no
line; a document whose value keeps the limits does not.

    SpellsItem document (.array items) → fits reader 0 (.array items) →
      (ofText reader document = log ↔ ReadsItems items log)
    ¬IsDocument document →
      ofText reader document = ⟨[], some ⟨.notJson fault, 1 + line feeds before⟩⟩, or an excess
                                                                          (ofText_bracket)
-/

namespace BuildCommands

/-! ## Definitions -/

/-- The log that the items of an array give: every item describes its event, or the items before
the first that misses something do. -/
inductive ReadsItems : List Json → EventLog → Prop
  | all {items : List Json} {events : List BuildEvent} (h : List.Forall₂ Describes items events) :
      ReadsItems items ⟨events, none⟩
  | upTo {before after : List Json} {item : Json} {events : List BuildEvent} {fault : EventFault}
      (hbefore : List.Forall₂ Describes before events) (hitem : Misses item fault) :
      ReadsItems (before ++ item :: after) ⟨events, some (.faulty ⟨fault, 0⟩)⟩

/-- How a document that is an array of the items is read: the items give the log if they keep the
limits of the reader, and else there is no event but an excess. -/
structure ReadsArray (reader : Json.Reader) (document : List Char) (items : List Json) : Prop where
  within : Json.fits reader 0 (.array items) = true →
    ∀ log, EventLog.ofText reader document = log ↔ ReadsItems items log
  beyond : Json.fits reader 0 (.array items) = false →
    ∃ excess, EventLog.ofText reader document = ⟨[], some (.exceeded excess)⟩

/-! ## Documents that begin with a bracket -/

namespace Json

/-- A document that begins with a bracket is an array. -/
theorem exists_array_of_parse {reader : Reader} {document cs : List Char} {value : Json}
    (hskip : skipSpace document = '[' :: cs) (h : parse reader document = .ok value) :
    ∃ items, value = .array items := by
  unfold parse at h
  rw [hskip] at h
  split at h
  · cases h
  · split at h
    next => cases h
    next hread =>
      split at h
      · cases h
        exact exists_array_of_readValue hread
      · cases h

/-- A value does not begin with white space of any sort. -/
theorem IsPart.exists_cons_not_blank {text : List Char} (h : IsPart .value text) :
    ∃ c cs, text = c :: cs ∧ Text.isBlank c = false := by
  cases h with
  | word h =>
    simp only [words, List.mem_cons, List.not_mem_nil, or_false] at h
    rcases h with rfl | rfl | rfl | rfl | rfl | rfl <;> exact ⟨_, _, rfl, by decide⟩
  | @number negative _ _ _ hwhole =>
    cases negative with
    | true => exact ⟨'-', _, rfl, by decide⟩
    | false =>
      obtain ⟨d, ds, rfl, hdigit⟩ := hwhole.exists_cons
      have hrange := toNat_of_isDigit hdigit
      refine ⟨d, _, rfl, ?_⟩
      simp [Text.isBlank]
      omega
  | text h =>
    obtain ⟨_, -, rfl⟩ := h
    exact ⟨_, _, rfl, by decide⟩
  | _ => exact ⟨_, _, rfl, by decide⟩

/-- The white space in front of a document is the same to the log as to the reader. -/
theorem IsDocument.dropBlank {document : List Char} (h : IsDocument document) :
    Text.dropBlank document = skipSpace document := by
  cases h with
  | item hbefore h hafter =>
    obtain ⟨c, cs, rfl, hblank⟩ := h.exists_cons_not_blank
    have hspace : isSpace c = false := by
      rw [← Bool.not_eq_true] at hblank ⊢
      exact fun hc => hblank (Text.isBlank_of_isSpace hc)
    rw [List.cons_append, Text.dropBlank_gap hbefore hblank, skipSpace_gap hbefore,
      skipSpace_cons hspace]

end Json

/-! ## Items -/

namespace EventLog

variable {items : List Json} {log : EventLog}

theorem map_ofValue {events : List BuildEvent} (h : List.Forall₂ Describes items events)
    (line : Int) : items.map (ofValue line) = events.map .ok := by
  induction h with
  | nil => rfl
  | cons hitem _ ih => rw [List.map_cons, List.map_cons, ih, ofValue_of_describes hitem]

theorem collect_items (h : ReadsItems items log) :
    collect [] (items.map (ofValue 0)) = log := by
  cases h with
  | all h =>
    rw [map_ofValue h]
    exact collect_ok _ []
  | @upTo before after item events fault hbefore hitem =>
    rw [List.map_append, List.map_cons, map_ofValue hbefore, ofValue_of_misses hitem]
    exact collect_fault _ [] _ _

/-- Every array gives some log. -/
theorem exists_readsItems (items : List Json) : ∃ log, ReadsItems items log := by
  rcases exists_forall₂_or_first Describes items with
    ⟨events, h⟩ | ⟨before, item, after, events, rfl, hbefore, hnone⟩
  · exact ⟨_, .all h⟩
  · obtain ⟨fault, hitem⟩ :=
      (BuildEvent.describes_or_misses item).resolve_left (not_exists.mpr hnone)
    exact ⟨_, .upTo hbefore hitem⟩

theorem collect_items_iff :
    collect [] (items.map (ofValue 0)) = log ↔ ReadsItems items log := by
  constructor
  · rintro rfl
    obtain ⟨log, h⟩ := exists_readsItems items
    rwa [collect_items h]
  · exact collect_items

/-! ## Logs -/

section

variable {reader : Json.Reader} {document : List Char}

/-- A document that is an array is read item by item. -/
theorem readsArray (hfirst : (Text.dropBlank document).head? = some '[')
    (hfree : Json.parse (.free reader.surrogates) document = .ok (.array items)) :
    ReadsArray reader document items := by
  have hlimited := Json.limited_parse reader document
  refine ⟨fun hfits log => ?_, fun hfits => ?_⟩
  · rw [ofText, if_pos hfirst, ofArray, hlimited.eq_ok_iff.mpr ⟨hfree, hfits⟩]
    exact collect_items_iff
  · obtain ⟨excess, hparse⟩ := hlimited.eq_excess hfree (by rw [hfits]; decide)
    rw [ofText, if_pos hfirst, ofArray, hparse]
    exact ⟨excess, rfl⟩

theorem readsArray_of_spells (h : Json.SpellsItem document (.array items)) :
    ReadsArray reader document items := by
  obtain ⟨gap, rest, hgap, hdocument⟩ := h.exists_array
  refine readsArray ?_ (Json.parse_spells reader.surrogates h)
  rw [hdocument, Text.dropBlank_gap hgap (by decide), List.head?_cons]

/-- A document that is no JSON holds no events. -/
theorem ofText_fault (hfirst : (Text.dropBlank document).head? = some '[')
    (h : ¬Json.IsDocument document) :
    ∃ fault before rest, document = before ++ rest ∧
      Json.parse (.free reader.surrogates) document = .error (.fault fault rest) ∧
      (∃ tail, Json.IsDocument (before ++ tail)) ∧
      (∀ front tail, front <+: document → Json.IsDocument (front ++ tail) →
        front.count '\n' ≤ before.count '\n') ∧
      (ofText reader document =
          ⟨[], some (.faulty ⟨.notJson fault, (1 + before.count '\n' : Nat)⟩)⟩ ∨
        ∃ excess, Json.parse reader document = .error (.excess excess) ∧
          ofText reader document = ⟨[], some (.exceeded excess)⟩) := by
  cases hparse : Json.parse (.free reader.surrogates) document with
  | ok value => exact absurd (Json.isDocument_of_parse hparse) h
  | error failure =>
    have hfollows := Json.follows_parse (.free reader.surrogates) document
    rw [hparse] at hfollows
    obtain ⟨fault, rest, rfl⟩ := Json.exists_fault_of_free hparse
    obtain ⟨before, tail, hbegins, hdocument⟩ := hfollows
    refine ⟨fault, before, rest, hdocument, rfl, ⟨tail, hbegins⟩, ?_, ?_⟩
    · intro front tail hfront hfollows
      rw [hdocument] at hparse hfront
      exact Json.count_le_of_parse hparse hfront hfollows
    have hcount : Text.countLineFeeds document =
        before.count '\n' + Text.countLineFeeds rest := by
      rw [hdocument]
      exact List.count_append
    have hline : Json.lineOf document rest = 1 + before.count '\n' := by
      rw [Json.lineOf, hcount, Nat.add_sub_cancel]
    rw [ofText, if_pos hfirst, ofArray]
    rcases (Json.limited_parse reader document).eq_error hparse with hsame | ⟨excess, hexcess⟩
    · rw [hsame]
      simp only [hline, true_or]
    · rw [hexcess]
      exact Or.inr ⟨excess, rfl, rfl⟩

end

/-- An array gives the events that its items describe, up to the first item that describes none.  A
document that begins with a bracket is an array or no JSON, and then it gives no event: the failure
is on the line of its place, the last line up to which the characters begin a document.  In both
cases a limit of the reader may be exceeded before: that of an array is if and only if its items do
not keep the limits. -/
theorem ofText_bracket (reader : Json.Reader) (document : List Char) :
    (∀ items, Json.SpellsItem document (.array items) →
      ReadsArray reader document items) ∧
    ((Text.dropBlank document).head? = some '[' →
      (Json.IsDocument document → ∃ items,
        Json.parse (.free reader.surrogates) document = .ok (.array items) ∧
        ReadsArray reader document items) ∧
      (¬Json.IsDocument document → ∃ fault before rest, document = before ++ rest ∧
        Json.parse (.free reader.surrogates) document = .error (.fault fault rest) ∧
        (∃ tail, Json.IsDocument (before ++ tail)) ∧
        (∀ front tail, front <+: document → Json.IsDocument (front ++ tail) →
          front.count '\n' ≤ before.count '\n') ∧
        (ofText reader document =
            ⟨[], some (.faulty ⟨.notJson fault, (1 + before.count '\n' : Nat)⟩)⟩ ∨
          ∃ excess, Json.parse reader document = .error (.excess excess) ∧
            ofText reader document = ⟨[], some (.exceeded excess)⟩))) := by
  refine ⟨fun items => readsArray_of_spells, fun hfirst => ⟨fun h => ?_, ofText_fault hfirst⟩⟩
  obtain ⟨value, hfree⟩ := (Json.exists_parse_iff reader.surrogates).mpr h
  rw [h.dropBlank] at hfirst
  obtain ⟨cs, hskip⟩ := List.head?_eq_some_iff.mp hfirst
  obtain ⟨items, rfl⟩ := Json.exists_array_of_parse hskip hfree
  rw [← h.dropBlank] at hfirst
  exact ⟨items, hfree, readsArray hfirst hfree⟩

/-- An event with its fields in another order, one more among them, and a character written as a
pair; a surrogate alone, which describes no event; and a bracket that comes too early. -/
theorem ofText_bracket_cases :
    let event : BuildEvent := ⟨"CL", "😀", "p"⟩
    let pair := ['\\', 'u', 'd', '8', '3', 'd', '\\', 'u', 'D', 'E', '0', '0']
    let command := ['\t'] ++ '"' :: ("commandLineText".toList.flatMap Json.escapeChar ++
      '"' :: ([] ++ ':' :: ([' '] ++ ('"' :: (pair ++ ['"']) ++ [' ']))))
    let fields := [] ++ Json.inlineField "projectFilePath" "p" ++
      ',' :: (['\n'] ++ Json.inlineField "more" "CL" ++
        ',' :: (command ++ ',' :: ([] ++ Json.inlineField "taskName" "CL")))
    let first := [' '] ++ ('[' :: ([] ++ ('\x7b' :: (fields ++ ['\x7d']) ++ []) ++ [']']) ++ ['\n'])
    let second := '[' :: (event.line ++ [',', '"', '\\', 'u', 'd', '8', '0', '0', '"', ']'])
    let third := '[' :: '\n' :: (event.line ++ [',', '\n', ']'])
    let reader : Json.Reader := .usual .usual
    ofText reader first = ⟨[event], none⟩ ∧
      (Json.IsDocument second ∧ ∃ items,
        Json.parse (.free reader.surrogates) second = .ok (.array items) ∧
        ReadsItems items ⟨[event], some (.faulty ⟨.notObject "str", 0⟩)⟩) ∧
      (¬Json.IsDocument third ∧
        ofText reader third = ⟨[], some (.faulty ⟨.notJson .noValue, 3⟩)⟩ ∧
        ∃ before, before <+: third ∧ before.count '\n' = 2 ∧
          (∃ tail, Json.IsDocument (before ++ tail)) ∧
          ∀ front tail, front <+: third → Json.IsDocument (front ++ tail) →
            front.count '\n' ≤ 2) := by
  intro event pair command fields first second third reader
  have hnone : Json.IsGap [] := by decide
  have hchar : Json.SpellsChar pair '😀' :=
    @Json.SpellsChar.pair _ _ _ _ _ _ _ _ _ 0xd83d 0xde00 (by decide) (by decide) (by decide)
      (by decide) (by decide)
  have hpair : Json.SpellsText pair ['😀'] := .cons hchar .nil
  have hitem : Json.SpellsItem ([' '] ++ ('"' :: (pair ++ ['"']) ++ [' '])) (.text "😀") :=
    .item (by decide) (.text hpair) (by decide)
  have hcommand : Json.SpellsField command (_, .text "😀") :=
    .field (by decide) (Json.spells_flatMap _) hnone hitem
  have hfields : Json.SpellsFields fields _ :=
    .cons (Json.spells_inlineField hnone "projectFilePath" "p")
      (.cons (Json.spells_inlineField (by decide) "more" "CL")
        (.cons hcommand (.last (Json.spells_inlineField hnone "taskName" "CL"))))
  have hfirst : Json.SpellsItem first _ :=
    .item (by decide) (.array (.last (.item hnone (.object hfields) hnone))) (by decide)
  rw [String.ofList_toList] at hfirst
  have hdescribes : Describes (.object [("projectFilePath", .text "p"), ("more", .text "CL"),
      ("commandLineText", .text "😀"), ("taskName", .text "CL")]) event :=
    (@BuildEvent.ofJson_eq_ok_iff 0 _ _).mp rfl
  have hsecond : Json.IsDocument second := by decide +kernel
  have hthird : ¬Json.IsDocument third := by decide +kernel
  refine ⟨?_, ⟨hsecond, ?_⟩, hthird, ?_⟩
  · have hreads := ((ofText_bracket reader first).1 _ hfirst).within (by decide +kernel)
    exact (hreads _).mpr (.all (.cons hdescribes .nil))
  · obtain ⟨items, hparse, hread⟩ := ((ofText_bracket reader second).2 rfl).1 hsecond
    have hlog : ofText reader second = ⟨[event], some (.faulty ⟨.notObject "str", 0⟩)⟩ := by
      decide +kernel
    refine ⟨items, hparse, (hread.within ?_ _).mp hlog⟩
    rw [← Bool.not_eq_false]
    intro hfits
    obtain ⟨excess, hexcess⟩ := hread.beyond hfits
    rw [hlog] at hexcess
    cases hexcess
  · obtain ⟨fault, before, rest, hbefore, -, htail, hlast, hread⟩ :=
      ((ofText_bracket reader third).2 rfl).2 hthird
    have hcomputed : ofText reader third = ⟨[], some (.faulty ⟨.notJson .noValue, 3⟩)⟩ := by
      decide +kernel
    have hcount : before.count '\n' = 2 := by
      rcases hread with hread | ⟨excess, -, hread⟩
      · rw [hread] at hcomputed
        simp only [EventLog.mk.injEq, Option.some.injEq, LogFailure.faulty.injEq,
          EventFailure.mk.injEq] at hcomputed
        omega
      · rw [hread] at hcomputed
        cases hcomputed
    rw [hcount] at hlast
    exact ⟨hcomputed, before, ⟨rest, hbefore.symm⟩, hcount, htail, hlast⟩

/-- An event with one more field, an integer of one digit more than the reader admits.  Without limits
the array is read; with them it is refused for the field, which no event needs. -/
theorem long_item_refused :
    let event : BuildEvent := ⟨"CL", "cl.exe a.c", "p"⟩
    let digits := List.replicate 4301 '9'
    let item := '\x7b' :: (Json.renderText "more" ++ ':' :: digits ++ ',' :: event.line.tail)
    let document := '[' :: (item ++ [']'])
    Json.IsDocument document ∧ ofText (.free .usual) document = ⟨[event], none⟩ ∧
      ofText (.usual .usual) document = ⟨[], some (.exceeded (.digits 4301))⟩ := by
  intro event digits item document
  refine ⟨?_, ?_, ?_⟩ <;> decide +kernel

end EventLog

end BuildCommands
