import BuildCommands.Export
import BuildCommands.Proofs.JsonLimits
import Mathlib.Data.List.Basic

/-!
# Reading the documents back

What the writer makes of a value is one of the texts of that value, so a reader gives the value
back if it keeps the limits.  The documents of a build do: no character of a record is lost, whatever
it is, and other records make another document.

    Spells (renderText s) (.text s)                                        (spells_renderText)
    parse reader (compileDocument records) = the objects of the records, in order
                                                                           (parse_documents)
-/

namespace BuildCommands

namespace Json

/-! ## Characters -/

/-- A control has two digits behind two zeros, and the four stand for it. -/
theorem hexadecimal_control : ∀ n < 0x20,
    Text.hexadecimal 4 n = ['0', '0', (n / 16).digitChar, (n % 16).digitChar] ∧
      unitCode? '0' '0' (n / 16).digitChar (n % 16).digitChar = some n := by
  decide

theorem spells_escapeChar (c : Char) : SpellsChar (escapeChar c) c := by
  unfold escapeChar
  split_ifs with hquote hback hfeed hreturn htab hbackspace hform hcontrol
  all_goals first | (subst c; exact .short (by decide)) | skip
  · obtain ⟨hdigits, hcode⟩ := hexadecimal_control c.toNat hcontrol
    rw [hdigits]
    exact .unit hcode
  · exact .raw (Nat.not_lt.mp hcontrol) hquote hback

theorem spells_flatMap (cs : List Char) : SpellsText (cs.flatMap escapeChar) cs := by
  induction cs with
  | nil => exact .nil
  | cons c cs ih => exact .cons (spells_escapeChar c) ih

theorem spells_renderText (s : String) : Spells (renderText s) (.text s) := by
  have h := Spells.text (spells_flatMap s.toList)
  rwa [String.ofList_toList] at h

/-! ## Values -/

theorem spells_text (level : Nat) (s : String) : Spells (renderAt level (.text s)) (.text s) := by
  rw [renderAt]
  exact spells_renderText s

theorem isGap_newLine (level : Nat) : IsGap (newLine level) := by
  intro c hc
  rcases List.mem_cons.mp hc with rfl | hc
  · rfl
  · rw [List.eq_of_mem_replicate hc]
    rfl

theorem spells_renderItems {level : Nat} {gap : List Char} (hgap : IsGap gap) (items : List Json) :
    ∀ item, (∀ value ∈ item :: items, Spells (renderAt level value) value) →
      SpellsItems (newLine level ++ renderAt level item ++ renderItems level items ++ gap)
        (item :: items) := by
  -- the white space behind an item belongs to it, so the last one takes the gap
  induction items with
  | nil =>
    intro item h
    rw [renderItems, List.append_nil, List.append_assoc]
    exact .last (.item (isGap_newLine level) (h item List.mem_cons_self) hgap)
  | cons next items ih =>
    intro item h
    obtain ⟨hitem, hrest⟩ := List.forall_mem_cons.mp h
    have hmore := ih next hrest
    have hfirst := SpellsItem.item (isGap_newLine level) hitem (List.forall_mem_nil _)
    simpa [renderItems] using SpellsItems.cons hfirst hmore

theorem spells_array {level : Nat} {items : List Json}
    (h : ∀ item ∈ items, Spells (renderAt (level + 1) item) item) :
    Spells (renderAt level (.array items)) (.array items) := by
  cases items with
  | nil =>
    rw [renderAt]
    exact .emptyArray (List.forall_mem_nil _)
  | cons item items =>
    have hitems := spells_renderItems (isGap_newLine level) items item h
    simpa [renderAt] using Spells.array hitems

/-- A field whose value stands behind a space, with a gap before its name and one at its end. -/
theorem spells_field {level : Nat} {before gap : List Char} (hbefore : IsGap before)
    (hgap : IsGap gap) {field : String × Json} (h : Spells (renderAt level field.2) field.2) :
    SpellsField (before ++ renderText field.1 ++ [':', ' '] ++ renderAt level field.2 ++ gap)
      field := by
  have hspace : IsGap [' '] := by decide
  have hfield := SpellsField.field hbefore (spells_flatMap field.1.toList)
    (List.forall_mem_nil _) (.item hspace h hgap)
  rw [String.ofList_toList] at hfield
  simpa [renderText] using hfield

theorem spells_renderFields {level : Nat} {gap : List Char} (hgap : IsGap gap)
    (fields : List (String × Json)) :
    ∀ field, (∀ f ∈ field :: fields, Spells (renderAt level f.2) f.2) →
      SpellsFields (newLine level ++ renderText field.1 ++ [':', ' '] ++ renderAt level field.2 ++
        renderFields level fields ++ gap) (field :: fields) := by
  induction fields with
  | nil =>
    intro field h
    rw [renderFields, List.append_nil]
    exact .last (spells_field (isGap_newLine level) hgap (h field List.mem_cons_self))
  | cons next fields ih =>
    intro field h
    obtain ⟨hfield, hrest⟩ := List.forall_mem_cons.mp h
    have hmore := ih next hrest
    have hfirst := spells_field (isGap_newLine level) (List.forall_mem_nil _) hfield
    simpa [renderFields] using SpellsFields.cons hfirst hmore

theorem spells_object {level : Nat} {fields : List (String × Json)}
    (h : ∀ field ∈ fields, Spells (renderAt (level + 1) field.2) field.2) :
    Spells (renderAt level (.object fields)) (.object fields) := by
  cases fields with
  | nil =>
    rw [renderAt]
    exact .emptyObject (List.forall_mem_nil _)
  | cons field fields =>
    have hfields := spells_renderFields (isGap_newLine level) fields field h
    simpa [renderAt] using Spells.object hfields

/-- A document of a value, with the line end behind it, is read as the value. -/
theorem parse_render (reader : Reader) {value : Json} (h : Spells (renderAt 0 value) value)
    (hfits : fits reader 0 value = true) :
    parse reader (value.render ++ "\n").toList = .ok value := by
  have hend : IsGap ['\n'] := by decide
  have hitem := SpellsItem.item (List.forall_mem_nil _) h hend
  unfold render
  rw [String.toList_append, String.toList_ofList]
  exact parse_of_fits reader hitem hfits

/-- An object of texts needs one level. -/
theorem fits_texts {reader : Reader} {depth : Nat} (hlevel : reader.admitsLevel depth = true)
    (fields : List (String × String)) :
    fits reader depth (.object (fields.map fun field => (field.1, .text field.2))) = true := by
  simp [fits_object, hlevel]

end Json

/-! ## Records -/

theorem CompileRecord.spells_toJson (record : CompileRecord) (level : Nat) :
    Json.Spells (Json.renderAt level record.toJson) record.toJson := by
  refine Json.spells_object ?_
  simp only [List.forall_mem_cons]
  exact ⟨Json.spells_text _ _, Json.spells_text _ _, Json.spells_text _ _, List.forall_mem_nil _⟩

theorem LinkRecord.spells_toJson (record : LinkRecord) (level : Nat) :
    Json.Spells (Json.renderAt level record.toJson) record.toJson := by
  have hfiles : ∀ level, Json.Spells (Json.renderAt level (.array (record.files.map .text)))
      (.array (record.files.map .text)) := by
    intro level
    refine Json.spells_array fun item hitem => ?_
    obtain ⟨file, -, rfl⟩ := List.mem_map.mp hitem
    exact Json.spells_text _ file
  refine Json.spells_object ?_
  simp only [List.forall_mem_cons]
  exact ⟨Json.spells_text _ _, Json.spells_text _ _, hfiles _, List.forall_mem_nil _⟩

section

variable (reader : Json.Reader)

theorem CompileRecord.fits_toJson (record : CompileRecord) :
    Json.fits reader 1 record.toJson = true :=
  Json.fits_texts (reader.admitsLevel_of_lt (by decide))
    [("command", record.command), ("file", record.file), ("directory", record.directory)]

/-- The files of a link record stand on the third level. -/
theorem LinkRecord.fits_toJson (record : LinkRecord) :
    Json.fits reader 1 record.toJson = true := by
  have hlevel := reader.admitsLevel_of_lt (by decide : 1 < 3)
  have hfiles := reader.admitsLevel_of_lt (by decide : 2 < 3)
  simp [toJson, Json.fits_object, Json.fits_array, hlevel, hfiles]

/-- The document of a list of records is read as the array of what stands for them. -/
theorem parse_records {α : Type} {toJson : α → Json}
    (h : ∀ record level, Json.Spells (Json.renderAt level (toJson record)) (toJson record))
    (hfits : ∀ record, Json.fits reader 1 (toJson record) = true) (records : List α) :
    Json.parse reader ((Json.array (records.map toJson)).render ++ "\n").toList =
      .ok (.array (records.map toJson)) := by
  have hlevel := reader.admitsLevel_of_lt (by decide : 0 < 3)
  refine Json.parse_render reader (Json.spells_array fun item hitem => ?_) ?_
  · obtain ⟨record, -, rfl⟩ := List.mem_map.mp hitem
    exact h record _
  · simp [Json.fits_array, hlevel, hfits]

end

theorem CompileRecord.toJson_injective : Function.Injective CompileRecord.toJson := by
  rintro ⟨command, directory, file⟩ ⟨command', directory', file'⟩ h
  simp only [CompileRecord.toJson, Json.object.injEq, List.cons.injEq, Prod.mk.injEq,
    Json.text.injEq, true_and, and_true] at h
  obtain ⟨rfl, rfl, rfl⟩ := h
  rfl

theorem LinkRecord.toJson_injective : Function.Injective LinkRecord.toJson := by
  rintro ⟨command, directory, files⟩ ⟨command', directory', files'⟩ h
  simp only [LinkRecord.toJson, Json.object.injEq, List.cons.injEq, Prod.mk.injEq,
    Json.text.injEq, Json.array.injEq, true_and, and_true] at h
  obtain ⟨rfl, rfl, hfiles⟩ := h
  have htext : Function.Injective Json.text := fun _ _ => Json.text.inj
  rw [List.map_injective_iff.mpr htext hfiles]

/-- A document that is read back determines its records. -/
theorem document_injective {α : Type} {toJson : α → Json} {document : List α → String}
    {reader : Json.Reader} (hread : ∀ records,
      Json.parse reader (document records).toList = .ok (.array (records.map toJson)))
    (h : Function.Injective toJson) : Function.Injective document := by
  intro records records' heq
  have hsame := hread records'
  rw [← heq, hread] at hsame
  simp only [Except.ok.injEq, Json.array.injEq] at hsame
  exact List.map_injective_iff.mpr h hsame

/-- Both documents are read as one object for each record, in order, with the record's texts as they
are, and other records make another document. -/
theorem parse_documents (reader : Json.Reader) (compiles : List CompileRecord)
    (links : List LinkRecord) :
    Json.parse reader (compileDocument compiles).toList =
        .ok (.array (compiles.map fun record =>
          .object [("command", .text record.command), ("file", .text record.file),
            ("directory", .text record.directory)])) ∧
      Json.parse reader (linkDocument links).toList =
        .ok (.array (links.map fun record =>
          .object [("directory", .text record.directory), ("command", .text record.command),
            ("files", .array (record.files.map .text))])) ∧
      (∀ others, compileDocument others = compileDocument compiles → others = compiles) ∧
      ∀ others, linkDocument others = linkDocument links → others = links := by
  have hcompiles := parse_records reader CompileRecord.spells_toJson
    (CompileRecord.fits_toJson reader)
  have hlinks := parse_records reader LinkRecord.spells_toJson (LinkRecord.fits_toJson reader)
  refine ⟨hcompiles compiles, hlinks links, fun others h => ?_, fun others h => ?_⟩
  · exact document_injective hcompiles CompileRecord.toJson_injective h
  · exact document_injective hlinks LinkRecord.toJson_injective h

end BuildCommands
