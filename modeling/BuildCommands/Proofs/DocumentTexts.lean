import BuildCommands.Proofs.DocumentWriting

/-!
# The characters of a document

All that a document adds to the texts of its records is in ASCII: what stands between the texts, and
the escapes in them.  So what is true of these characters is true of a document exactly if it is true
of the texts.

    (∀ x ∈ renderText s, p x) ↔ ∀ x ∈ s.toList, p x                          (forall_renderText)
    surrogates.EncodesDocuments db ↔ surrogates.EncodesRecords db         (encodesDocuments_iff)

So whether documents can be encoded does not depend on the order of their records.
-/

namespace BuildCommands

/-! ## Definitions -/

def CompileRecord.texts (record : CompileRecord) : List String :=
  [record.command, record.file, record.directory]

def LinkRecord.texts (record : LinkRecord) : List String :=
  record.directory :: record.command :: record.files

/-- All texts of the records can be encoded. -/
structure Surrogates.EncodesRecords (surrogates : Surrogates) (db : Database) : Prop where
  compile : ∀ record ∈ db.compiles.toList, ∀ text ∈ record.texts, surrogates.Encodes text
  link : ∀ record ∈ db.links.toList, ∀ text ∈ record.texts, surrogates.Encodes text

/-! ## Values -/

namespace Json

variable {p : Char → Prop}

theorem forall_escapeChar (hp : ∀ x : Char, x.toNat < 0x80 → p x) (c : Char) :
    (∀ x ∈ escapeChar c, p x) ↔ p c := by
  by_cases hc : escapeChar c = [c]
  · rw [hc, List.forall_mem_singleton]
  -- what is escaped is in ASCII, as its escape is
  · have hlow : c.toNat < 0x80 := by
      unfold escapeChar at hc
      split_ifs at hc with h h h h h h h h
      all_goals first | exact absurd rfl hc | (subst c; decide) | omega
    have hall : ∀ n < 0x80, (escapeChar (Char.ofNat n)).all (·.toNat < 0x80) = true := by
      decide +kernel
    have hescape := List.all_eq_true.mp (hall c.toNat hlow)
    rw [Char.ofNat_toNat] at hescape
    exact ⟨fun _ => hp c hlow, fun _ x hx => hp x (of_decide_eq_true (hescape x hx))⟩

theorem forall_renderText (hp : ∀ x : Char, x.toNat < 0x80 → p x) (s : String) :
    (∀ x ∈ renderText s, p x) ↔ ∀ x ∈ s.toList, p x := by
  have hquote : p '"' := hp '"' (by decide)
  unfold renderText
  rw [List.cons_append, List.forall_mem_cons, List.forall_mem_append, List.forall_mem_flatMap]
  simp only [forall_escapeChar hp, List.forall_mem_singleton]
  exact ⟨fun h => h.2.1, fun h => ⟨hquote, h, hquote⟩⟩

theorem forall_newLine (hp : ∀ x : Char, x.toNat < 0x80 → p x) (level : Nat) :
    ∀ x ∈ newLine level, p x := by
  intro x hx
  rcases List.mem_cons.mp hx with rfl | hx
  · exact hp _ (by decide)
  · rw [List.eq_of_mem_replicate hx]
    exact hp _ (by decide)

theorem forall_renderItems (hp : ∀ x : Char, x.toNat < 0x80 → p x) (level : Nat)
    (items : List Json) :
    (∀ x ∈ renderItems level items, p x) ↔ ∀ item ∈ items, ∀ x ∈ renderAt level item, p x := by
  have hcomma : p ',' := hp ',' (by decide)
  have hline := forall_newLine hp level
  induction items with
  | nil => simp [renderItems]
  | cons item items ih =>
    rw [renderItems]
    simp only [List.cons_append, List.forall_mem_cons, List.forall_mem_append, ih]
    exact ⟨fun h => ⟨h.2.1.2, h.2.2⟩, fun h => ⟨hcomma, ⟨hline, h.1⟩, h.2⟩⟩

theorem forall_array (hp : ∀ x : Char, x.toNat < 0x80 → p x) (level : Nat) (items : List Json) :
    (∀ x ∈ renderAt level (.array items), p x) ↔
      ∀ item ∈ items, ∀ x ∈ renderAt (level + 1) item, p x := by
  have hopen : p '[' := hp '[' (by decide)
  have hclose : p ']' := hp ']' (by decide)
  have hlines := forall_newLine hp
  cases items with
  | nil => simp [renderAt, hopen, hclose]
  | cons item items =>
    rw [renderAt]
    simp only [List.cons_append, List.forall_mem_cons, List.forall_mem_append,
      forall_renderItems hp]
    exact ⟨fun h => ⟨h.2.1.1.1.2, h.2.1.1.2⟩,
      fun h => ⟨hopen, ⟨⟨⟨hlines _, h.1⟩, h.2⟩, hlines _⟩, hclose, List.forall_mem_nil _⟩⟩

theorem forall_renderFields (hp : ∀ x : Char, x.toNat < 0x80 → p x) (level : Nat)
    (fields : List (String × Json)) :
    (∀ x ∈ renderFields level fields, p x) ↔
      ∀ field ∈ fields, (∀ x ∈ field.1.toList, p x) ∧ ∀ x ∈ renderAt level field.2, p x := by
  have hcomma : p ',' := hp ',' (by decide)
  have hcolon : p ':' := hp ':' (by decide)
  have hspace : p ' ' := hp ' ' (by decide)
  have hline := forall_newLine hp level
  induction fields with
  | nil => simp [renderFields]
  | cons field fields ih =>
    rw [renderFields]
    simp only [List.cons_append, List.forall_mem_cons, List.forall_mem_append, ih,
      forall_renderText hp]
    exact ⟨fun h => ⟨⟨h.2.1.1.1.2, h.2.1.2⟩, h.2.2⟩, fun h => ⟨hcomma,
      ⟨⟨⟨hline, h.1.1⟩, hcolon, hspace, List.forall_mem_nil _⟩, h.1.2⟩, h.2⟩⟩

theorem forall_object (hp : ∀ x : Char, x.toNat < 0x80 → p x) (level : Nat)
    (fields : List (String × Json)) :
    (∀ x ∈ renderAt level (.object fields), p x) ↔
      ∀ field ∈ fields,
        (∀ x ∈ field.1.toList, p x) ∧ ∀ x ∈ renderAt (level + 1) field.2, p x := by
  have hopen : p '\x7b' := hp '\x7b' (by decide)
  have hclose : p '\x7d' := hp '\x7d' (by decide)
  have hcolon : p ':' := hp ':' (by decide)
  have hspace : p ' ' := hp ' ' (by decide)
  have hlines := forall_newLine hp
  cases fields with
  | nil => simp [renderAt, hopen, hclose]
  | cons field fields =>
    rw [renderAt]
    simp only [List.cons_append, List.forall_mem_cons, List.forall_mem_append,
      forall_renderFields hp, forall_renderText hp]
    exact ⟨fun h => ⟨⟨h.2.1.1.1.1.1.2, h.2.1.1.1.2⟩, h.2.1.1.2⟩, fun h => ⟨hopen,
      ⟨⟨⟨⟨⟨hlines _, h.1.1⟩, hcolon, hspace, List.forall_mem_nil _⟩, h.1.2⟩, h.2⟩, hlines _⟩,
      hclose, List.forall_mem_nil _⟩⟩

theorem forall_text (hp : ∀ x : Char, x.toNat < 0x80 → p x) (level : Nat) (s : String) :
    (∀ x ∈ renderAt level (.text s), p x) ↔ ∀ x ∈ s.toList, p x := by
  rw [renderAt]
  exact forall_renderText hp s

end Json

/-! ## Records -/

section

variable {p : Char → Prop}

theorem forall_names (hp : ∀ x : Char, x.toNat < 0x80 → p x) {names : List String}
    (h : names.all (fun name => name.toList.all (·.toNat < 0x80)) = true) :
    ∀ name ∈ names, ∀ x ∈ name.toList, p x := by
  intro name hname x hx
  exact hp x (of_decide_eq_true (List.all_eq_true.mp (List.all_eq_true.mp h name hname) x hx))

/-- The names of a record's fields are in ASCII as well. -/
theorem CompileRecord.forall_toJson (hp : ∀ x : Char, x.toNat < 0x80 → p x) (level : Nat)
    (record : CompileRecord) :
    (∀ x ∈ Json.renderAt level record.toJson, p x) ↔
      ∀ text ∈ record.texts, ∀ x ∈ text.toList, p x := by
  have hnames : ∀ name ∈ ["command", "file", "directory"], ∀ x ∈ name.toList, p x :=
    forall_names hp (by decide)
  unfold CompileRecord.toJson CompileRecord.texts
  rw [Json.forall_object hp]
  simp only [List.forall_mem_cons, Json.forall_text hp, List.not_mem_nil, false_implies,
    implies_true, and_true] at hnames ⊢
  obtain ⟨hcommand, hfile, hdirectory⟩ := hnames
  exact ⟨fun h => ⟨h.1.2, h.2.1.2, h.2.2.2⟩,
    fun h => ⟨⟨hcommand, h.1⟩, ⟨hfile, h.2.1⟩, hdirectory, h.2.2⟩⟩

theorem LinkRecord.forall_toJson (hp : ∀ x : Char, x.toNat < 0x80 → p x) (level : Nat)
    (record : LinkRecord) :
    (∀ x ∈ Json.renderAt level record.toJson, p x) ↔
      ∀ text ∈ record.texts, ∀ x ∈ text.toList, p x := by
  have hnames : ∀ name ∈ ["directory", "command", "files"], ∀ x ∈ name.toList, p x :=
    forall_names hp (by decide)
  unfold LinkRecord.toJson LinkRecord.texts
  rw [Json.forall_object hp]
  simp only [List.forall_mem_cons, Json.forall_text hp, Json.forall_array hp, List.forall_mem_map,
    List.not_mem_nil, false_implies, implies_true, and_true] at hnames ⊢
  obtain ⟨hdirectory, hcommand, hfiles⟩ := hnames
  exact ⟨fun h => ⟨h.1.2, h.2.1.2, h.2.2.2⟩,
    fun h => ⟨⟨hdirectory, h.1⟩, ⟨hcommand, h.2.1⟩, hfiles, h.2.2⟩⟩

/-- A document of records of either kind. -/
theorem forall_document (hp : ∀ x : Char, x.toNat < 0x80 → p x) {α : Type} {toJson : α → Json}
    {texts : α → List String}
    (htexts : ∀ level record, (∀ x ∈ Json.renderAt level (toJson record), p x) ↔
      ∀ text ∈ texts record, ∀ x ∈ text.toList, p x) (records : List α) :
    (∀ x ∈ ((Json.array (records.map toJson)).render ++ "\n").toList, p x) ↔
      ∀ record ∈ records, ∀ text ∈ texts record, ∀ x ∈ text.toList, p x := by
  have hend : ∀ x ∈ "\n".toList, p x := by
    intro x hx
    rw [List.mem_singleton.mp hx]
    exact hp _ (by decide)
  unfold Json.render
  rw [String.toList_append, String.toList_ofList, List.forall_mem_append, Json.forall_array hp,
    List.forall_mem_map]
  simp only [htexts]
  exact ⟨And.left, fun h => ⟨h, hend⟩⟩

end

/-! ## Encoding -/

namespace Surrogates

/-- Surrogates are not in ASCII. -/
theorem code?_of_ascii (surrogates : Surrogates) (c : Char) (h : c.toNat < 0x80) :
    surrogates.code? c = none := by
  cases surrogates with
  | absent => rfl
  | block first hfirst => exact if_neg (by omega)

/-- Documents can be encoded exactly if the texts of their records can. -/
theorem encodesDocuments_iff {surrogates : Surrogates} {db : Database} :
    surrogates.EncodesDocuments db ↔ surrogates.EncodesRecords db := by
  have hascii := surrogates.code?_of_ascii
  have hcompile := forall_document hascii (CompileRecord.forall_toJson hascii)
    db.compiles.toList
  have hlink := forall_document hascii (LinkRecord.forall_toJson hascii) db.links.toList
  exact ⟨fun h => ⟨hcompile.mp h.compile, hlink.mp h.link⟩,
    fun h => ⟨hcompile.mpr h.compile, hlink.mpr h.link⟩⟩

/-- The order of the records does not matter. -/
theorem EncodesDocuments.perm {surrogates : Surrogates} {db other : Database}
    (hcompiles : db.compiles.toList.Perm other.compiles.toList)
    (hlinks : db.links.toList.Perm other.links.toList)
    (h : surrogates.EncodesDocuments db) : surrogates.EncodesDocuments other := by
  rw [encodesDocuments_iff] at h ⊢
  exact ⟨fun record hrecord => h.compile record (hcompiles.mem_iff.mpr hrecord),
    fun record hrecord => h.link record (hlinks.mem_iff.mpr hrecord)⟩

end Surrogates

end BuildCommands
