import BuildCommands.Proofs.JsonGrammar

/-!
# Which documents are read

A reader without limits accepts exactly the documents of the grammar.  Where it finds a fault, the
characters before the place of the fault still begin a document.

    IsPart .value text → readValue (.free s) depth fuel (text ++ rest) = .ok (value, rest)
                                                                               (accepted)
    (∃ value, parse (.free s) document = .ok value) ↔ IsDocument document      (exists_parse_iff)
-/

namespace BuildCommands.Json

/-! ## Accepted parts -/

section

variable (s : Surrogates)

/-- A part of a document is read to its end and no further. -/
def Accepted : Part → List Char → Prop
  | .value, cs => ∀ depth fuel rest, 2 * cs.length ≤ fuel + 2 → EndsNumber rest →
    ∃ value, readValue (.free s) depth (fuel + 1) (cs ++ rest) = .ok (value, rest)
  | .item, cs => ∀ depth fuel tail, 2 * cs.length ≤ fuel + 2 → ClosesItem tail →
    ∃ value, ReadsItem (.free s) depth (fuel + 1) (skipSpace (cs ++ tail)) tail value
  | .items, cs => ∀ depth fuel done rest, 2 * cs.length ≤ fuel + 2 →
    ∃ value, readItems (.free s) depth (fuel + 2) done (skipSpace (cs ++ ']' :: rest)) =
      .ok (value, rest)
  | .field, cs => ∀ depth fuel tail, 2 * cs.length ≤ fuel + 2 → ClosesItem tail →
    ∃ field, ReadsField (.free s) depth (fuel + 1) (skipSpace (cs ++ tail)) tail field
  | .fields, cs => ∀ depth fuel done rest, 2 * cs.length ≤ fuel + 2 →
    ∃ value, readFields (.free s) depth (fuel + 2) done (skipSpace (cs ++ '}' :: rest)) =
      .ok (value, rest)

theorem IsPiece.readPieces {piece : List Char} (h : IsPiece piece) :
    ∃ p, ∀ start done rest, rest ≠ [] →
      readPieces start done (piece ++ rest) = readPieces start (p :: done) rest := by
  cases h with
  | raw hcontrol hquote hback =>
    exact ⟨_, fun start done rest _ => readPieces_raw start done hcontrol hquote hback⟩
  | short h => exact ⟨_, fun start done rest _ => readPieces_short start done h⟩
  | unit h => exact ⟨_, fun start done rest hrest => readPieces_unit start done h hrest⟩

theorem exists_readPieces (start : List Char) {pieces : List (List Char)}
    (h : ∀ piece ∈ pieces, IsPiece piece) (rest : List Char) : ∀ done,
    ∃ read, readPieces start done (pieces.flatten ++ '"' :: rest) = .ok (read, rest) := by
  induction pieces with
  | nil =>
    intro done
    exact ⟨done.reverse, by rw [List.flatten_nil, List.nil_append, Json.readPieces]⟩
  | cons piece pieces ih =>
    intro done
    obtain ⟨hpiece, hpieces⟩ := List.forall_mem_cons.mp h
    obtain ⟨p, hstep⟩ := hpiece.readPieces
    rw [List.flatten_cons, List.append_assoc, hstep _ _ _ (by simp)]
    exact ih hpieces _

/-- A text is read to its closing quote. -/
theorem IsQuoted.exists_readText {text : List Char} (h : IsQuoted text) (rest : List Char) :
    ∃ body name, text ++ rest = '"' :: body ∧ readText s body = .ok (name, rest) := by
  obtain ⟨pieces, hpieces, rfl⟩ := h
  obtain ⟨read, hread⟩ :=
    exists_readPieces ('"' :: (pieces.flatten ++ '"' :: rest)) hpieces rest []
  refine ⟨pieces.flatten ++ '"' :: rest, String.ofList (joinPieces s read), by simp, ?_⟩
  rw [readText, hread]

/-- A value begins with no white space and not like the end of an array. -/
theorem IsPart.exists_cons {text : List Char} (h : IsPart .value text) :
    ∃ c cs, text = c :: cs ∧ isSpace c = false ∧ c ≠ ']' ∧ c.toNat < 0x80 := by
  cases h with
  | word h =>
    simp only [words, List.mem_cons, List.not_mem_nil, or_false] at h
    rcases h with rfl | rfl | rfl | rfl | rfl | rfl <;>
      exact ⟨_, _, rfl, by decide, by decide, by decide⟩
  | number hwhole => exact hwhole.exists_cons_minus _ _
  | text h =>
    obtain ⟨_, -, rfl⟩ := h
    exact ⟨_, _, rfl, by decide, by decide, by decide⟩
  | _ => exact ⟨_, _, rfl, by decide, by decide, by decide⟩

theorem IsPart.length_pos {part : Part} {text : List Char} (h : IsPart part text) :
    0 < text.length := by
  induction h with
  | word h =>
    have hwords : ∀ text ∈ words, 0 < text.length := by decide
    exact hwords _ h
  | number hwhole =>
    obtain ⟨c, cs, hcons, -⟩ := hwhole.exists_cons_minus _ _
    rw [hcons]
    exact Nat.succ_pos _
  | text h =>
    obtain ⟨_, -, rfl⟩ := h
    exact Nat.succ_pos _
  | lastItem _ ih | lastField _ ih => exact ih
  | _ =>
    simp only [List.length_append, List.length_cons]
    omega

/-- Items do not begin like the end of an array. -/
theorem IsPart.head?_items {text : List Char} (h : IsPart .items text) (tail : List Char) :
    (skipSpace (text ++ tail)).head? ≠ some ']' := by
  have hitem : ∀ {text : List Char}, IsPart .item text → ∀ tail,
      (skipSpace (text ++ tail)).head? ≠ some ']' := by
    rintro _ ⟨⟩ tail
    next hbefore h hafter =>
      obtain ⟨c, cs, rfl, hspace, hc, -⟩ := h.exists_cons
      rw [List.append_assoc, skipSpace_gap hbefore, List.cons_append, List.cons_append,
        skipSpace_cons hspace]
      simpa using hc
  cases h with
  | lastItem h => exact hitem h tail
  | moreItems h _ =>
    rw [List.append_assoc]
    exact hitem h _

/-- Fields do not begin like the end of an object. -/
theorem IsPart.head?_fields {text : List Char} (h : IsPart .fields text) (tail : List Char) :
    (skipSpace (text ++ tail)).head? ≠ some '}' := by
  have hfield : ∀ {text : List Char}, IsPart .field text → ∀ tail,
      (skipSpace (text ++ tail)).head? ≠ some '}' := by
    rintro _ ⟨⟩ tail
    next hbefore hname _ _ =>
      obtain ⟨_, -, rfl⟩ := hname
      rw [List.append_assoc, skipSpace_gap hbefore, List.cons_append, List.cons_append,
        skipSpace_cons (by decide)]
      simp
  cases h with
  | lastField h => exact hfield h tail
  | moreFields h _ =>
    rw [List.append_assoc]
    exact hfield h _

/-- Every part of a document is read to its end and no further. -/
theorem IsPart.accepted {part : Part} {text : List Char} (h : IsPart part text) :
    Accepted s part text := by
  induction h with
  | word h =>
    intro depth fuel rest _ _
    simp only [words, List.mem_cons, List.not_mem_nil, or_false] at h
    rcases h with rfl | rfl | rfl | rfl | rfl | rfl <;>
      exact ⟨_, readValue_literal _ depth (by decide) (by decide) (by decide) fuel _⟩
  | number hwhole hdecimals hpower =>
    intro depth fuel rest _ hrest
    simp only [List.append_assoc]
    rw [readValue_number _ _ hwhole, readUnsigned_append s hwhole hdecimals hpower hrest]
    split <;> exact ⟨_, rfl⟩
  | text h =>
    intro depth fuel rest _ _
    obtain ⟨body, name, hbody, hread⟩ := h.exists_readText s rest
    exact ⟨.text name, by rw [hbody, readValue, Reader.free_surrogates, hread]⟩
  | emptyArray h =>
    intro depth fuel rest _ _
    exact ⟨_, by simpa using readValue_emptyArray (Reader.free_admitsLevel s depth) h fuel rest⟩
  | emptyObject h =>
    intro depth fuel rest _ _
    exact ⟨_, by simpa using readValue_emptyObject (Reader.free_admitsLevel s depth) h fuel rest⟩
  | array h ih =>
    intro depth fuel rest hf _
    obtain ⟨fuel, rfl⟩ : ∃ n, fuel = n + 2 := ⟨fuel - 2, by simp at hf; omega⟩
    have hfirst := h.head?_items (']' :: rest)
    rw [List.cons_append, List.append_assoc, List.singleton_append, readValue_array rfl hfirst]
    exact ih (depth + 1) fuel [] rest (by simp at hf; omega)
  | object h ih =>
    intro depth fuel rest hf _
    obtain ⟨fuel, rfl⟩ : ∃ n, fuel = n + 2 := ⟨fuel - 2, by simp at hf; omega⟩
    have hfirst := h.head?_fields ('}' :: rest)
    rw [List.cons_append, List.append_assoc, List.singleton_append, readValue_object rfl hfirst]
    exact ih (depth + 1) fuel [] rest (by simp at hf; omega)
  | @item before text after hbefore h hafter ih =>
    intro depth fuel tail hf htail
    obtain ⟨value, hread⟩ := ih depth fuel (after ++ tail) (by simp at hf; omega)
      (endsNumber_gap hafter htail.endsNumber)
    obtain ⟨c, cs, hcons, hspace, -⟩ := h.exists_cons
    refine ⟨value, after ++ tail, ?_, by rw [skipSpace_gap hafter, htail.skipSpace]⟩
    rw [List.append_assoc, List.append_assoc, skipSpace_gap hbefore]
    rw [hcons] at hread ⊢
    rw [List.cons_append, skipSpace_cons hspace, ← List.cons_append, hread]
  | lastItem _ ih =>
    intro depth fuel done rest hf
    obtain ⟨value, hitem⟩ := ih depth fuel (']' :: rest) hf ⟨']', by decide, rest, rfl⟩
    exact ⟨_, readItems_close hitem done⟩
  | @moreItems text more h _ ih ihmore =>
    intro depth fuel done rest hf
    have hlength := h.length_pos
    simp only [List.length_append, List.length_cons] at hf
    obtain ⟨value, hitem⟩ := ih depth fuel (',' :: (more ++ ']' :: rest)) (by omega)
      ⟨',', by decide, _, rfl⟩
    obtain ⟨fuel, rfl⟩ : ∃ n, fuel = n + 1 := ⟨fuel - 1, by omega⟩
    rw [List.append_assoc, List.cons_append, readItems_comma hitem]
    exact ihmore depth fuel _ rest (by omega)
  | @field before name behind item hbefore hname hbehind _ ih =>
    intro depth fuel tail hf htail
    simp only [List.length_append, List.length_cons] at hf
    obtain ⟨body, read, hbody, hread⟩ :=
      hname.exists_readText s (behind ++ ':' :: (item ++ tail))
    obtain ⟨value, hitem⟩ := ih depth fuel tail (by omega) htail
    refine ⟨(read, value), body, _, item ++ tail, ?_, hread, ?_, hitem⟩
    · rw [List.append_assoc, skipSpace_gap hbefore, List.append_assoc, List.append_assoc,
        List.cons_append, hbody, skipSpace_cons (by decide)]
    · rw [skipSpace_gap hbehind, skipSpace_cons (by decide)]
  | lastField _ ih =>
    intro depth fuel done rest hf
    obtain ⟨field, hfield⟩ := ih depth fuel ('}' :: rest) hf ⟨'}', by decide, rest, rfl⟩
    exact ⟨_, readFields_close hfield done⟩
  | @moreFields text more h _ ih ihmore =>
    intro depth fuel done rest hf
    have hlength := h.length_pos
    simp only [List.length_append, List.length_cons] at hf
    obtain ⟨field, hfield⟩ := ih depth fuel (',' :: (more ++ '}' :: rest)) (by omega)
      ⟨',', by decide, _, rfl⟩
    obtain ⟨fuel, rfl⟩ : ∃ n, fuel = n + 1 := ⟨fuel - 1, by omega⟩
    rw [List.append_assoc, List.cons_append, readFields_comma hfield]
    exact ihmore depth fuel _ rest (by omega)

end

/-! ## Documents -/

/-- A result of parsing follows the grammar: what was parsed is a document, and what stands before
the place of a fault begins one. -/
def FollowsDocument (reader : Reader) (document : List Char) : Except Failure Json → Prop
  | .ok _ => IsDocument document
  | .error (.fault _ rest) => ∃ before tail, IsDocument (before ++ tail) ∧ document = before ++ rest
  | .error (.excess _) => reader.HasLimit

theorem follows_parse (reader : Reader) (document : List Char) :
    FollowsDocument reader document (parse reader document) := by
  obtain ⟨gap, hgap, hdocument⟩ := exists_gap document
  have hvalue := follows_readValue reader 0 (2 * document.length + 2) (skipSpace document)
  unfold parse
  split
  · exact ⟨[], _, IsPart.null.item_of_value (List.forall_mem_nil _), rfl⟩
  split
  next failure hread =>
    rw [hread] at hvalue
    cases failure with
    | excess => exact hvalue
    | fault fault rest =>
      obtain ⟨before, tail, hbegins, hcs⟩ := hvalue
      have hitem : IsDocument (gap ++ (before ++ tail ++ [])) :=
        (hbegins.item_of_value (List.forall_mem_nil _)).item_lead hgap
      exact ⟨gap ++ before, tail, by simpa using hitem,
        by rw [List.append_assoc, ← hcs, ← hdocument]⟩
  next value rest hread =>
    rw [hread] at hvalue
    obtain ⟨text, htext, hcs⟩ := hvalue
    obtain ⟨after, hafter, hrest⟩ := exists_gap rest
    have hitem : IsDocument (gap ++ (text ++ after)) := .item hgap htext hafter
    split
    next hskip =>
      rw [hskip, List.append_nil] at hrest
      show IsDocument document
      rwa [hdocument, hcs, hrest]
    next =>
      refine ⟨gap ++ (text ++ after), [], by rwa [List.append_nil], ?_⟩
      rw [List.append_assoc, List.append_assoc, ← hrest, ← hcs, ← hdocument]

theorem isDocument_of_parse {reader : Reader} {document : List Char} {value : Json}
    (h : parse reader document = .ok value) : IsDocument document := by
  have hfollows := follows_parse reader document
  rwa [h] at hfollows

/-- A reader without limits fails only where a document is at fault. -/
theorem exists_fault_of_free {s : Surrogates} {document : List Char} {failure : Failure}
    (h : parse (.free s) document = .error failure) :
    ∃ fault rest, failure = .fault fault rest := by
  have hfollows := follows_parse (.free s) document
  rw [h] at hfollows
  cases failure with
  | fault fault rest => exact ⟨fault, rest, rfl⟩
  | excess => exact absurd hfollows (Reader.not_hasLimit_free s)

/-- The documents are what can be parsed. -/
theorem exists_parse_iff (s : Surrogates) {document : List Char} :
    (∃ value, parse (.free s) document = .ok value) ↔ IsDocument document := by
  constructor
  · rintro ⟨value, hparse⟩
    exact isDocument_of_parse hparse
  · rintro ⟨⟩
    next before text after hbefore h hafter =>
      obtain ⟨value, hread⟩ := h.accepted s 0 (2 * (before ++ (text ++ after)).length + 1) after
        (by simp; omega) (endsNumber_of_gap hafter)
      exact ⟨value, parse_item hbefore h.exists_cons hafter hread⟩

theorem isOk_parse_iff (s : Surrogates) {document : List Char} :
    (parse (.free s) document).isOk = true ↔ IsDocument document := by
  rw [← exists_parse_iff s]
  cases parse (.free s) document <;> simp [Except.isOk, Except.toBool]

instance (document : List Char) : Decidable (IsDocument document) :=
  decidable_of_iff _ (isOk_parse_iff .usual)

end BuildCommands.Json
