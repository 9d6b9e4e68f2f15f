import BuildCommands.Proofs.JsonTexts
import BuildCommands.Proofs.Lists

/-!
# Reading the texts of a value

The reader accepts every text that the grammar allows for a value and returns the value, whatever
white space stands around it.  A value is read up to its end and no further: the characters behind
it are returned as they are.  The reader is one without limits.

    Spells text value → readValue (.free s) depth fuel (text ++ rest) = .ok (value, rest)
                                                                              (readValue_spells)
    Spells text value → parse (.free s) (gap ++ text ++ gap') = .ok value     (parse_spells)
-/

namespace BuildCommands.Json

/-! ## White space -/

@[simp] theorem skipSpace_nil : skipSpace [] = [] := rfl

theorem skipSpace_cons {c : Char} (h : isSpace c = false) (cs : List Char) :
    skipSpace (c :: cs) = c :: cs := by
  simp [skipSpace, h]

theorem skipSpace_gap {gap : List Char} (h : IsGap gap) (cs : List Char) :
    skipSpace (gap ++ cs) = skipSpace cs :=
  List.dropWhile_append_of_pos h

theorem skipSpace_of_gap {gap : List Char} (h : IsGap gap) : skipSpace gap = [] := by
  simpa using skipSpace_gap h []

/-! ## Texts -/

section

variable (start : List Char) (done : List Piece) {rest : List Char}

theorem readPieces_raw {c : Char} (hcontrol : 0x20 ≤ c.toNat) (hquote : c ≠ '"') (hback : c ≠ '\\') :
    readPieces start done (c :: rest) = readPieces start (.char c :: done) rest := by
  rw [readPieces]
  · rw [if_neg (Nat.not_lt.mpr hcontrol)]
  all_goals simp_all

theorem readPieces_short {e c : Char} (h : shortEscape? e = some c) :
    readPieces start done ('\\' :: e :: rest) = readPieces start (.char c :: done) rest := by
  have he : e ≠ 'u' := by
    rintro rfl
    simp [shortEscape?] at h
  rw [readPieces, h]
  all_goals simp [he]

/-- Behind the digits of a unit the document goes on, at the latest with the closing quote. -/
theorem readPieces_unit {i j k l : Char} {n : Nat} (h : unitCode? i j k l = some n)
    (hrest : rest ≠ []) :
    readPieces start done ('\\' :: 'u' :: i :: j :: k :: l :: rest) =
      readPieces start (.unit n :: done) rest := by
  cases rest with
  | nil => exact absurd rfl hrest
  | cons next rest => rw [readPieces, h]

end

/-- No character is half of a pair. -/
theorem not_surrogate (c : Char) : ¬(0xd800 ≤ c.toNat ∧ c.toNat ≤ 0xdfff) := by
  have h := c.valid
  simp only [UInt32.isValidChar, Nat.isValidChar] at h
  show ¬(0xd800 ≤ c.val.toNat ∧ c.val.toNat ≤ 0xdfff)
  omega

theorem unitChar_toNat (s : Surrogates) (c : Char) : unitChar s c.toNat = c := by
  unfold unitChar
  rw [if_neg (not_surrogate c), Char.ofNat_toNat]

/-- The unit of a character stands for it, whatever follows. -/
theorem joinPieces_unit (s : Surrogates) (c : Char) (pieces : List Piece) :
    joinPieces s (.unit c.toNat :: pieces) = c :: joinPieces s pieces := by
  have hsingle := not_surrogate c
  match pieces with
  | [] => simp [joinPieces, unitChar_toNat]
  | .char d :: pieces => simp [joinPieces, unitChar_toNat]
  | .unit low :: pieces =>
    rw [joinPieces, if_neg (by omega), unitChar_toNat]

theorem joinPieces_pair (s : Surrogates) {high low : Nat} {c : Char} (hhigh : 0xd800 ≤ high ∧ high ≤ 0xdbff)
    (hlow : 0xdc00 ≤ low ∧ low ≤ 0xdfff)
    (hc : c.toNat = 0x10000 + (high - 0xd800) * 0x400 + (low - 0xdc00)) (pieces : List Piece) :
    joinPieces s (.unit high :: .unit low :: pieces) = c :: joinPieces s pieces := by
  rw [joinPieces, if_pos ⟨hhigh.1, hhigh.2, hlow.1, hlow.2⟩, ← hc, Char.ofNat_toNat]

/-- What stands for a character is read as pieces that are joined to it. -/
theorem SpellsChar.readPieces {spelling : List Char} {c : Char} (h : SpellsChar spelling c) :
    ∃ pieces, (∀ s more, joinPieces s (pieces ++ more) = c :: joinPieces s more) ∧
      ∀ start done rest, rest ≠ [] →
        readPieces start done (spelling ++ rest) = readPieces start (pieces.reverse ++ done) rest := by
  cases h with
  | raw hcontrol hquote hback =>
    exact ⟨[.char c], fun _ _ => rfl, fun start done rest _ =>
      readPieces_raw start done hcontrol hquote hback⟩
  | short h =>
    exact ⟨[.char c], fun _ _ => rfl, fun start done rest _ => readPieces_short start done h⟩
  | unit h =>
    exact ⟨[.unit c.toNat], fun s => joinPieces_unit s c, fun start done rest hrest =>
      readPieces_unit start done h hrest⟩
  | @pair _ _ _ _ i' j' k' l' _ high low hhigh hlow hhighs hlows hc =>
    refine ⟨[.unit high, .unit low], fun s => joinPieces_pair s hhighs hlows hc,
      fun start done rest hrest => ?_⟩
    exact (readPieces_unit start done hhigh (List.cons_ne_nil _ _)).trans
      (readPieces_unit start _ hlow hrest)

/-- What stands between quotes is read as pieces that are joined to the text. -/
theorem SpellsText.readPieces {body cs : List Char} (h : SpellsText body cs) :
    ∃ pieces, (∀ s, joinPieces s pieces = cs) ∧ ∀ start done rest,
      readPieces start done (body ++ '"' :: rest) = .ok (done.reverse ++ pieces, rest) := by
  induction h with
  | nil =>
    refine ⟨[], fun s => rfl, fun start done rest => ?_⟩
    rw [List.nil_append, Json.readPieces, List.append_nil]
  | @cons spelling body c cs h _ ih =>
    obtain ⟨first, hjoin, hread⟩ := h.readPieces
    obtain ⟨pieces, hpieces, hreads⟩ := ih
    refine ⟨first ++ pieces, fun s => by rw [hjoin, hpieces], fun start done rest => ?_⟩
    rw [List.append_assoc, hread _ _ _ (by simp), hreads]
    simp

theorem readText_spells (s : Surrogates) {body cs : List Char} (h : SpellsText body cs)
    (rest : List Char) : readText s (body ++ '"' :: rest) = .ok (String.ofList cs, rest) := by
  obtain ⟨pieces, hjoin, hread⟩ := h.readPieces
  unfold readText
  rw [hread]
  simp [hjoin]

/-! ## Numbers -/

/-- No digit stands in front. -/
def NoDigit (cs : List Char) : Prop := ∀ c ∈ cs.head?, c.isDigit = false

/-- What stands in front prolongs no number. -/
def EndsNumber (cs : List Char) : Prop :=
  ∀ c ∈ cs.head?, c.isDigit = false ∧ c ≠ '.' ∧ c ≠ 'e' ∧ c ≠ 'E'

theorem EndsNumber.noDigit {cs : List Char} (h : EndsNumber cs) : NoDigit cs :=
  fun c hc => (h c hc).1

theorem spanDigits_append {digits rest : List Char} (h : ∀ c ∈ digits, c.isDigit = true)
    (hrest : NoDigit rest) : spanDigits (digits ++ rest) = (digits, rest) := by
  obtain ⟨htake, hdrop⟩ := takeWhile_dropWhile_append h hrest
  unfold spanDigits
  rw [htake, hdrop]

theorem wholeDigits_append {whole rest : List Char} (h : IsWhole whole) (hrest : NoDigit rest) :
    wholeDigits (whole ++ rest) = (whole, rest) := by
  rcases h with rfl | ⟨⟨hne, hdigits⟩, hzero⟩
  · rfl
  obtain ⟨d, ds, rfl⟩ := List.exists_cons_of_ne_nil hne
  have hd : d ≠ '0' := by simpa using hzero
  rw [List.cons_append, wholeDigits, ← List.cons_append, spanDigits_append hdigits hrest]
  simpa using hd

theorem fraction_append {decimals rest : List Char} (h : IsFraction decimals)
    (hrest : NoDigit rest) (hpoint : rest.head? ≠ some '.') :
    fraction (decimals ++ rest) = (decimals, rest) := by
  rcases h with rfl | ⟨digits, ⟨hne, hdigits⟩, rfl⟩
  · rw [List.nil_append, fraction]
    rintro rest rfl
    exact hpoint rfl
  · obtain ⟨d, ds, rfl⟩ := List.exists_cons_of_ne_nil hne
    rw [List.cons_append, fraction, spanDigits_append hdigits hrest]

theorem sign_append {mark digits rest : List Char} (hmark : mark ∈ [[], ['+'], ['-']])
    (h : IsDigits digits) : sign (mark ++ (digits ++ rest)) = (mark, digits ++ rest) := by
  obtain ⟨d, ds, rfl⟩ := List.exists_cons_of_ne_nil h.1
  have hd := toNat_of_isDigit (h.2 d List.mem_cons_self)
  simp only [List.mem_cons, List.not_mem_nil, or_false] at hmark
  rcases hmark with rfl | rfl | rfl
  · rw [List.nil_append, List.cons_append, sign]
    all_goals
      rintro rest h
      cases h
      exact absurd hd (by decide)
  · rfl
  · rfl

theorem exponent_append {power rest : List Char} (h : IsExponent power) (hrest : EndsNumber rest) :
    exponent (power ++ rest) = (power, rest) := by
  rcases h with rfl | ⟨letter, mark, digits, hletter, hmark, h, rfl⟩
  · cases rest with
    | nil => rfl
    | cons c rest =>
      obtain ⟨-, -, he, hE⟩ := hrest c rfl
      rw [List.nil_append, exponent, if_neg (by simp [he, hE])]
  · obtain ⟨d, ds, rfl⟩ := List.exists_cons_of_ne_nil h.1
    rw [List.cons_append, exponent, if_pos hletter, List.append_assoc, sign_append hmark h]
    simp only
    rw [spanDigits_append h.2 hrest.noDigit]
    rfl

theorem IsExponent.noDigit {power rest : List Char} (h : IsExponent power)
    (hrest : EndsNumber rest) :
    NoDigit (power ++ rest) ∧ (power ++ rest).head? ≠ some '.' := by
  rcases h with rfl | ⟨letter, mark, digits, hletter, -, -, rfl⟩
  · exact ⟨hrest.noDigit, fun hpoint => (hrest '.' hpoint).2.1 rfl⟩
  · rcases hletter with rfl | rfl
    · exact ⟨fun c hc => by cases hc; decide, by simp⟩
    · exact ⟨fun c hc => by cases hc; decide, by simp⟩

theorem IsFraction.noDigit {decimals rest : List Char} (h : IsFraction decimals)
    (hrest : NoDigit rest) : NoDigit (decimals ++ rest) := by
  rcases h with rfl | ⟨digits, -, rfl⟩
  · exact hrest
  · intro c hc
    cases hc
    decide

@[simp] theorem Reader.free_admitsDigits (s : Surrogates) (count : Nat) :
    (Reader.free s).admitsDigits count = true := rfl

/-- The parts of a number are found where they end. -/
theorem readUnsigned_append (s : Surrogates) {negative : Bool} {start whole decimals power rest : List Char}
    (hwhole : IsWhole whole) (hdecimals : IsFraction decimals) (hpower : IsExponent power)
    (hrest : EndsNumber rest) :
    readUnsigned (.free s) negative start (whole ++ (decimals ++ (power ++ rest))) =
      if decimals.isEmpty && power.isEmpty then
        .ok (.integer (if negative then -(ofDigits whole : Int) else ofDigits whole), rest)
      else .ok (.real (String.ofList (minus negative ++ whole ++ decimals ++ power)), rest) := by
  obtain ⟨hnoDigit, hpoint⟩ := hpower.noDigit hrest
  have hne : whole ≠ [] := by
    rcases hwhole with rfl | ⟨h, -⟩
    · exact List.cons_ne_nil _ _
    · exact h.1
  obtain ⟨d, ds, rfl⟩ := List.exists_cons_of_ne_nil hne
  unfold readUnsigned
  rw [wholeDigits_append hwhole (hdecimals.noDigit hnoDigit)]
  simp only
  rw [fraction_append hdecimals hnoDigit hpoint]
  simp only
  rw [exponent_append hpower hrest]
  rfl

section

variable (reader : Reader)

/-- A digit begins a number and no other literal. -/
theorem readLiteral_digit {d : Char} (hd : d.isDigit = true) (cs : List Char) :
    readLiteral reader (d :: cs) = readUnsigned reader false (d :: cs) (d :: cs) := by
  unfold readLiteral
  split
  case h_8 => rfl
  all_goals simp_all

theorem readLiteral_minus {d : Char} (hd : d.isDigit = true) (cs : List Char) :
    readLiteral reader ('-' :: d :: cs) = readUnsigned reader true ('-' :: d :: cs) (d :: cs) := by
  unfold readLiteral
  split
  case h_7 h => cases h; rfl
  all_goals simp_all

end

theorem IsWhole.exists_cons {whole : List Char} (h : IsWhole whole) :
    ∃ d ds, whole = d :: ds ∧ d.isDigit = true := by
  rcases h with rfl | ⟨⟨hne, hdigits⟩, -⟩
  · exact ⟨'0', [], rfl, by decide⟩
  · obtain ⟨d, ds, rfl⟩ := List.exists_cons_of_ne_nil hne
    exact ⟨d, ds, rfl, hdigits d List.mem_cons_self⟩

section

variable (reader : Reader) (depth : Nat)

theorem readLiteral_number {whole : List Char} (h : IsWhole whole) (negative : Bool)
    (cs : List Char) :
    readLiteral reader (minus negative ++ (whole ++ cs)) =
      readUnsigned reader negative (minus negative ++ (whole ++ cs)) (whole ++ cs) := by
  obtain ⟨d, ds, rfl, hd⟩ := h.exists_cons
  cases negative with
  | false => exact readLiteral_digit reader hd _
  | true => exact readLiteral_minus reader hd _

/-! ## Values -/

/-- What begins neither a text nor an array nor an object is read as a literal. -/
theorem readValue_literal {c : Char} (hquote : c ≠ '"') (hbracket : c ≠ '[') (hbrace : c ≠ '{')
    (fuel : Nat) (cs : List Char) :
    readValue reader depth (fuel + 1) (c :: cs) = readLiteral reader (c :: cs) := by
  rw [readValue]
  all_goals simp_all

theorem readValue_number {whole : List Char} (h : IsWhole whole) (negative : Bool) (fuel : Nat)
    (cs : List Char) :
    readValue reader depth (fuel + 1) (minus negative ++ (whole ++ cs)) =
      readUnsigned reader negative (minus negative ++ (whole ++ cs)) (whole ++ cs) := by
  rw [← readLiteral_number reader h]
  obtain ⟨d, ds, rfl, hd⟩ := h.exists_cons
  cases negative with
  | false =>
    have hne : d ≠ '"' ∧ d ≠ '[' ∧ d ≠ '{' := by
      refine ⟨?_, ?_, ?_⟩ <;> (rintro rfl; cases hd)
    exact readValue_literal reader depth hne.1 hne.2.1 hne.2.2 _ _
  | true => exact readValue_literal reader depth (by decide) (by decide) (by decide) _ _

theorem readValue_text {body cs : List Char} (h : SpellsText body cs) (fuel : Nat)
    (rest : List Char) :
    readValue reader depth (fuel + 1) ('"' :: (body ++ '"' :: rest)) =
      .ok (.text (String.ofList cs), rest) := by
  rw [readValue, readText_spells _ h]

end

section

variable {reader : Reader} {depth : Nat} (hlevel : reader.admitsLevel depth = true)

include hlevel

theorem readValue_emptyArray {gap : List Char} (h : IsGap gap) (fuel : Nat) (rest : List Char) :
    readValue reader depth (fuel + 1) ('[' :: (gap ++ ']' :: rest)) = .ok (.array [], rest) := by
  rw [readValue, if_pos hlevel, skipSpace_gap h, skipSpace_cons (by decide)]
  rfl

theorem readValue_emptyObject {gap : List Char} (h : IsGap gap) (fuel : Nat) (rest : List Char) :
    readValue reader depth (fuel + 1) ('{' :: (gap ++ '}' :: rest)) = .ok (.object [], rest) := by
  rw [readValue, if_pos hlevel, skipSpace_gap h, skipSpace_cons (by decide)]
  rfl

theorem readValue_array {cs : List Char} (h : (skipSpace cs).head? ≠ some ']') (fuel : Nat) :
    readValue reader depth (fuel + 1) ('[' :: cs) =
      readItems reader (depth + 1) fuel [] (skipSpace cs) := by
  rw [readValue, if_pos hlevel]
  split
  next rest hrest => simp [hrest] at h
  next => rfl

theorem readValue_object {cs : List Char} (h : (skipSpace cs).head? ≠ some '}') (fuel : Nat) :
    readValue reader depth (fuel + 1) ('{' :: cs) =
      readFields reader (depth + 1) fuel [] (skipSpace cs) := by
  rw [readValue, if_pos hlevel]
  split
  next rest hrest => simp [hrest] at h
  next => rfl

end

@[simp] theorem Reader.free_surrogates (s : Surrogates) : (Reader.free s).surrogates = s := rfl

@[simp] theorem Reader.free_admitsLevel (s : Surrogates) (depth : Nat) :
    (Reader.free s).admitsLevel depth = true := rfl

/-! ## Items and fields -/

variable (reader : Reader) (depth : Nat)

/-- The characters begin with an item: up to the white space behind it they are read as the value,
and then comes the tail. -/
def ReadsItem (fuel : Nat) (cs tail : List Char) (value : Json) : Prop :=
  ∃ rest, readValue reader depth fuel cs = .ok (value, rest) ∧ skipSpace rest = tail

/-- The characters begin with a field, and then comes the tail. -/
def ReadsField (fuel : Nat) (cs tail : List Char) (field : String × Json) : Prop :=
  ∃ body behind item, cs = '"' :: body ∧
    readText reader.surrogates body = .ok (field.1, behind) ∧
    skipSpace behind = ':' :: item ∧ ReadsItem reader depth fuel (skipSpace item) tail field.2

section

variable {reader : Reader} {depth fuel : Nat} {cs more : List Char}

theorem readItems_comma {value : Json} (h : ReadsItem reader depth fuel cs (',' :: more) value)
    (done : List Json) :
    readItems reader depth (fuel + 1) done cs =
      readItems reader depth fuel (value :: done) (skipSpace more) := by
  obtain ⟨rest, hread, hskip⟩ := h
  rw [readItems, hread]
  simp only [hskip]

theorem readItems_close {value : Json} (h : ReadsItem reader depth fuel cs (']' :: more) value)
    (done : List Json) :
    readItems reader depth (fuel + 1) done cs = .ok (.array (done.reverse ++ [value]), more) := by
  obtain ⟨rest, hread, hskip⟩ := h
  rw [readItems, hread]
  simp only [hskip, List.reverse_cons]

theorem readFields_comma {field : String × Json}
    (h : ReadsField reader depth fuel cs (',' :: more) field) (done : List (String × Json)) :
    readFields reader depth (fuel + 1) done cs =
      readFields reader depth fuel (field :: done) (skipSpace more) := by
  obtain ⟨body, behind, item, rfl, hname, hcolon, rest, hread, hskip⟩ := h
  rw [readFields, hname]
  simp only [hcolon, hread, hskip]

theorem readFields_close {field : String × Json}
    (h : ReadsField reader depth fuel cs ('}' :: more) field) (done : List (String × Json)) :
    readFields reader depth (fuel + 1) done cs = .ok (.object (done.reverse ++ [field]), more) := by
  obtain ⟨body, behind, item, rfl, hname, hcolon, rest, hread, hskip⟩ := h
  rw [readFields, hname]
  simp only [hcolon, hread, hskip, List.reverse_cons]

end

/-! ## Documents -/

/-- A comma or a closing bracket stands in front. -/
def ClosesItem (cs : List Char) : Prop := ∃ c ∈ [',', ']', '}'], ∃ rest, cs = c :: rest

theorem ClosesItem.skipSpace {cs : List Char} (h : ClosesItem cs) : skipSpace cs = cs := by
  obtain ⟨c, hc, rest, rfl⟩ := h
  have hspaces : ∀ c ∈ [',', ']', '}'], isSpace c = false := List.all_iff_forall_prop.mp rfl
  exact skipSpace_cons (hspaces c hc) rest

theorem ClosesItem.endsNumber {cs : List Char} (h : ClosesItem cs) : EndsNumber cs := by
  obtain ⟨c, hc, rest, rfl⟩ := h
  have hends : ∀ c ∈ [',', ']', '}'], c.isDigit = false ∧ c ≠ '.' ∧ c ≠ 'e' ∧ c ≠ 'E' :=
    List.all_iff_forall_prop.mp rfl
  intro d hd
  cases hd
  exact hends c hc

theorem endsNumber_nil : EndsNumber [] := by
  rintro c ⟨⟩

theorem endsNumber_gap {gap rest : List Char} (h : IsGap gap) (hrest : EndsNumber rest) :
    EndsNumber (gap ++ rest) := by
  cases gap with
  | nil => exact hrest
  | cons c gap =>
    intro d hd
    cases hd
    have hc := h c List.mem_cons_self
    refine ⟨?_, ?_, ?_, ?_⟩
    · simp only [isSpace, Bool.or_eq_true, beq_iff_eq] at hc
      rcases hc with ((rfl | rfl) | rfl) | rfl <;> decide
    all_goals
      rintro rfl
      cases hc

/-- A number begins with no white space, not like the end of an array, and with a character of the
basic range. -/
theorem IsWhole.exists_cons_minus {whole : List Char} (h : IsWhole whole) (negative : Bool)
    (more : List Char) :
    ∃ c cs, minus negative ++ (whole ++ more) = c :: cs ∧
      isSpace c = false ∧ c ≠ ']' ∧ c.toNat < 0x80 := by
  obtain ⟨d, ds, rfl, hd⟩ := h.exists_cons
  cases negative with
  | true => exact ⟨'-', _, rfl, by decide, by decide, by decide⟩
  | false =>
    have hrange := toNat_of_isDigit hd
    have hspace : isSpace d = false := by
      rw [Bool.eq_false_iff]
      intro hspace
      simp only [isSpace, Bool.or_eq_true, beq_iff_eq] at hspace
      rcases hspace with ((rfl | rfl) | rfl) | rfl <;> cases hd
    have hbracket : d ≠ ']' := by
      rintro rfl
      cases hd
    exact ⟨d, _, rfl, hspace, hbracket, by show d.toNat < 0x80; omega⟩

/-- The text of a value begins so. -/
theorem Spells.exists_cons {text : List Char} {value : Json} (h : Spells text value) :
    ∃ c cs, text = c :: cs ∧ isSpace c = false ∧ c ≠ ']' ∧ c.toNat < 0x80 := by
  cases h with
  | integer hwhole => simpa using hwhole.exists_cons_minus _ []
  | real hwhole hdecimals hpower => simpa using hwhole.exists_cons_minus _ _
  | _ => exact ⟨_, _, rfl, by decide, by decide, by decide⟩

theorem SpellsItem.length_pos {text : List Char} {value : Json} (h : SpellsItem text value) :
    0 < text.length := by
  cases h with
  | item _ h _ =>
    obtain ⟨c, cs, rfl, -⟩ := h.exists_cons
    simp only [List.length_append, List.length_cons]
    omega

theorem SpellsItems.length_pos {text : List Char} {values : List Json}
    (h : SpellsItems text values) : 0 < text.length := by
  cases h with
  | last h => exact h.length_pos
  | cons =>
    simp only [List.length_append, List.length_cons]
    omega

theorem SpellsField.length_pos {text : List Char} {field : String × Json}
    (h : SpellsField text field) : 0 < text.length := by
  cases h with
  | field =>
    simp only [List.length_append, List.length_cons]
    omega

/-- Items do not begin like the end of an array. -/
theorem SpellsItems.head?_skipSpace {text : List Char} {values : List Json}
    (h : SpellsItems text values) (tail : List Char) :
    (skipSpace (text ++ tail)).head? ≠ some ']' := by
  have hitem : ∀ {text : List Char} {value : Json}, SpellsItem text value → ∀ tail,
      (skipSpace (text ++ tail)).head? ≠ some ']' := by
    rintro _ _ ⟨hbefore, h, -⟩ tail
    obtain ⟨c, cs, rfl, hspace, hc, -⟩ := h.exists_cons
    rw [List.append_assoc, skipSpace_gap hbefore, List.cons_append, List.cons_append,
      skipSpace_cons hspace]
    simpa using hc
  cases h with
  | last h => exact hitem h tail
  | cons h _ =>
    rw [List.append_assoc]
    exact hitem h _

/-- Fields do not begin like the end of an object. -/
theorem SpellsFields.head?_skipSpace {text : List Char} {fields : List (String × Json)}
    (h : SpellsFields text fields) (tail : List Char) :
    (skipSpace (text ++ tail)).head? ≠ some '}' := by
  have hfield : ∀ {text : List Char} {field : String × Json}, SpellsField text field → ∀ tail,
      (skipSpace (text ++ tail)).head? ≠ some '}' := by
    rintro _ _ ⟨hbefore, -, -, -⟩ tail
    rw [List.append_assoc, skipSpace_gap hbefore, List.cons_append, skipSpace_cons (by decide)]
    simp
  cases h with
  | last h => exact hfield h tail
  | cons h _ =>
    rw [List.append_assoc]
    exact hfield h _

section

variable (s : Surrogates)

mutual

/-- A text of a value is read as the value, and nothing behind it is touched. -/
theorem readValue_spells : ∀ {text : List Char} {value : Json}, Spells text value →
    ∀ depth fuel rest, 2 * text.length ≤ fuel + 2 → EndsNumber rest →
      readValue (.free s) depth (fuel + 1) (text ++ rest) = .ok (value, rest)
  | _, _, .null, depth, fuel, rest, _, _
  | _, _, .yes, depth, fuel, rest, _, _
  | _, _, .no, depth, fuel, rest, _, _
  | _, _, .nan, depth, fuel, rest, _, _
  | _, _, .infinity, depth, fuel, rest, _, _
  | _, _, .minusInfinity, depth, fuel, rest, _, _ =>
    readValue_literal _ depth (by decide) (by decide) (by decide) fuel _
  | _, _, .integer hwhole, depth, fuel, rest, _, hrest => by
    rw [List.append_assoc, readValue_number _ _ hwhole]
    exact readUnsigned_append s hwhole (Or.inl rfl) (Or.inl rfl) hrest
  | _, _, .real hwhole hdecimals hpower hparts, depth, fuel, rest, _, hrest => by
    simp only [List.append_assoc]
    rw [readValue_number _ _ hwhole, readUnsigned_append s hwhole hdecimals hpower hrest, if_neg]
    · simp only [List.append_assoc]
    · rcases hparts with h | h <;> simp [h]
  | _, _, .text h, depth, fuel, rest, _, _ => by simpa using readValue_text _ depth h fuel rest
  | _, _, .emptyArray h, depth, fuel, rest, _, _ => by
    simpa using readValue_emptyArray (Reader.free_admitsLevel s depth) h fuel rest
  | _, _, .emptyObject h, depth, fuel, rest, _, _ => by
    simpa using readValue_emptyObject (Reader.free_admitsLevel s depth) h fuel rest
  | _, _, .array h, depth, fuel, rest, hf, _ => by
    obtain ⟨fuel, rfl⟩ : ∃ n, fuel = n + 2 := ⟨fuel - 2, by simp at hf; omega⟩
    have hitems := readItems_spells h (depth + 1) fuel [] rest (by simp at hf; omega)
    have hfirst := h.head?_skipSpace (']' :: rest)
    rw [List.cons_append, List.append_assoc, List.singleton_append, readValue_array rfl hfirst]
    exact hitems
  | _, _, .object h, depth, fuel, rest, hf, _ => by
    obtain ⟨fuel, rfl⟩ : ∃ n, fuel = n + 2 := ⟨fuel - 2, by simp at hf; omega⟩
    have hfields := readFields_spells h (depth + 1) fuel [] rest (by simp at hf; omega)
    have hfirst := h.head?_skipSpace ('}' :: rest)
    rw [List.cons_append, List.append_assoc, List.singleton_append, readValue_object rfl hfirst]
    exact hfields

theorem readsItem_spells : ∀ {text : List Char} {value : Json}, SpellsItem text value →
    ∀ depth fuel tail, 2 * text.length ≤ fuel + 2 → ClosesItem tail →
      ReadsItem (.free s) depth (fuel + 1) (skipSpace (text ++ tail)) tail value
  | _, _, @SpellsItem.item before _ after _ hbefore h hafter, depth, fuel, tail, hf, htail => by
    have hread := readValue_spells h depth fuel (after ++ tail) (by simp at hf; omega)
      (endsNumber_gap hafter htail.endsNumber)
    refine ⟨after ++ tail, ?_, ?_⟩
    · obtain ⟨c, cs, hcons, hspace, -⟩ := h.exists_cons
      rw [List.append_assoc, List.append_assoc, skipSpace_gap hbefore]
      rw [hcons] at hread ⊢
      rw [List.cons_append, skipSpace_cons hspace, ← List.cons_append, hread]
    · rw [skipSpace_gap hafter, htail.skipSpace]

theorem readItems_spells : ∀ {text : List Char} {values : List Json}, SpellsItems text values →
    ∀ depth fuel done rest, 2 * text.length ≤ fuel + 2 →
      readItems (.free s) depth (fuel + 2) done (skipSpace (text ++ ']' :: rest)) =
        .ok (.array (done.reverse ++ values), rest)
  | _, _, .last h, depth, fuel, done, rest, hf =>
    readItems_close
      (readsItem_spells h depth fuel (']' :: rest) hf ⟨']', by decide, rest, rfl⟩) done
  | _, _, @SpellsItems.cons _ more _ _ h hmore, depth, fuel, done, rest, hf => by
    simp only [List.length_append, List.length_cons] at hf
    have hitem := readsItem_spells h depth fuel (',' :: (more ++ ']' :: rest)) (by omega)
      ⟨',', by decide, _, rfl⟩
    obtain ⟨fuel, rfl⟩ : ∃ n, fuel = n + 1 := ⟨fuel - 1, by have := h.length_pos; omega⟩
    rw [List.append_assoc, List.cons_append, readItems_comma hitem,
      readItems_spells hmore depth fuel _ rest (by omega)]
    simp

theorem readsField_spells : ∀ {text : List Char} {field : String × Json}, SpellsField text field →
    ∀ depth fuel tail, 2 * text.length ≤ fuel + 2 → ClosesItem tail →
      ReadsField (.free s) depth (fuel + 1) (skipSpace (text ++ tail)) tail field
  | _, _, @SpellsField.field before name behind item _ _ hbefore hname hbehind h,
    depth, fuel, tail, hf, htail => by
    simp only [List.length_append, List.length_cons] at hf
    refine ⟨name ++ '"' :: (behind ++ ':' :: (item ++ tail)), behind ++ ':' :: (item ++ tail),
      item ++ tail, ?_, readText_spells s hname _, ?_,
      readsItem_spells h depth fuel tail (by omega) htail⟩
    · rw [List.append_assoc, skipSpace_gap hbefore, List.cons_append, skipSpace_cons (by decide)]
      simp
    · rw [skipSpace_gap hbehind, skipSpace_cons (by decide)]

theorem readFields_spells : ∀ {text : List Char} {fields : List (String × Json)},
    SpellsFields text fields → ∀ depth fuel done rest, 2 * text.length ≤ fuel + 2 →
      readFields (.free s) depth (fuel + 2) done (skipSpace (text ++ '}' :: rest)) =
        .ok (.object (done.reverse ++ fields), rest)
  | _, _, .last h, depth, fuel, done, rest, hf =>
    readFields_close
      (readsField_spells h depth fuel ('}' :: rest) hf ⟨'}', by decide, rest, rfl⟩) done
  | _, _, @SpellsFields.cons _ more _ _ h hmore, depth, fuel, done, rest, hf => by
    simp only [List.length_append, List.length_cons] at hf
    have hfield := readsField_spells h depth fuel (',' :: (more ++ '}' :: rest)) (by omega)
      ⟨',', by decide, _, rfl⟩
    obtain ⟨fuel, rfl⟩ : ∃ n, fuel = n + 1 := ⟨fuel - 1, by have := h.length_pos; omega⟩
    rw [List.append_assoc, List.cons_append, readFields_comma hfield,
      readFields_spells hmore depth fuel _ rest (by omega)]
    simp

end

end

/-- A document is white space, a value that begins with a character of the basic range, and white
space. -/
theorem parse_item {reader : Reader} {before text after : List Char} {value : Json}
    (hbefore : IsGap before)
    (hfirst : ∃ c cs, text = c :: cs ∧ isSpace c = false ∧ c ≠ ']' ∧ c.toNat < 0x80)
    (hafter : IsGap after)
    (hread : readValue reader 0 (2 * (before ++ (text ++ after)).length + 2) (text ++ after) =
      .ok (value, after)) :
    parse reader (before ++ (text ++ after)) = .ok value := by
  obtain ⟨c, cs, hcons, hspace, -, hrange⟩ := hfirst
  have hmark : (before ++ (text ++ after)).head? ≠ some (Char.ofNat 0xfeff) := by
    cases before with
    | nil =>
      rw [hcons]
      rintro hc
      cases hc
      exact absurd hrange (by decide)
    | cons b before =>
      rintro hb
      cases hb
      exact absurd (hbefore _ List.mem_cons_self) (by decide)
  have hskip : skipSpace (before ++ (text ++ after)) = text ++ after := by
    rw [skipSpace_gap hbefore, hcons, List.cons_append, skipSpace_cons hspace]
  unfold parse
  rw [if_neg hmark, hskip, hread]
  simp only [skipSpace_of_gap hafter]

theorem endsNumber_of_gap {gap : List Char} (h : IsGap gap) : EndsNumber gap := by
  simpa using endsNumber_gap h endsNumber_nil

/-- A text of a value, with white space at its ends, is a document of the value. -/
theorem parse_spells (s : Surrogates) {text : List Char} {value : Json}
    (h : SpellsItem text value) : parse (.free s) text = .ok value := by
  cases h with
  | item hbefore h hafter =>
    refine parse_item hbefore h.exists_cons hafter ?_
    exact readValue_spells s h 0 _ _ (by simp; omega) (endsNumber_of_gap hafter)

end BuildCommands.Json
