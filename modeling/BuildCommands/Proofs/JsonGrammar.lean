import BuildCommands.Proofs.JsonExtent
import Mathlib.Data.List.TakeWhile

/-!
# What the reader follows

The grammar of JSON apart from what the texts denote: half of a pair may stand alone, which denotes
no character but is no fault.  What the reader reads is a part of the grammar, and the characters
before the place of a fault still begin one.

    readValue reader depth fuel cs = .ok (value, rest)
      → cs = text ++ rest, IsPart .value text
    readValue reader depth fuel cs = .error (.fault fault rest)
      → cs = before ++ rest, IsPart .value (before ++ tail)               (follows_readValue)
-/

namespace BuildCommands.Json

/-! ## Grammar -/

/-- What may stand in a text for one character or one unit. -/
inductive IsPiece : List Char → Prop
  | raw {c : Char} (hcontrol : 0x20 ≤ c.toNat) (hquote : c ≠ '"') (hback : c ≠ '\\') : IsPiece [c]
  | short {e c : Char} (h : shortEscape? e = some c) : IsPiece ['\\', e]
  | unit {i j k l : Char} {n : Nat} (h : unitCode? i j k l = some n) :
      IsPiece ['\\', 'u', i, j, k, l]

/-- A text with its quotes. -/
def IsQuoted (text : List Char) : Prop :=
  ∃ pieces : List (List Char), (∀ piece ∈ pieces, IsPiece piece) ∧
    text = '"' :: (pieces.flatten ++ ['"'])

/-- The values that are written as words. -/
def words : List (List Char) :=
  [['n', 'u', 'l', 'l'], ['t', 'r', 'u', 'e'], ['f', 'a', 'l', 's', 'e'], ['N', 'a', 'N'],
    ['I', 'n', 'f', 'i', 'n', 'i', 't', 'y'], ['-', 'I', 'n', 'f', 'i', 'n', 'i', 't', 'y']]

/-- The parts of a document. -/
inductive Part where
  | value
  /-- A value with the white space at its ends. -/
  | item
  /-- What stands between the brackets of an array that is not empty. -/
  | items
  /-- A field with the white space at its ends. -/
  | field
  /-- What stands between the braces of an object that is not empty. -/
  | fields

/-- The characters are such a part. -/
inductive IsPart : Part → List Char → Prop
  | word {text : List Char} (h : text ∈ words) : IsPart .value text
  | number {negative : Bool} {whole decimals power : List Char} (hwhole : IsWhole whole)
      (hdecimals : IsFraction decimals) (hpower : IsExponent power) :
      IsPart .value (minus negative ++ (whole ++ (decimals ++ power)))
  | text {text : List Char} (h : IsQuoted text) : IsPart .value text
  | emptyArray {gap : List Char} (h : IsGap gap) : IsPart .value ('[' :: (gap ++ [']']))
  | array {body : List Char} (h : IsPart .items body) : IsPart .value ('[' :: (body ++ [']']))
  | emptyObject {gap : List Char} (h : IsGap gap) : IsPart .value ('{' :: (gap ++ ['}']))
  | object {body : List Char} (h : IsPart .fields body) : IsPart .value ('{' :: (body ++ ['}']))
  | item {before text after : List Char} (hbefore : IsGap before) (h : IsPart .value text)
      (hafter : IsGap after) : IsPart .item (before ++ (text ++ after))
  | lastItem {text : List Char} (h : IsPart .item text) : IsPart .items text
  | moreItems {text more : List Char} (h : IsPart .item text) (hmore : IsPart .items more) :
      IsPart .items (text ++ ',' :: more)
  | field {before name behind item : List Char} (hbefore : IsGap before) (hname : IsQuoted name)
      (hbehind : IsGap behind) (h : IsPart .item item) :
      IsPart .field (before ++ (name ++ (behind ++ ':' :: item)))
  | lastField {text : List Char} (h : IsPart .field text) : IsPart .fields text
  | moreFields {text more : List Char} (h : IsPart .field text) (hmore : IsPart .fields more) :
      IsPart .fields (text ++ ',' :: more)

/-- The characters are a JSON document. -/
def IsDocument (document : List Char) : Prop := IsPart .item document

/-- The reader has some limit. -/
def Reader.HasLimit (reader : Reader) : Prop := reader.levels? ≠ none ∨ reader.digits? ≠ none

/-- A result of reading characters follows the grammar: what was read is a part of the given sort,
and what stands before the place of a fault begins one.  An excess says nothing of the grammar, only
that the reader has a limit. -/
def Follows (reader : Reader) {α : Type} (P : List Char → Prop) (cs : List Char) : Read α → Prop
  | .ok (_, rest) => ∃ text, P text ∧ cs = text ++ rest
  | .error (.fault _ rest) => ∃ before tail, P (before ++ tail) ∧ cs = before ++ rest
  | .error (.excess _) => reader.HasLimit

/-! ## White space in front -/

theorem isGap_append {gap gap' : List Char} (h : IsGap gap) (h' : IsGap gap') :
    IsGap (gap ++ gap') :=
  List.forall_mem_append.mpr ⟨h, h'⟩

/-- What is skipped is white space. -/
theorem exists_gap (cs : List Char) : ∃ gap, IsGap gap ∧ cs = gap ++ skipSpace cs :=
  ⟨cs.takeWhile isSpace, fun _ hc => List.mem_takeWhile_imp hc, List.takeWhile_append_dropWhile.symm⟩

theorem IsPart.item_lead {gap text : List Char} (hgap : IsGap gap) (h : IsPart .item text) :
    IsPart .item (gap ++ text) := by
  cases h with
  | item hbefore h hafter =>
    rw [← List.append_assoc]
    exact .item (isGap_append hgap hbefore) h hafter

theorem IsPart.items_lead {gap text : List Char} (hgap : IsGap gap) (h : IsPart .items text) :
    IsPart .items (gap ++ text) := by
  cases h with
  | lastItem h => exact .lastItem (h.item_lead hgap)
  | moreItems h hmore =>
    rw [← List.append_assoc]
    exact .moreItems (h.item_lead hgap) hmore

theorem IsPart.field_lead {gap text : List Char} (hgap : IsGap gap) (h : IsPart .field text) :
    IsPart .field (gap ++ text) := by
  cases h with
  | field hbefore hname hbehind h =>
    rw [← List.append_assoc]
    exact .field (isGap_append hgap hbefore) hname hbehind h

theorem IsPart.fields_lead {gap text : List Char} (hgap : IsGap gap) (h : IsPart .fields text) :
    IsPart .fields (gap ++ text) := by
  cases h with
  | lastField h => exact .lastField (h.field_lead hgap)
  | moreFields h hmore =>
    rw [← List.append_assoc]
    exact .moreFields (h.field_lead hgap) hmore

/-- A value before white space is an item. -/
theorem IsPart.item_of_value {text after : List Char} (h : IsPart .value text)
    (hafter : IsGap after) : IsPart .item (text ++ after) :=
  .item (List.forall_mem_nil _) h hafter

/-! ## Results -/

section

variable {reader : Reader} {α : Type} {P Q : List Char → Prop}

/-- What was read behind a front goes with it. -/
theorem Follows.front {front cs : List Char} {r : Read α} (h : Follows reader Q cs r)
    (hfront : ∀ text, Q text → P (front ++ text)) : Follows reader P (front ++ cs) r := by
  cases r with
  | ok read =>
    obtain ⟨text, htext, rfl⟩ := h
    exact ⟨front ++ text, hfront text htext, (List.append_assoc _ _ _).symm⟩
  | error failure =>
    cases failure with
    | excess => exact h
    | fault fault rest =>
      obtain ⟨before, tail, hbegins, rfl⟩ := h
      refine ⟨front ++ before, tail, ?_, (List.append_assoc _ _ _).symm⟩
      rw [List.append_assoc]
      exact hfront _ hbegins

/-- A fault inside a part is one inside what the part begins. -/
theorem Follows.error {β : Type} {cs : List Char} {failure : Failure}
    (h : Follows reader Q cs (.error failure : Read α))
    (hbegins : ∀ text, Q text → ∃ tail, P (text ++ tail)) :
    Follows reader P cs (.error failure : Read β) := by
  cases failure with
  | excess => exact h
  | fault fault rest =>
    obtain ⟨before, tail, hQ, rfl⟩ := h
    obtain ⟨more, hP⟩ := hbegins _ hQ
    exact ⟨before, tail ++ more, by rwa [← List.append_assoc], rfl⟩

/-- What was read behind a separator, with white space on both sides of it, goes with what stands in
front. -/
theorem Follows.behind {front rest more : List Char} {c : Char} {r : Read α}
    (hskip : skipSpace rest = c :: more) (h : Follows reader Q (skipSpace more) r)
    (hmore : ∀ gap gap' text, IsGap gap → IsGap gap' → Q text →
      P (front ++ gap ++ c :: (gap' ++ text))) : Follows reader P (front ++ rest) r := by
  obtain ⟨gap, hgap, hrest⟩ := exists_gap rest
  obtain ⟨gap', hgap', hbehind⟩ := exists_gap more
  have hcs : front ++ rest = (front ++ gap ++ c :: gap') ++ skipSpace more := by
    rw [hrest, hskip]
    simp [← hbehind]
  rw [hcs]
  refine h.front fun text htext => ?_
  simpa using hmore gap gap' text hgap hgap' htext

theorem follows_close {front rest more : List Char} {c : Char} (hskip : skipSpace rest = c :: more)
    (h : ∀ gap, IsGap gap → P (front ++ gap ++ [c])) (a : α) :
    Follows reader P (front ++ rest) (.ok (a, more)) := by
  obtain ⟨gap, hgap, hrest⟩ := exists_gap rest
  rw [hskip] at hrest
  exact ⟨_, h gap hgap, by simp [hrest]⟩

/-- A fault at the first character. -/
theorem follows_start {cs tail : List Char} (h : P tail) (fault : Fault) :
    Follows reader P cs (.error (.fault fault cs) : Read α) :=
  ⟨[], tail, h, rfl⟩

theorem follows_fault {front rest : List Char}
    (h : ∀ gap, IsGap gap → ∃ tail, P (front ++ gap ++ tail)) (fault : Fault) :
    Follows reader P (front ++ rest) (.error (.fault fault (skipSpace rest)) : Read α) := by
  obtain ⟨gap, hgap, hrest⟩ := exists_gap rest
  obtain ⟨tail, htail⟩ := h gap hgap
  exact ⟨front ++ gap, tail, htail, by rw [List.append_assoc, ← hrest]⟩

end

/-! ## Texts -/

theorem isQuoted_empty : IsQuoted ['"', '"'] := ⟨[], List.forall_mem_nil _, rfl⟩

/-- The pieces read so far stand behind the opening quote. -/
theorem follows_readPieces {reader : Reader} {start cs : List Char} {done : List Piece} :
    ∀ front : List (List Char), (∀ piece ∈ front, IsPiece piece) →
      start = '"' :: (front.flatten ++ cs) → Follows reader IsQuoted start (readPieces start done cs) := by
  -- one more piece in front of what is still to be read
  have hstep : ∀ {front : List (List Char)} {piece rest : List Char},
      (∀ piece ∈ front, IsPiece piece) → IsPiece piece →
      start = '"' :: (front.flatten ++ (piece ++ rest)) →
      (∀ p ∈ front ++ [piece], IsPiece p) ∧ start = '"' :: ((front ++ [piece]).flatten ++ rest) := by
    intro front piece rest hfront hpiece hstart
    refine ⟨List.forall_mem_append.mpr ⟨hfront, List.forall_mem_singleton.mpr hpiece⟩, ?_⟩
    rw [hstart, List.flatten_append, List.flatten_singleton, List.append_assoc]
  -- a fault behind some pieces, which a closing quote would complete
  have hfault : ∀ {front : List (List Char)} {rest : List Char} (fault : Fault),
      (∀ piece ∈ front, IsPiece piece) → start = '"' :: (front.flatten ++ rest) →
      Follows reader IsQuoted start (.error (.fault fault rest) : Read (List Piece)) := by
    intro front rest fault hfront hstart
    exact ⟨'"' :: front.flatten, ['"'], ⟨front, hfront, rfl⟩, hstart⟩
  have hunit : ∀ {front : List (List Char)} {rest : List Char},
      (∀ piece ∈ front, IsPiece piece) → start = '"' :: (front.flatten ++ '\\' :: 'u' :: rest) →
      Follows reader IsQuoted start (.error (.fault .badUnicodeEscape rest) : Read (List Piece)) := by
    intro front rest hfront hstart
    have hzero : IsPiece ['\\', 'u', '0', '0', '0', '0'] := .unit rfl
    refine ⟨'"' :: (front.flatten ++ ['\\', 'u']), ['0', '0', '0', '0', '"'],
      ⟨front ++ [['\\', 'u', '0', '0', '0', '0']], ?_, by simp⟩, by simp [hstart]⟩
    exact List.forall_mem_append.mpr ⟨hfront, List.forall_mem_singleton.mpr hzero⟩
  fun_induction readPieces start done cs with
  | case1 | case6 => exact fun _ _ _ => ⟨[], ['"', '"'], isQuoted_empty, rfl⟩
  | case2 done rest =>
    intro front hfront hstart
    exact ⟨'"' :: (front.flatten ++ ['"']), ⟨front, hfront, rfl⟩, by simp [hstart]⟩
  | case3 done a b c d next rest code hcode ih =>
    intro front hfront hstart
    obtain ⟨hpieces, hnext⟩ := hstep hfront (.unit hcode) hstart
    exact ih _ hpieces hnext
  | case4 | case5 => exact fun _ hfront hstart => hunit hfront hstart
  | case7 done c rest _ _ e hescape ih =>
    intro front hfront hstart
    obtain ⟨hpieces, hnext⟩ := hstep hfront (.short hescape) hstart
    exact ih _ hpieces hnext
  | case8 | case9 => exact fun _ hfront hstart => hfault _ hfront hstart
  | case10 done c rest hquote _ _ hlone hescape hcontrol ih =>
    intro front hfront hstart
    have hback : c ≠ '\\' := by
      rintro rfl
      cases rest with
      | nil => exact hlone rfl rfl
      | cons e rest => exact hescape e rest rfl rfl
    obtain ⟨hpieces, hnext⟩ := hstep hfront (.raw (Nat.not_lt.mp hcontrol) hquote hback) hstart
    exact ih _ hpieces hnext

theorem follows_readText (reader : Reader) (cs : List Char) :
    Follows reader IsQuoted ('"' :: cs) (readText reader.surrogates cs) := by
  have hpieces := @follows_readPieces reader ('"' :: cs) cs [] [] (List.forall_mem_nil _) rfl
  unfold readText
  split
  next hread =>
    rw [hread] at hpieces
    exact hpieces
  next hread =>
    rw [hread] at hpieces
    exact hpieces.error fun text htext => ⟨[], by rwa [List.append_nil]⟩

/-! ## Numbers -/

theorem spanDigits_eq {cs digits rest : List Char} (h : spanDigits cs = (digits, rest)) :
    (∀ c ∈ digits, c.isDigit = true) ∧ cs = digits ++ rest := by
  obtain ⟨rfl, rfl⟩ := Prod.mk.inj h
  exact ⟨fun _ hc => List.mem_takeWhile_imp hc, List.takeWhile_append_dropWhile.symm⟩

theorem wholeDigits_eq {cs whole rest : List Char} (h : wholeDigits cs = (whole, rest))
    (hne : whole ≠ []) : IsWhole whole ∧ cs = whole ++ rest := by
  fun_cases wholeDigits cs with
  | case1 more =>
    obtain ⟨rfl, rfl⟩ := Prod.mk.inj h
    exact ⟨Or.inl rfl, rfl⟩
  | case2 cs hzero =>
    have hspan : spanDigits cs = (whole, rest) := by
      rwa [wholeDigits] at h
      exact hzero
    obtain ⟨hdigits, rfl⟩ := spanDigits_eq hspan
    refine ⟨Or.inr ⟨⟨hne, hdigits⟩, ?_⟩, rfl⟩
    cases whole with
    | nil => exact absurd rfl hne
    | cons d ds =>
      rintro ⟨⟩
      exact hzero _ rfl

theorem fraction_eq {cs decimals rest : List Char} (h : fraction cs = (decimals, rest)) :
    IsFraction decimals ∧ cs = decimals ++ rest := by
  fun_cases fraction cs with
  | case1 more digits hspan =>
    rw [fraction, hspan] at h
    obtain ⟨rfl, rfl⟩ := Prod.mk.inj h
    exact ⟨Or.inl rfl, rfl⟩
  | case2 more digits after hne hspan =>
    rw [fraction, hspan] at h
    cases digits with
    | nil => exact absurd rfl hne
    | cons d ds =>
      obtain ⟨rfl, rfl⟩ := Prod.mk.inj h
      obtain ⟨hdigits, rfl⟩ := spanDigits_eq hspan
      exact ⟨Or.inr ⟨_, ⟨hne, hdigits⟩, rfl⟩, rfl⟩
  | case3 cs hpoint =>
    have hnone : fraction cs = ([], cs) := by rw [fraction]; exact hpoint
    obtain ⟨rfl, rfl⟩ := Prod.mk.inj (hnone.symm.trans h)
    exact ⟨Or.inl rfl, rfl⟩

theorem sign_eq {cs mark rest : List Char} (h : sign cs = (mark, rest)) :
    mark ∈ [[], ['+'], ['-']] ∧ cs = mark ++ rest := by
  fun_cases sign cs with
  | case1 | case2 =>
    obtain ⟨rfl, rfl⟩ := Prod.mk.inj h
    exact ⟨by simp, rfl⟩
  | case3 cs hplus hminus =>
    have hnone : sign cs = ([], cs) := by
      rw [sign]
      · exact hplus
      · exact hminus
    obtain ⟨rfl, rfl⟩ := Prod.mk.inj (hnone.symm.trans h)
    exact ⟨by simp, rfl⟩

theorem exponent_eq {cs power rest : List Char} (h : exponent cs = (power, rest)) :
    IsExponent power ∧ cs = power ++ rest := by
  fun_cases exponent cs with
  | case1 c more hletter mark after hsign digits hspan =>
    rw [exponent, if_pos hletter, hsign] at h
    simp only [hspan] at h
    obtain ⟨rfl, rfl⟩ := Prod.mk.inj h
    exact ⟨Or.inl rfl, rfl⟩
  | case2 c more hletter mark after hsign digits behind hne hspan =>
    rw [exponent, if_pos hletter, hsign] at h
    simp only [hspan] at h
    cases digits with
    | nil => exact absurd rfl hne
    | cons d ds =>
      obtain ⟨rfl, rfl⟩ := Prod.mk.inj h
      obtain ⟨hmark, rfl⟩ := sign_eq hsign
      obtain ⟨hdigits, rfl⟩ := spanDigits_eq hspan
      exact ⟨Or.inr ⟨c, mark, _, hletter, hmark, ⟨hne, hdigits⟩, rfl⟩, by simp⟩
  | case3 c more hletter =>
    rw [exponent, if_neg hletter] at h
    obtain ⟨rfl, rfl⟩ := Prod.mk.inj h
    exact ⟨Or.inl rfl, rfl⟩
  | case4 =>
    obtain ⟨rfl, rfl⟩ := Prod.mk.inj h
    exact ⟨Or.inl rfl, rfl⟩

theorem IsPart.null : IsPart .value ['n', 'u', 'l', 'l'] := .word List.mem_cons_self

section

variable {reader : Reader}

theorem Reader.hasLimit_of_level {depth : Nat} (h : ¬reader.admitsLevel depth = true) :
    reader.HasLimit := by
  left
  intro hnone
  simp [admitsLevel, hnone] at h

theorem Reader.hasLimit_of_digits {count : Nat} (h : ¬reader.admitsDigits count = true) :
    reader.HasLimit := by
  right
  intro hnone
  simp [admitsDigits, hnone] at h

theorem Reader.not_hasLimit_free (s : Surrogates) : ¬(Reader.free s).HasLimit := by
  simp [HasLimit, free, Limits.free]

end

section

variable (reader : Reader)

theorem follows_readUnsigned (negative : Bool) (cs : List Char) :
    Follows reader (IsPart .value) (minus negative ++ cs)
      (readUnsigned reader negative (minus negative ++ cs) cs) := by
  unfold readUnsigned
  split
  next => exact follows_start .null _
  next whole afterWhole hne hfirst =>
    obtain ⟨hwhole, rfl⟩ := wholeDigits_eq hfirst hne
    split
    next decimals afterFraction hsecond =>
      obtain ⟨hdecimals, rfl⟩ := fraction_eq hsecond
      split
      next power rest hthird =>
        obtain ⟨hpower, rfl⟩ := exponent_eq hthird
        have hnumber : IsPart .value (minus negative ++ (whole ++ (decimals ++ power))) :=
          .number hwhole hdecimals hpower
        split
        · split
          · exact ⟨_, hnumber, by simp⟩
          · exact Reader.hasLimit_of_digits ‹_›
        · exact ⟨_, hnumber, by simp⟩

theorem follows_readLiteral (cs : List Char) :
    Follows reader (IsPart .value) cs (readLiteral reader cs) := by
  unfold readLiteral
  split
  case h_1 => exact ⟨['n', 'u', 'l', 'l'], .word (by decide), rfl⟩
  case h_2 => exact ⟨['t', 'r', 'u', 'e'], .word (by decide), rfl⟩
  case h_3 => exact ⟨['f', 'a', 'l', 's', 'e'], .word (by decide), rfl⟩
  case h_4 => exact ⟨['N', 'a', 'N'], .word (by decide), rfl⟩
  case h_5 => exact ⟨['I', 'n', 'f', 'i', 'n', 'i', 't', 'y'], .word (by decide), rfl⟩
  case h_6 => exact ⟨['-', 'I', 'n', 'f', 'i', 'n', 'i', 't', 'y'], .word (by decide), rfl⟩
  case h_7 => exact follows_readUnsigned reader true _
  case h_8 => exact follows_readUnsigned reader false _

end

/-! ## Values -/

/-- What stands between the brackets of an array, and the closing one. -/
def ClosesItems (text : List Char) : Prop := ∃ body, IsPart .items body ∧ text = body ++ [']']

/-- What stands between the braces of an object, and the closing one. -/
def ClosesFields (text : List Char) : Prop := ∃ body, IsPart .fields body ∧ text = body ++ ['}']

theorem isPart_field {name gap gap' value after : List Char} (hname : IsQuoted name)
    (hgap : IsGap gap) (hgap' : IsGap gap') (h : IsPart .value value) (hafter : IsGap after) :
    IsPart .field (name ++ gap ++ ':' :: gap' ++ value ++ after) := by
  have hfield := IsPart.field (List.forall_mem_nil _) hname hgap (.item hgap' h hafter)
  simpa using hfield

/-- A name can go on as the last field. -/
theorem closesFields_null {name gap : List Char} (hname : IsQuoted name) (hgap : IsGap gap) :
    ClosesFields (name ++ gap ++ [':', 'n', 'u', 'l', 'l', '}']) := by
  have hnone : IsGap [] := List.forall_mem_nil _
  exact ⟨_, .lastField (isPart_field hname hgap hnone .null hnone), by simp⟩

section

variable (reader : Reader)

mutual

/-- What is read as a value is one, and a fault is found behind the beginning of one. -/
theorem follows_readValue : ∀ depth fuel cs,
    Follows reader (IsPart .value) cs (readValue reader depth fuel cs)
  | _, 0, _ => follows_start .null _
  | depth, fuel + 1, cs => by
    rw [readValue.eq_def]
    simp only
    split
    next rest =>
      have htext := follows_readText reader rest
      split
      next hread =>
        rw [hread] at htext
        obtain ⟨text, hquoted, heq⟩ := htext
        exact ⟨text, .text hquoted, heq⟩
      next hread =>
        rw [hread] at htext
        exact htext.error fun text hquoted => ⟨[], by simpa using IsPart.text hquoted⟩
    next rest =>
      obtain ⟨gap, hgap, hrest⟩ := exists_gap rest
      split
      case isFalse hlevel => exact Reader.hasLimit_of_level hlevel
      split
      next more hskip =>
        rw [hskip] at hrest
        exact ⟨_, .emptyArray hgap, by simp [hrest]⟩
      next =>
        have hcs : '[' :: rest = ('[' :: gap) ++ skipSpace rest := congrArg ('[' :: ·) hrest
        rw [hcs]
        refine (follows_readItems (depth + 1) fuel [] _).front ?_
        rintro _ ⟨body, hbody, rfl⟩
        simpa using IsPart.array (hbody.items_lead hgap)
    next rest =>
      obtain ⟨gap, hgap, hrest⟩ := exists_gap rest
      split
      case isFalse hlevel => exact Reader.hasLimit_of_level hlevel
      split
      next more hskip =>
        rw [hskip] at hrest
        exact ⟨_, .emptyObject hgap, by simp [hrest]⟩
      next =>
        have hcs : '{' :: rest = ('{' :: gap) ++ skipSpace rest := congrArg ('{' :: ·) hrest
        rw [hcs]
        refine (follows_readFields (depth + 1) fuel [] _).front ?_
        rintro _ ⟨body, hbody, rfl⟩
        simpa using IsPart.object (hbody.fields_lead hgap)
    next => exact follows_readLiteral reader cs

theorem follows_readItems : ∀ depth fuel done cs,
    Follows reader ClosesItems cs (readItems reader depth fuel done cs)
  | _, 0, _, _ =>
    follows_start ⟨_, .lastItem (IsPart.null.item_of_value (List.forall_mem_nil _)), rfl⟩ _
  | depth, fuel + 1, done, cs => by
    have hvalue := follows_readValue depth fuel cs
    rw [readItems]
    split
    next hread =>
      rw [hread] at hvalue
      refine hvalue.error fun text htext => ⟨[']'], text, ?_, rfl⟩
      simpa using IsPart.lastItem (htext.item_of_value (List.forall_mem_nil _))
    next item rest hread =>
      rw [hread] at hvalue
      obtain ⟨text, htext, rfl⟩ := hvalue
      split
      next more hskip =>
        refine Follows.behind hskip (follows_readItems depth fuel _ _) ?_
        rintro gap gap' _ hgap hgap' ⟨body, hbody, rfl⟩
        exact ⟨_, (htext.item_of_value hgap).moreItems (hbody.items_lead hgap'), by simp⟩
      next hskip =>
        exact follows_close hskip (fun gap hgap => ⟨_, .lastItem (htext.item_of_value hgap), rfl⟩) _
      next =>
        refine follows_fault (fun gap hgap => ⟨[']'], ?_⟩) _
        exact ⟨_, .lastItem (htext.item_of_value hgap), rfl⟩

theorem follows_readFields : ∀ depth fuel done cs,
    Follows reader ClosesFields cs (readFields reader depth fuel done cs)
  | _, 0, _, _ => follows_start (closesFields_null isQuoted_empty (List.forall_mem_nil _)) _
  | depth, fuel + 1, done, cs => by
    rw [readFields.eq_def]
    simp only
    split
    next body =>
      have hname := follows_readText reader body
      split
      next hread =>
        rw [hread] at hname
        refine hname.error fun name hquoted => ⟨[':', 'n', 'u', 'l', 'l', '}'], ?_⟩
        simpa using closesFields_null hquoted (List.forall_mem_nil _)
      next field behind hread =>
        rw [hread] at hname
        obtain ⟨name, hquoted, htext⟩ := hname
        rw [htext]
        split
        next item hcolon =>
          have hvalue := follows_readValue depth fuel (skipSpace item)
          split
          next hread =>
            rw [hread] at hvalue
            have hclosed : Follows reader (fun text => ∃ value, IsPart .value value ∧ text = value ++ ['}'])
                (skipSpace item) (.error _ : Read Json) :=
              hvalue.error fun text htext => ⟨['}'], text, htext, rfl⟩
            refine Follows.behind hcolon hclosed ?_
            rintro gap gap' _ hgap hgap' ⟨value, hvalue, rfl⟩
            exact ⟨_, .lastField (isPart_field hquoted hgap hgap' hvalue (List.forall_mem_nil _)),
              by simp⟩
          next read rest hread =>
            rw [hread] at hvalue
            obtain ⟨value, hvalue, hitem⟩ := hvalue
            obtain ⟨gap, hgap, hbehind⟩ := exists_gap behind
            obtain ⟨gap', hgap', hmore⟩ := exists_gap item
            have hfront : name ++ behind = name ++ gap ++ ':' :: gap' ++ value ++ rest := by
              rw [hbehind, hcolon, hmore, hitem]
              simp
            rw [hfront]
            split
            next more hskip =>
              refine Follows.behind hskip (follows_readFields depth fuel _ _) ?_
              rintro after lead _ hafter hlead ⟨body, hbody, rfl⟩
              have hfield := isPart_field hquoted hgap hgap' hvalue hafter
              exact ⟨_, hfield.moreFields (hbody.fields_lead hlead), by simp⟩
            next hskip =>
              refine follows_close hskip (fun after hafter => ?_) _
              exact ⟨_, .lastField (isPart_field hquoted hgap hgap' hvalue hafter), rfl⟩
            next =>
              refine follows_fault (fun after hafter => ⟨['}'], ?_⟩) _
              exact ⟨_, .lastField (isPart_field hquoted hgap hgap' hvalue hafter), rfl⟩
        next => exact follows_fault (fun gap hgap => ⟨_, closesFields_null hquoted hgap⟩) _
    next => exact follows_start (closesFields_null isQuoted_empty (List.forall_mem_nil _)) _

end

end

end BuildCommands.Json
