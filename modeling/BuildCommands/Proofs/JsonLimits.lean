import BuildCommands.Proofs.JsonGrammar

/-!
# Reading within limits

A reader with limits goes through a document as one without them does.  It reads what the other
reads if the value keeps the limits, and else refuses it; a document that is not JSON is at fault at
the same place, unless a limit is exceeded before that.

    value.fits reader 0    the value keeps the limits
    parse reader document = .ok value ↔
      parse (.free reader.surrogates) document = .ok value ∧ value.fits reader 0   (parse_eq_ok_iff)
-/

namespace BuildCommands.Json

/-! ## Values that keep the limits -/

section

variable (reader : Reader)

mutual

/-- The value keeps the limits where it stands in `depth` arrays and objects. -/
def fits (depth : Nat) : Json → Bool
  | .integer n => reader.digits?.all (n.natAbs < 10 ^ ·)
  | .array items => reader.admitsLevel depth && fitsItems (depth + 1) items
  | .object fields => reader.admitsLevel depth && fitsFields (depth + 1) fields
  | _ => true

def fitsItems (depth : Nat) : List Json → Bool
  | [] => true
  | item :: items => fits depth item && fitsItems depth items

def fitsFields (depth : Nat) : List (String × Json) → Bool
  | [] => true
  | field :: fields => fits depth field.2 && fitsFields depth fields

end

variable (depth : Nat)

@[simp] theorem fits_text (s : String) : fits reader depth (.text s) = true := by simp [fits]

theorem fits_array (items : List Json) : fits reader depth (.array items) =
    (reader.admitsLevel depth && items.all (fits reader (depth + 1))) := by
  have hitems : ∀ items, fitsItems reader (depth + 1) items =
      items.all (fits reader (depth + 1)) := by
    intro items
    induction items with
    | nil => rfl
    | cons item items ih => rw [fitsItems, ih, List.all_cons]
  rw [fits, hitems]

theorem fits_object (fields : List (String × Json)) : fits reader depth (.object fields) =
    (reader.admitsLevel depth && fields.all fun field => fits reader (depth + 1) field.2) := by
  have hfields : ∀ fields, fitsFields reader (depth + 1) fields =
      fields.all fun field => fits reader (depth + 1) field.2 := by
    intro fields
    induction fields with
    | nil => rfl
    | cons field fields ih => rw [fitsFields, ih, List.all_cons]
  rw [fits, hfields]

end

section

variable {reader : Reader} {depth : Nat}

theorem not_fits_array {items : List Json} {item : Json} (hmem : item ∈ items)
    (h : ¬fits reader (depth + 1) item = true) : ¬fits reader depth (.array items) = true := by
  rw [fits_array, Bool.and_eq_true, List.all_eq_true]
  exact fun hall => h (hall.2 item hmem)

theorem not_fits_object {fields : List (String × Json)} {field : String × Json}
    (hmem : field ∈ fields) (h : ¬fits reader (depth + 1) field.2 = true) :
    ¬fits reader depth (.object fields) = true := by
  rw [fits_object, Bool.and_eq_true, List.all_eq_true]
  exact fun hall => h (hall.2 field hmem)

end

/-- Three levels are always admitted. -/
theorem Reader.admitsLevel_of_lt (reader : Reader) {depth : Nat} (h : depth < 3) :
    reader.admitsLevel depth = true := by
  unfold Reader.admitsLevel
  cases hlevels : reader.levels? with
  | none => rfl
  | some levels =>
    have hroom := reader.levels_le levels hlevels
    simp only [Option.all_some, decide_eq_true_eq]
    omega

/-! ## Digits -/

/-- Digits read behind a number move it up by their places and fill these. -/
theorem foldl_digits_bounds {digits : List Char} (h : ∀ c ∈ digits, c.isDigit = true) (n : Nat) :
    n * 10 ^ digits.length ≤ digits.foldl (fun n c => 10 * n + (c.toNat - 0x30)) n ∧
      digits.foldl (fun n c => 10 * n + (c.toNat - 0x30)) n < (n + 1) * 10 ^ digits.length := by
  induction digits generalizing n with
  | nil => simp
  | cons c digits ih =>
    obtain ⟨hc, hdigits⟩ := List.forall_mem_cons.mp h
    have hrange := toNat_of_isDigit hc
    obtain ⟨hlow, hhigh⟩ := ih hdigits (10 * n + (c.toNat - 0x30))
    rw [List.foldl_cons, List.length_cons, Nat.pow_succ']
    constructor
    · refine Nat.le_trans ?_ hlow
      rw [← Nat.mul_assoc]
      exact Nat.mul_le_mul_right _ (by omega)
    · refine Nat.lt_of_lt_of_le hhigh ?_
      rw [← Nat.mul_assoc]
      exact Nat.mul_le_mul_right _ (by omega)

/-- The digits before a point are as many as the number they denote has. -/
theorem IsWhole.length_le_iff {whole : List Char} (h : IsWhole whole) {count : Nat}
    (hcount : 0 < count) : whole.length ≤ count ↔ ofDigits whole < 10 ^ count := by
  rcases h with rfl | ⟨⟨hne, hdigits⟩, hzero⟩
  · have hpos : 0 < 10 ^ count := Nat.pow_pos (by decide)
    exact iff_of_true hcount hpos
  obtain ⟨d, ds, rfl⟩ := List.exists_cons_of_ne_nil hne
  obtain ⟨hd, hds⟩ := List.forall_mem_cons.mp hdigits
  have hrange := toNat_of_isDigit hd
  have hfirst : d.toNat ≠ 0x30 := by
    intro heq
    have hd : d = '0' := Char.toNat_inj.mp heq
    simp [hd] at hzero
  obtain ⟨hlow, hhigh⟩ := foldl_digits_bounds hds (10 * 0 + (d.toNat - 0x30))
  have hvalue : ofDigits (d :: ds) =
      ds.foldl (fun n c => 10 * n + (c.toNat - 0x30)) (10 * 0 + (d.toNat - 0x30)) := rfl
  rw [← hvalue] at hlow hhigh
  rw [List.length_cons]
  constructor
  · intro hle
    calc ofDigits (d :: ds) < (10 * 0 + (d.toNat - 0x30) + 1) * 10 ^ ds.length := hhigh
      _ ≤ 10 * 10 ^ ds.length := Nat.mul_le_mul_right _ (by omega)
      _ = 10 ^ (ds.length + 1) := (Nat.pow_succ').symm
      _ ≤ 10 ^ count := Nat.pow_le_pow_right (by decide) hle
  · intro hlt
    have hpow : 10 ^ ds.length < 10 ^ count := by
      calc 10 ^ ds.length = 1 * 10 ^ ds.length := (Nat.one_mul _).symm
        _ ≤ (10 * 0 + (d.toNat - 0x30)) * 10 ^ ds.length :=
          Nat.mul_le_mul_right _ (by omega)
        _ ≤ ofDigits (d :: ds) := hlow
        _ < 10 ^ count := hlt
    exact (Nat.pow_lt_pow_iff_right (by decide)).mp hpow

/-- An integer keeps the limit of a reader exactly if its digits do. -/
theorem fits_integer_iff (reader : Reader) (depth : Nat) {whole : List Char} (h : IsWhole whole)
    (negative : Bool) :
    fits reader depth (.integer (if negative then -(ofDigits whole : Int) else ofDigits whole)) =
      reader.admitsDigits whole.length := by
  have hsize : (if negative then -(ofDigits whole : Int) else ofDigits whole).natAbs =
      ofDigits whole := by
    cases negative <;> simp
  rw [fits, hsize]
  unfold Reader.admitsDigits
  cases hdigits : reader.digits? with
  | none => rfl
  | some count =>
    simp only [Option.all_some, h.length_le_iff (reader.digits_pos count hdigits)]

/-! ## Results -/

/-- How a result within limits stands to the one without them: it is the same if what was read keeps
the limits, and else an excess; and a fault is the same unless there is an excess before it. -/
inductive Limited {α : Type} (P : α → Prop) : Except Failure α → Except Failure α → Prop
  | read {a : α} (h : P a) : Limited P (.ok a) (.ok a)
  | refused {a : α} (excess : Excess) (h : ¬P a) : Limited P (.error (.excess excess)) (.ok a)
  | failed (failure : Failure) : Limited P (.error failure) (.error failure)
  | sooner (excess : Excess) (failure : Failure) :
      Limited P (.error (.excess excess)) (.error failure)

namespace Limited

variable {α : Type} {P : α → Prop} {r r' : Except Failure α}

/-- An excess where nothing that keeps the limits could be read. -/
theorem of_excess (excess : Excess) (h : ∀ a, r' = .ok a → ¬P a) :
    Limited P (.error (.excess excess)) r' := by
  cases r' with
  | ok a => exact .refused excess (h a rfl)
  | error failure => exact .sooner excess failure

theorem eq_ok_iff (h : Limited P r r') {a : α} : r = .ok a ↔ r' = .ok a ∧ P a := by
  cases h with
  | read h =>
    constructor
    · rintro ⟨⟩
      exact ⟨rfl, h⟩
    · exact And.left
  | refused excess h =>
    refine iff_of_false nofun ?_
    rintro ⟨⟨⟩, ha⟩
    exact h ha
  | failed => exact iff_of_false nofun fun h => nomatch h.1
  | sooner => exact iff_of_false nofun fun h => nomatch h.1

theorem eq_fault (h : Limited P r r') {fault : Fault} {rest : List Char}
    (hr : r = .error (.fault fault rest)) : r' = .error (.fault fault rest) := by
  cases h with
  | failed => exact hr
  | _ => cases hr

theorem eq_error (h : Limited P r r') {failure : Failure} (hr : r' = .error failure) :
    r = .error failure ∨ ∃ excess, r = .error (.excess excess) := by
  cases h with
  | failed => exact Or.inl hr
  | sooner excess => exact Or.inr ⟨excess, rfl⟩
  | _ => cases hr

theorem eq_excess (h : Limited P r r') {a : α} (hr : r' = .ok a) (ha : ¬P a) :
    ∃ excess, r = .error (.excess excess) := by
  cases h with
  | read h =>
    cases hr
    exact absurd h ha
  | refused excess => exact ⟨excess, rfl⟩
  | _ => cases hr

end Limited

/-! ## Values -/

section

variable {reader : Reader} {depth fuel : Nat} {cs rest : List Char} {value : Json}

/-- An array that is read holds the items read before. -/
theorem exists_of_readItems_ok {done : List Json}
    (h : readItems reader depth fuel done cs = .ok (value, rest)) :
    ∃ items, value = .array (done.reverse ++ items) := by
  induction fuel generalizing done cs with
  | zero => cases h
  | succ fuel ih =>
    obtain ⟨item, ⟨more, -, hmore⟩ | ⟨-, rfl⟩⟩ := exists_of_readItems h
    · obtain ⟨items, rfl⟩ := ih hmore
      exact ⟨item :: items, by simp⟩
    · exact ⟨[item], rfl⟩

/-- An object that is read holds the fields read before. -/
theorem exists_of_readFields_ok {done : List (String × Json)}
    (h : readFields reader depth fuel done cs = .ok (value, rest)) :
    ∃ fields, value = .object (done.reverse ++ fields) := by
  induction fuel generalizing done cs with
  | zero => cases h
  | succ fuel ih =>
    obtain ⟨field, ⟨more, -, hmore⟩ | ⟨-, rfl⟩⟩ := exists_of_readFields h
    · obtain ⟨fields, rfl⟩ := ih hmore
      exact ⟨field :: fields, by simp⟩
    · exact ⟨[field], rfl⟩

/-- What begins with a bracket is an array, if it is anything. -/
theorem exists_array_of_readValue (h : readValue reader depth fuel ('[' :: cs) = .ok (value, rest)) :
    ∃ items, value = .array items := by
  cases fuel with
  | zero => cases h
  | succ fuel =>
    rw [readValue] at h
    split at h
    case isFalse => cases h
    split at h
    · cases h
      exact ⟨_, rfl⟩
    · obtain ⟨items, rfl⟩ := exists_of_readItems_ok h
      exact ⟨_, rfl⟩

/-- What begins with a brace is an object, if it is anything. -/
theorem exists_object_of_readValue
    (h : readValue reader depth fuel ('{' :: cs) = .ok (value, rest)) :
    ∃ fields, value = .object fields := by
  cases fuel with
  | zero => cases h
  | succ fuel =>
    rw [readValue] at h
    split at h
    case isFalse => cases h
    split at h
    · cases h
      exact ⟨_, rfl⟩
    · obtain ⟨fields, rfl⟩ := exists_of_readFields_ok h
      exact ⟨_, rfl⟩

end

section

variable (reader : Reader)

/-- What a reader makes of a value is limited by how deep the value stands. -/
def LimitedRead (depth : Nat) (r r' : Read Json) : Prop :=
  Limited (fun read => fits reader depth read.1 = true) r r'

theorem limited_readUnsigned (depth : Nat) (negative : Bool) (start cs : List Char) :
    LimitedRead reader depth (readUnsigned reader negative start cs)
      (readUnsigned (.free reader.surrogates) negative start cs) := by
  unfold readUnsigned
  split
  next => exact .failed _
  next whole afterWhole hne hwhole =>
    obtain ⟨hwhole, -⟩ := wholeDigits_eq hwhole hne
    split
    split
    split
    · have hfits := fits_integer_iff reader depth hwhole negative
      rw [if_pos (Reader.free_admitsDigits _ _)]
      split
      next hdigits => exact .read (hfits.trans hdigits)
      next hdigits => exact .refused _ (by rwa [hfits])
    · exact .read rfl

theorem limited_readLiteral (depth : Nat) (cs : List Char) :
    LimitedRead reader depth (readLiteral reader cs)
      (readLiteral (.free reader.surrogates) cs) := by
  unfold readLiteral
  split
  case h_7 => exact limited_readUnsigned reader depth true _ _
  case h_8 => exact limited_readUnsigned reader depth false _ _
  all_goals exact .read rfl

mutual

theorem limited_readValue : ∀ depth fuel cs, LimitedRead reader depth
    (readValue reader depth fuel cs) (readValue (.free reader.surrogates) depth fuel cs)
  | _, 0, _ => .failed _
  | depth, fuel + 1, cs => by
    cases hlevel : reader.admitsLevel depth with
    | true =>
      rw [readValue.eq_def, readValue.eq_def (.free _)]
      simp only [Reader.free_surrogates, Reader.free_admitsLevel, hlevel, if_true]
      split
      next =>
        split
        · exact .read rfl
        · exact .failed _
      next =>
        split
        · exact .read (by simp [fits_array, hlevel])
        · exact limited_readItems hlevel fuel [] _ rfl
      next =>
        split
        · exact .read (by simp [fits_object, hlevel])
        · exact limited_readFields hlevel fuel [] _ rfl
      next => exact limited_readLiteral reader depth cs
    | false =>
      -- neither an array nor an object may stand here
      rw [readValue.eq_def]
      simp only [hlevel, Bool.false_eq_true, if_false]
      split
      next =>
        rw [readValue, Reader.free_surrogates]
        split
        · exact .read rfl
        · exact .failed _
      next =>
        refine .of_excess _ fun read hread => ?_
        obtain ⟨items, hitems⟩ := exists_array_of_readValue hread
        simp [hitems, fits_array, hlevel]
      next =>
        refine .of_excess _ fun read hread => ?_
        obtain ⟨fields, hfields⟩ := exists_object_of_readValue hread
        simp [hfields, fits_object, hlevel]
      next hquote hbracket hbrace =>
        rw [readValue]
        · exact limited_readLiteral reader depth cs
        · exact hquote
        · exact hbracket
        · exact hbrace

theorem limited_readItems {depth : Nat} (hlevel : reader.admitsLevel depth = true) :
    ∀ fuel done cs, done.all (fits reader (depth + 1)) = true → LimitedRead reader depth
      (readItems reader (depth + 1) fuel done cs)
      (readItems (.free reader.surrogates) (depth + 1) fuel done cs)
  | 0, _, _, _ => .failed _
  | fuel + 1, done, cs, hdone => by
    have hvalue := limited_readValue (depth + 1) fuel cs
    rw [readItems, readItems]
    generalize readValue reader (depth + 1) fuel cs = r at hvalue
    generalize readValue (.free reader.surrogates) (depth + 1) fuel cs = r' at hvalue
    cases hvalue with
    | failed failure => exact .failed failure
    | sooner excess failure => exact .sooner excess failure
    | @read read hfits =>
      obtain ⟨value, rest⟩ := read
      have hall : (value :: done).all (fits reader (depth + 1)) = true := by
        rw [List.all_cons, hdone, Bool.and_true]
        exact hfits
      simp only
      split
      next => exact limited_readItems hlevel fuel (value :: done) _ hall
      next =>
        refine .read ?_
        rw [fits_array, hlevel, List.all_reverse, hall]
        rfl
      next => exact .failed _
    | @refused read excess hfits =>
      obtain ⟨value, rest⟩ := read
      refine .of_excess excess fun read hread => ?_
      simp only at hread
      split at hread
      next =>
        obtain ⟨items, hitems⟩ := exists_of_readItems_ok hread
        rw [hitems]
        exact not_fits_array (by simp) hfits
      next =>
        cases hread
        exact not_fits_array (by simp) hfits
      next => cases hread

theorem limited_readFields {depth : Nat} (hlevel : reader.admitsLevel depth = true) :
    ∀ fuel done cs, done.all (fun field => fits reader (depth + 1) field.2) = true →
      LimitedRead reader depth
        (readFields reader (depth + 1) fuel done cs)
        (readFields (.free reader.surrogates) (depth + 1) fuel done cs)
  | 0, _, _, _ => .failed _
  | fuel + 1, done, cs, hdone => by
    rw [readFields.eq_def, readFields.eq_def (.free _)]
    simp only [Reader.free_surrogates]
    split
    case h_2 => exact .failed _
    split
    next => exact .failed _
    next name behind hname =>
      split
      case h_2 => exact .failed _
      next item hcolon =>
        have hvalue := limited_readValue (depth + 1) fuel (skipSpace item)
        generalize readValue reader (depth + 1) fuel (skipSpace item) = r at hvalue
        generalize readValue (.free reader.surrogates) (depth + 1) fuel (skipSpace item) = r'
          at hvalue
        cases hvalue with
        | failed failure => exact .failed failure
        | sooner excess failure => exact .sooner excess failure
        | @read read hfits =>
          obtain ⟨value, rest⟩ := read
          have hall : ((name, value) :: done).all
              (fun field => fits reader (depth + 1) field.2) = true := by
            rw [List.all_cons, hdone, Bool.and_true]
            exact hfits
          simp only
          split
          next => exact limited_readFields hlevel fuel ((name, value) :: done) _ hall
          next =>
            refine .read ?_
            rw [fits_object, hlevel, List.all_reverse, hall]
            rfl
          next => exact .failed _
        | @refused read excess hfits =>
          obtain ⟨value, rest⟩ := read
          refine .of_excess excess fun read hread => ?_
          simp only at hread
          split at hread
          next =>
            obtain ⟨fields, hfields⟩ := exists_of_readFields_ok hread
            rw [hfields]
            exact @not_fits_object reader depth _ (name, value) (by simp) hfits
          next =>
            cases hread
            exact @not_fits_object reader depth _ (name, value) (by simp) hfits
          next => cases hread

end

/-! ## Documents -/

/-- What a reader makes of a document is limited by the value that the document denotes. -/
theorem limited_parse (document : List Char) :
    Limited (fun value => fits reader 0 value = true) (parse reader document)
      (parse (.free reader.surrogates) document) := by
  have hvalue := limited_readValue reader 0 (2 * document.length + 2) (skipSpace document)
  unfold parse
  split
  · exact .failed _
  generalize readValue reader 0 (2 * document.length + 2) (skipSpace document) = r at hvalue
  generalize readValue (.free reader.surrogates) 0 (2 * document.length + 2)
    (skipSpace document) = r' at hvalue
  cases hvalue with
  | failed failure => exact .failed failure
  | sooner excess failure => exact .sooner excess failure
  | read hfits =>
    simp only
    split
    · exact .read hfits
    · exact .failed _
  | refused excess hfits =>
    refine .of_excess excess fun value hread => ?_
    simp only at hread
    split at hread
    · cases hread
      exact hfits
    · cases hread

/-- A document is read within limits if it is read without them and its value keeps them. -/
theorem parse_eq_ok_iff {document : List Char} {value : Json} :
    parse reader document = .ok value ↔
      parse (.free reader.surrogates) document = .ok value ∧ fits reader 0 value = true :=
  (limited_parse reader document).eq_ok_iff

/-- A text of a value that keeps the limits is a document of the value. -/
theorem parse_of_fits {text : List Char} {value : Json} (h : SpellsItem text value)
    (hfits : fits reader 0 value = true) : parse reader text = .ok value :=
  (parse_eq_ok_iff reader).mpr ⟨parse_spells reader.surrogates h, hfits⟩

end

end BuildCommands.Json
