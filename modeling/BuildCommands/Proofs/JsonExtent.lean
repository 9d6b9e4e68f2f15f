import BuildCommands.Proofs.JsonReading

/-!
# The extent of a value

What has been read stays read when the document goes on.  Only a number could take more of it, and
only characters of the basic range; so behind a whole document no character beyond that range makes
another one, and a document that is cut at such a character is no document.

    readValue reader depth fuel cs = .ok (value, rest) →
      readValue reader depth fuel (cs ++ tail) = .ok (value, rest ++ tail)
    parse reader cs = .ok value → parse reader (cs ++ c :: tail) ≠ .ok value'
-/

namespace BuildCommands.Json

/-! ## Definitions -/

/-- Nothing stands in front that JSON knows outside a text. -/
def IsForeign (cs : List Char) : Prop := ∀ c ∈ cs.head?, 0x80 ≤ c.toNat

/-! ## White space and digits -/

theorem isForeign_cons {c : Char} (h : 0x80 ≤ c.toNat) (cs : List Char) : IsForeign (c :: cs) := by
  rintro d ⟨⟩
  exact h

section

variable {reader : Reader} {tail : List Char}

theorem takeWhile_append_foreign {p : Char → Bool} (hp : ∀ c, p c = true → c.toNat < 0x80)
    (h : IsForeign tail) (cs : List Char) :
    (cs ++ tail).takeWhile p = cs.takeWhile p ∧
      (cs ++ tail).dropWhile p = cs.dropWhile p ++ tail := by
  induction cs with
  | nil =>
    cases tail with
    | nil => exact ⟨rfl, rfl⟩
    | cons c tail =>
      have hc : p c = false := by
        rw [Bool.eq_false_iff]
        intro hc
        exact absurd (hp c hc) (Nat.not_lt.mpr (h c rfl))
      simp [hc]
  | cons c cs ih =>
    cases hc : p c with
    | true => simp [hc, ih]
    | false => simp [hc]

theorem skipSpace_append_foreign (h : IsForeign tail) (cs : List Char) :
    skipSpace (cs ++ tail) = skipSpace cs ++ tail := by
  refine (takeWhile_append_foreign ?_ h cs).2
  intro c hc
  simp only [isSpace, Bool.or_eq_true, beq_iff_eq] at hc
  rcases hc with ((rfl | rfl) | rfl) | rfl <;> decide

theorem spanDigits_append_foreign (h : IsForeign tail) (cs : List Char) :
    spanDigits (cs ++ tail) = ((spanDigits cs).1, (spanDigits cs).2 ++ tail) := by
  have hdigit : ∀ c : Char, c.isDigit = true → c.toNat < 0x80 := fun c hc => by
    have := toNat_of_isDigit hc
    omega
  obtain ⟨htake, hdrop⟩ := takeWhile_append_foreign hdigit h cs
  exact Prod.ext htake hdrop

/-! ## Numbers -/

theorem wholeDigits_append_foreign (h : IsForeign tail) (cs : List Char) :
    wholeDigits (cs ++ tail) = ((wholeDigits cs).1, (wholeDigits cs).2 ++ tail) := by
  fun_cases wholeDigits cs with
  | case1 rest => rfl
  | case2 hzero =>
    rw [wholeDigits, spanDigits_append_foreign h]
    rintro rest hrest
    cases cs with
    | nil => exact absurd (h '0' (by simp_all)) (by decide)
    | cons c cs => simp_all

theorem fraction_append_foreign (h : IsForeign tail) (cs : List Char) :
    fraction (cs ++ tail) = ((fraction cs).1, (fraction cs).2 ++ tail) := by
  fun_cases fraction cs with
  | case1 rest digits hspan =>
    rw [List.cons_append, fraction, spanDigits_append_foreign h, hspan]
  | case2 rest digits after hne hspan =>
    rw [List.cons_append, fraction, spanDigits_append_foreign h, hspan]
    cases digits with
    | nil => exact absurd rfl hne
    | cons d digits => rfl
  | case3 hpoint =>
    rw [fraction]
    rintro rest hrest
    cases cs with
    | nil => exact absurd (h '.' (by simp_all)) (by decide)
    | cons c cs => simp_all

theorem sign_append_foreign (h : IsForeign tail) (cs : List Char) :
    sign (cs ++ tail) = ((sign cs).1, (sign cs).2 ++ tail) := by
  fun_cases sign cs with
  | case1 rest => rfl
  | case2 rest => rfl
  | case3 =>
    cases cs with
    | cons c cs => rw [List.cons_append, sign] <;> simp_all
    | nil =>
      rw [sign]
      all_goals
        rintro rest rfl
        exact absurd (h _ rfl) (by decide)

theorem exponent_append_foreign (h : IsForeign tail) (cs : List Char) :
    exponent (cs ++ tail) = ((exponent cs).1, (exponent cs).2 ++ tail) := by
  have hsplit : ∀ rest mark after, sign rest = (mark, after) →
      sign (rest ++ tail) = (mark, after ++ tail) ∧
        spanDigits (after ++ tail) = ((spanDigits after).1, (spanDigits after).2 ++ tail) := by
    intro rest mark after hsign
    rw [sign_append_foreign h, hsign]
    exact ⟨rfl, spanDigits_append_foreign h after⟩
  fun_cases exponent cs with
  | case1 c rest hletter mark after hsign digits hspan =>
    obtain ⟨hmark, hdigits⟩ := hsplit rest mark after hsign
    rw [List.cons_append, exponent, if_pos hletter, hmark]
    simp only
    rw [hdigits, hspan]
  | case2 c rest hletter mark after hsign digits more hne hspan =>
    obtain ⟨hmark, hdigits⟩ := hsplit rest mark after hsign
    rw [List.cons_append, exponent, if_pos hletter, hmark]
    simp only
    rw [hdigits, hspan]
    cases digits with
    | nil => exact absurd rfl hne
    | cons d digits => rfl
  | case3 c rest hletter =>
    rw [List.cons_append, exponent, if_neg hletter]
  | case4 =>
    cases tail with
    | nil => rfl
    | cons c tail =>
      have hletter : ¬(c = 'e' ∨ c = 'E') := by
        rintro (rfl | rfl) <;> exact absurd (h _ rfl) (by decide)
      rw [List.nil_append, exponent, if_neg hletter]

/-- A number that was read stays as it is, wherever the reader began. -/
theorem readUnsigned_append_foreign (h : IsForeign tail) {negative : Bool}
    {start cs rest : List Char} {value : Json}
    (hread : readUnsigned reader negative start cs = .ok (value, rest)) (start' : List Char) :
    readUnsigned reader negative start' (cs ++ tail) = .ok (value, rest ++ tail) := by
  unfold readUnsigned at hread ⊢
  rw [wholeDigits_append_foreign h]
  generalize wholeDigits cs = parts at hread ⊢
  obtain ⟨whole, afterWhole⟩ := parts
  cases whole with
  | nil => cases hread
  | cons d ds =>
    simp only [fraction_append_foreign h, exponent_append_foreign h] at hread ⊢
    split at hread
    next hparts =>
      split at hread
      next hdigits =>
        cases hread
        rw [if_pos hparts, if_pos hdigits]
      next => cases hread
    next hparts =>
      cases hread
      rw [if_neg hparts]

theorem exists_cons_of_readUnsigned {negative : Bool} {start cs rest : List Char} {value : Json}
    (hread : readUnsigned reader negative start cs = .ok (value, rest)) :
    ∃ d ds, cs = d :: ds ∧ d.isDigit = true := by
  cases cs with
  | nil => cases hread
  | cons d ds =>
    refine ⟨d, ds, rfl, ?_⟩
    cases hd : d.isDigit with
    | true => rfl
    | false =>
      have hwhole : wholeDigits (d :: ds) = ([], d :: ds) := by
        rw [wholeDigits]
        · simp [spanDigits, hd]
        · rintro rest ⟨⟩
          cases hd
      rw [readUnsigned, hwhole] at hread
      cases hread

/-! ## Literals and texts -/

theorem readLiteral_append_foreign (h : IsForeign tail) {cs rest : List Char} {value : Json}
    (hread : readLiteral reader cs = .ok (value, rest)) :
    readLiteral reader (cs ++ tail) = .ok (value, rest ++ tail) := by
  unfold readLiteral at hread
  split at hread
  case h_7 cs _ =>
    obtain ⟨d, ds, rfl, hd⟩ := exists_cons_of_readUnsigned hread
    rw [List.cons_append, List.cons_append, readLiteral_minus _ hd]
    exact readUnsigned_append_foreign h hread _
  case h_8 =>
    obtain ⟨d, ds, rfl, hd⟩ := exists_cons_of_readUnsigned hread
    rw [List.cons_append, readLiteral_digit _ hd]
    exact readUnsigned_append_foreign h hread _
  all_goals
    cases hread
    rfl

theorem readPieces_append (start' : List Char) {start : List Char} {done pieces : List Piece}
    {cs rest : List Char} (hread : readPieces start done cs = .ok (pieces, rest)) :
    readPieces start' done (cs ++ tail) = .ok (pieces, rest ++ tail) := by
  fun_induction readPieces start done cs with
  | case1 => cases hread
  | case2 => cases hread; rfl
  | case3 done a b c d next rest code hcode ih =>
    exact (readPieces_unit start' done hcode (List.cons_ne_nil _ _)).trans (ih hread)
  | case7 done c rest _ _ e hescape ih =>
    exact (readPieces_short start' done hescape).trans (ih hread)
  | case10 done c rest hquote _ _ hlone hescape hcontrol ih =>
    have hback : c ≠ '\\' := by
      rintro rfl
      cases rest with
      | nil => exact hlone rfl rfl
      | cons e rest => exact hescape e rest rfl rfl
    exact (readPieces_raw start' done (Nat.not_lt.mp hcontrol) hquote hback).trans (ih hread)
  | _ => cases hread

theorem readText_append {s : Surrogates} {cs rest : List Char} {value : String}
    (hread : readText s cs = .ok (value, rest)) :
    readText s (cs ++ tail) = .ok (value, rest ++ tail) := by
  unfold readText at hread ⊢
  split at hread
  next pieces after hpieces =>
    cases hread
    rw [readPieces_append _ hpieces]
  next => cases hread

/-! ## Values -/

/-- A foreign tail does not put a character of the basic range in front. -/
theorem head?_skipSpace_append (h : IsForeign tail) {c : Char} (hc : c.toNat < 0x80)
    {cs : List Char} (hcs : ∀ rest, skipSpace cs ≠ c :: rest) :
    (skipSpace (cs ++ tail)).head? ≠ some c := by
  rw [skipSpace_append_foreign h]
  cases hskip : skipSpace cs with
  | nil =>
    intro htail
    exact absurd (h c htail) (Nat.not_le.mpr hc)
  | cons d ds =>
    rintro ⟨⟩
    exact hcs ds hskip

/-- How the items of an array are read: the first, and then the others or the end. -/
theorem exists_of_readItems {depth fuel : Nat} {done : List Json} {cs rest : List Char}
    {value : Json} (hread : readItems reader depth (fuel + 1) done cs = .ok (value, rest)) :
    ∃ item, (∃ more, ReadsItem reader depth fuel cs (',' :: more) item ∧
        readItems reader depth fuel (item :: done) (skipSpace more) = .ok (value, rest)) ∨
      ReadsItem reader depth fuel cs (']' :: rest) item ∧ value = .array (done.reverse ++ [item]) := by
  rw [readItems] at hread
  split at hread
  next => cases hread
  next item after hitem =>
    split at hread
    next more hskip => exact ⟨item, .inl ⟨more, ⟨after, hitem, hskip⟩, hread⟩⟩
    next hskip =>
      cases hread
      exact ⟨item, .inr ⟨⟨after, hitem, hskip⟩, by rw [List.reverse_cons]⟩⟩
    next => cases hread

theorem exists_of_readFields {depth fuel : Nat} {done : List (String × Json)}
    {cs rest : List Char} {value : Json}
    (hread : readFields reader depth (fuel + 1) done cs = .ok (value, rest)) :
    ∃ field, (∃ more, ReadsField reader depth fuel cs (',' :: more) field ∧
        readFields reader depth fuel (field :: done) (skipSpace more) = .ok (value, rest)) ∨
      ReadsField reader depth fuel cs ('}' :: rest) field ∧ value = .object (done.reverse ++ [field]) := by
  rw [readFields.eq_def] at hread
  simp only at hread
  split at hread
  next body =>
    split at hread
    next => cases hread
    next name behind hname =>
      split at hread
      next item hcolon =>
        split at hread
        next => cases hread
        next value after hvalue =>
          have hfield : ∀ {tail}, skipSpace after = tail →
              ReadsField reader depth fuel ('"' :: body) tail (name, value) :=
            fun hskip => ⟨body, behind, item, rfl, hname, hcolon, after, hvalue, hskip⟩
          split at hread
          next more hskip => exact ⟨(name, value), .inl ⟨more, hfield hskip, hread⟩⟩
          next hskip =>
            cases hread
            exact ⟨(name, value), .inr ⟨hfield hskip, by rw [List.reverse_cons]⟩⟩
          next => cases hread
      next => cases hread
  next => cases hread

section

variable {depth fuel fuel' : Nat} {cs behind : List Char}

theorem ReadsItem.append_foreign (h : IsForeign tail)
    (hreads : ∀ {cs rest value}, readValue reader depth fuel cs = .ok (value, rest) →
      readValue reader depth fuel' (cs ++ tail) = .ok (value, rest ++ tail))
    {value : Json} (hitem : ReadsItem reader depth fuel cs behind value) :
    ReadsItem reader depth fuel' (cs ++ tail) (behind ++ tail) value := by
  obtain ⟨rest, hread, rfl⟩ := hitem
  exact ⟨rest ++ tail, hreads hread, skipSpace_append_foreign h rest⟩

theorem ReadsField.append_foreign (h : IsForeign tail)
    (hreads : ∀ {cs rest value}, readValue reader depth fuel cs = .ok (value, rest) →
      readValue reader depth fuel' (cs ++ tail) = .ok (value, rest ++ tail))
    {field : String × Json} (hfield : ReadsField reader depth fuel cs behind field) :
    ReadsField reader depth fuel' (cs ++ tail) (behind ++ tail) field := by
  obtain ⟨body, after, item, rfl, hname, hcolon, hitem⟩ := hfield
  refine ⟨body ++ tail, after ++ tail, item ++ tail, rfl, readText_append hname, ?_, ?_⟩
  · rw [skipSpace_append_foreign h, hcolon, List.cons_append]
  · rw [skipSpace_append_foreign h]
    exact hitem.append_foreign h hreads

end

mutual

/-- What was read as a value is read as it again, with more fuel and before any foreign tail. -/
theorem readValue_append_foreign (h : IsForeign tail) (more : Nat) :
    ∀ depth fuel {cs rest value}, readValue reader depth fuel cs = .ok (value, rest) →
      readValue reader depth (fuel + more) (cs ++ tail) = .ok (value, rest ++ tail)
  | _, 0, _, _, _, hread => by cases hread
  | depth, fuel + 1, cs, rest, value, hread => by
    rw [Nat.add_right_comm]
    rw [readValue.eq_def] at hread
    simp only at hread
    split at hread
    next cs =>
      split at hread
      next hname =>
        cases hread
        rw [List.cons_append, readValue, readText_append hname]
      next => cases hread
    next cs =>
      split at hread
      case isFalse => cases hread
      next hlevel =>
        split at hread
        next hskip =>
          cases hread
          rw [List.cons_append, readValue, if_pos hlevel, skipSpace_append_foreign h, hskip]
          rfl
        next hskip =>
          have hhead := head?_skipSpace_append h (by decide) hskip
          rw [List.cons_append, readValue_array hlevel hhead, skipSpace_append_foreign h]
          exact readItems_append_foreign h more (depth + 1) fuel hread
    next cs =>
      split at hread
      case isFalse => cases hread
      next hlevel =>
        split at hread
        next hskip =>
          cases hread
          rw [List.cons_append, readValue, if_pos hlevel, skipSpace_append_foreign h, hskip]
          rfl
        next hskip =>
          have hhead := head?_skipSpace_append h (by decide) hskip
          rw [List.cons_append, readValue_object hlevel hhead, skipSpace_append_foreign h]
          exact readFields_append_foreign h more (depth + 1) fuel hread
    next hquote hbracket hbrace =>
      cases cs with
      | nil => cases hread
      | cons c cs =>
        rw [List.cons_append, readValue_literal]
        · exact readLiteral_append_foreign h hread
        all_goals
          rintro rfl
          simp_all

theorem readItems_append_foreign (h : IsForeign tail) (more : Nat) :
    ∀ depth fuel {done cs rest value}, readItems reader depth fuel done cs = .ok (value, rest) →
      readItems reader depth (fuel + more) done (cs ++ tail) = .ok (value, rest ++ tail)
  | _, 0, _, _, _, _, hread => by cases hread
  | depth, fuel + 1, done, cs, rest, value, hread => by
    have hreads := @readValue_append_foreign h more depth fuel
    rw [Nat.add_right_comm]
    obtain ⟨item, ⟨next, hitem, hread⟩ | ⟨hitem, rfl⟩⟩ := exists_of_readItems hread
    · have hitem' : ReadsItem reader depth (fuel + more) (cs ++ tail) (',' :: (next ++ tail)) item :=
        hitem.append_foreign h hreads
      rw [readItems_comma hitem', skipSpace_append_foreign h]
      exact readItems_append_foreign h more depth fuel hread
    · exact readItems_close (hitem.append_foreign h hreads) done

theorem readFields_append_foreign (h : IsForeign tail) (more : Nat) :
    ∀ depth fuel {done cs rest value}, readFields reader depth fuel done cs = .ok (value, rest) →
      readFields reader depth (fuel + more) done (cs ++ tail) = .ok (value, rest ++ tail)
  | _, 0, _, _, _, _, hread => by cases hread
  | depth, fuel + 1, done, cs, rest, value, hread => by
    have hreads := @readValue_append_foreign h more depth fuel
    rw [Nat.add_right_comm]
    obtain ⟨field, ⟨next, hfield, hread⟩ | ⟨hfield, rfl⟩⟩ := exists_of_readFields hread
    · have hfield' : ReadsField reader depth (fuel + more) (cs ++ tail) (',' :: (next ++ tail)) field :=
        hfield.append_foreign h hreads
      rw [readFields_comma hfield', skipSpace_append_foreign h]
      exact readFields_append_foreign h more depth fuel hread
    · exact readFields_close (hfield.append_foreign h hreads) done

end

/-- A document is none any more when something foreign stands behind it. -/
theorem parse_append_foreign (h : IsForeign tail) (hne : tail ≠ []) {cs : List Char} {value : Json}
    (hparse : parse reader cs = .ok value) :
    parse reader (cs ++ tail) = .error (.fault .extraData tail) := by
  unfold parse at hparse ⊢
  split at hparse
  · cases hparse
  next hmark =>
    split at hparse
    · cases hparse
    next read rest hread =>
      split at hparse
      next hrest =>
        have hlength : 2 * (cs ++ tail).length + 2 = 2 * cs.length + 2 + 2 * tail.length := by
          rw [List.length_append]
          omega
        have hmark' : (cs ++ tail).head? ≠ some (Char.ofNat 0xfeff) := by
          cases cs with
          | nil => cases hread
          | cons c cs => exact hmark
        have hbehind : skipSpace (rest ++ tail) = tail := by
          rw [skipSpace_append_foreign h, hrest, List.nil_append]
        rw [if_neg hmark', skipSpace_append_foreign h, hlength,
          readValue_append_foreign h _ _ _ hread]
        simp only [hbehind]
      next => cases hparse

end

end BuildCommands.Json
