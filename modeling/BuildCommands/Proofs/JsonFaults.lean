import BuildCommands.Proofs.JsonDocuments

/-!
# The line of a fault

A line feed of a document stands between its parts.  So where characters begin a document with a
line feed in it, the reader comes past that line feed, whatever follows it: a fault is found on the
last line up to which the characters still begin a document.

    IsDocument (front ++ '\n' :: tail) →
      parse (.free s) (front ++ '\n' :: more) = .error (.fault fault rest) →
        rest.length ≤ more.length                                             (fault_past_lineFeed)
-/

namespace BuildCommands.Json

/-! ## What a reader leaves -/

/-- What a reader leaves is no longer than this, white space in front apart. -/
def Leaves {α : Type} (n : Nat) : Read α → Prop
  | .ok (_, rest) => (skipSpace rest).length ≤ n
  | .error (.fault _ rest) => rest.length ≤ n
  | .error (.excess _) => True

theorem length_skipSpace_le (cs : List Char) : (skipSpace cs).length ≤ cs.length :=
  (List.dropWhile_sublist _).length_le

section

variable {α : Type} {n : Nat}

theorem Leaves.mono {m : Nat} {r : Read α} (h : Leaves n r) (hle : n ≤ m) : Leaves m r := by
  cases r with
  | ok _ => exact Nat.le_trans h hle
  | error failure =>
    cases failure with
    | fault => exact Nat.le_trans h hle
    | excess => exact trivial

/-- What follows the grammar leaves no more than there was. -/
theorem Follows.leaves {reader : Reader} {P : List Char → Prop} {cs : List Char} {r : Read α}
    (h : Follows reader P cs r) : Leaves cs.length r := by
  cases r with
  | ok read =>
    obtain ⟨text, -, rfl⟩ := h
    exact Nat.le_trans (length_skipSpace_le _) (by simp)
  | error failure =>
    cases failure with
    | excess => exact trivial
    | fault fault rest =>
      obtain ⟨before, _, -, rfl⟩ := h
      exact (by simp : rest.length ≤ (before ++ rest).length)

end

section

variable {reader : Reader} {n depth fuel : Nat} {cs : List Char}

/-- What is left behind an item is not looked at again. -/
theorem leaves_readItems (h : Leaves n (readValue reader depth fuel cs)) (done : List Json) :
    Leaves n (readItems reader depth (fuel + 1) done cs) := by
  rw [readItems]
  split
  next hread =>
    rw [hread] at h
    exact h
  next value rest hread =>
    rw [hread] at h
    have hrest : (skipSpace rest).length ≤ n := h
    split
    next more hskip =>
      rw [hskip, List.length_cons] at hrest
      have hmore := length_skipSpace_le more
      exact (follows_readItems reader depth fuel _ _).leaves.mono (by omega)
    next more hskip =>
      rw [hskip, List.length_cons] at hrest
      have hmore := length_skipSpace_le more
      exact (by omega : (skipSpace more).length ≤ n)
    next => exact hrest

/-- What is left behind a field is not looked at again. -/
theorem leaves_readFields {body behind item : List Char} {name : String}
    (hname : readText reader.surrogates body = .ok (name, behind))
    (hcolon : skipSpace behind = ':' :: item)
    (h : Leaves n (readValue reader depth fuel (skipSpace item))) (done : List (String × Json)) :
    Leaves n (readFields reader depth (fuel + 1) done ('"' :: body)) := by
  rw [readFields, hname]
  simp only [hcolon]
  split
  next hread =>
    rw [hread] at h
    exact h
  next value rest hread =>
    rw [hread] at h
    have hrest : (skipSpace rest).length ≤ n := h
    split
    next more hskip =>
      rw [hskip, List.length_cons] at hrest
      have hmore := length_skipSpace_le more
      exact (follows_readFields reader depth fuel _ _).leaves.mono (by omega)
    next more hskip =>
      rw [hskip, List.length_cons] at hrest
      have hmore := length_skipSpace_le more
      exact (by omega : (skipSpace more).length ≤ n)
    next => exact hrest

/-- What is left behind a name is not looked at again. -/
theorem leaves_readFields_name {body behind : List Char} {name : String}
    (hname : readText reader.surrogates body = .ok (name, behind))
    (h : (skipSpace behind).length ≤ n) (done : List (String × Json)) :
    Leaves n (readFields reader depth (fuel + 1) done ('"' :: body)) := by
  cases hskip : skipSpace behind with
  | nil =>
    rw [readFields, hname]
    simp only [hskip]
    exact Nat.zero_le n
  | cons c item =>
    rw [hskip, List.length_cons] at h
    by_cases hc : c = ':'
    · subst hc
      have hitem := length_skipSpace_le item
      exact leaves_readFields hname hskip
        ((follows_readValue reader depth fuel _).leaves.mono (by omega)) done
    · rw [readFields, hname]
      simp only [hskip]
      split
      next heq =>
        cases heq
        exact absurd rfl hc
      next => exact h

end

/-! ## Line feeds -/

/-- A line feed stands in the first of two parts or in the second. -/
theorem lineFeed_append {a b front tail : List Char} (h : a ++ b = front ++ '\n' :: tail) :
    (∃ more, a = front ++ '\n' :: more) ∨ ∃ between, front = a ++ between ∧
      b = between ++ '\n' :: tail := by
  rcases List.append_eq_append_iff.mp h with ⟨between, hfront, hb⟩ | ⟨between, ha, htail⟩
  · exact Or.inr ⟨between, hfront, hb⟩
  · cases between with
    | nil => exact Or.inr ⟨[], by rw [ha, List.append_nil, List.append_nil], htail.symm⟩
    | cons c between =>
      obtain ⟨rfl, -⟩ := List.cons.inj htail
      exact Or.inl ⟨between, ha⟩

/-- A line feed stands on one side of a character that is none. -/
theorem lineFeed_append_cons {a b front tail : List Char} {c : Char}
    (h : a ++ c :: b = front ++ '\n' :: tail) (hc : c ≠ '\n') :
    (∃ more, a = front ++ '\n' :: more) ∨ ∃ between, front = a ++ c :: between ∧
      b = between ++ '\n' :: tail := by
  rcases lineFeed_append h with hfirst | ⟨between, hfront, hb⟩
  · exact Or.inl hfirst
  · cases between with
    | nil => exact absurd (List.cons.inj hb).1 hc
    | cons d between =>
      obtain ⟨rfl, hb'⟩ := List.cons.inj hb
      exact Or.inr ⟨between, hfront, hb'⟩

/-- A line feed between brackets. -/
theorem lineFeed_between {body front tail : List Char} {c d : Char}
    (h : c :: (body ++ [d]) = front ++ '\n' :: tail) (hc : c ≠ '\n') (hd : d ≠ '\n') :
    ∃ between more, front = c :: between ∧ body = between ++ '\n' :: more := by
  cases front with
  | nil => exact absurd (List.cons.inj h).1 hc
  | cons b front =>
    obtain ⟨rfl, hinner⟩ := List.cons.inj h
    rcases lineFeed_append_cons hinner hd with ⟨more, hbody⟩ | ⟨between, -, hnil⟩
    · exact ⟨front, more, rfl, hbody⟩
    · simp at hnil

theorem not_mem_of_digits {digits : List Char} (h : ∀ c ∈ digits, c.isDigit = true) :
    '\n' ∉ digits :=
  fun hmem => absurd (h _ hmem) (by decide)

/-- A number does not go over a line feed. -/
theorem lineFeed_not_mem_number {negative : Bool} {whole decimals power : List Char}
    (hwhole : IsWhole whole) (hdecimals : IsFraction decimals) (hpower : IsExponent power) :
    '\n' ∉ minus negative ++ (whole ++ (decimals ++ power)) := by
  simp only [List.mem_append, not_or]
  refine ⟨by cases negative <;> decide, ?_, ?_, ?_⟩
  · rcases hwhole with rfl | ⟨⟨-, hdigits⟩, -⟩
    · decide
    · exact not_mem_of_digits hdigits
  · rcases hdecimals with rfl | ⟨digits, ⟨-, hdigits⟩, rfl⟩
    · exact List.not_mem_nil
    · exact List.not_mem_cons_of_ne_of_not_mem (by decide) (not_mem_of_digits hdigits)
  · rcases hpower with rfl | ⟨letter, mark, digits, hletter, hmark, ⟨-, hdigits⟩, rfl⟩
    · exact List.not_mem_nil
    · have hmarks : ∀ mark ∈ [[], ['+'], ['-']], '\n' ∉ mark := by decide
      have hne : '\n' ≠ letter := by rcases hletter with rfl | rfl <;> decide
      refine List.not_mem_cons_of_ne_of_not_mem hne ?_
      exact List.not_mem_append (hmarks mark hmark) (not_mem_of_digits hdigits)

/-- A text does not go over a line feed. -/
theorem IsQuoted.lineFeed_not_mem {text : List Char} (h : IsQuoted text) : '\n' ∉ text := by
  obtain ⟨pieces, hpieces, rfl⟩ := h
  have hbody : '\n' ∉ pieces.flatten := by
    intro hmem
    obtain ⟨piece, hpiece, hmem⟩ := List.mem_flatten.mp hmem
    have hcontrol : 0x20 ≤ '\n'.toNat := by
      cases hpieces piece hpiece with
      | raw hcontrol =>
        obtain rfl := List.mem_singleton.mp hmem
        exact hcontrol
      | short h =>
        rcases List.mem_cons.mp hmem with hmem | hmem
        · cases hmem
        · obtain rfl := List.mem_singleton.mp hmem
          exact le_of_shortEscape? h
      | unit h => exact le_of_mem_unit h hmem
    exact absurd hcontrol (by decide)
  simpa using hbody

/-- Behind a front that is not all white space what is skipped is decided. -/
theorem skipSpace_front (front : List Char) : IsGap front ∨
    ∃ c cs, (c :: cs).length ≤ front.length ∧
      ∀ tail, skipSpace (front ++ tail) = c :: (cs ++ tail) := by
  obtain ⟨gap, hgap, hfront⟩ := exists_gap front
  cases hskip : skipSpace front with
  | nil =>
    rw [hskip, List.append_nil] at hfront
    exact Or.inl (hfront ▸ hgap)
  | cons c cs =>
    rw [hskip] at hfront
    have hc : isSpace c = false := by
      have hhead := List.head?_dropWhile_not isSpace front
      rw [← skipSpace, hskip] at hhead
      simpa using hhead
    refine Or.inr ⟨c, cs, by rw [hfront]; simp, fun tail => ?_⟩
    rw [hfront, List.append_assoc, skipSpace_gap hgap, List.cons_append, skipSpace_cons hc]

/-- A line feed in white space is skipped with it. -/
theorem skipSpace_lineFeed {gap : List Char} (h : IsGap gap) (more : List Char) :
    skipSpace (gap ++ '\n' :: more) = skipSpace more := by
  rw [skipSpace_gap h]
  rfl

/-! ## Parts -/

section

variable (s : Surrogates)

/-- Where a part has a line feed, what its reader leaves lies behind it, whatever that is. -/
def Passes : Part → List Char → Prop
  | .value, cs => ∀ front tail, cs = front ++ '\n' :: tail →
    ∀ depth fuel more, 2 * front.length ≤ fuel + 2 →
      Leaves more.length (readValue (.free s) depth (fuel + 1) (front ++ '\n' :: more))
  | .item, cs => ∀ front tail, cs = front ++ '\n' :: tail →
    ∀ depth fuel more, 2 * front.length ≤ fuel + 2 →
      Leaves more.length (readValue (.free s) depth (fuel + 1) (skipSpace (front ++ '\n' :: more)))
  | .items, cs => ∀ front tail, cs = front ++ '\n' :: tail →
    ∀ depth fuel done more, 2 * front.length ≤ fuel + 2 →
      Leaves more.length
        (readItems (.free s) depth (fuel + 2) done (skipSpace (front ++ '\n' :: more)))
  | .field, cs | .fields, cs => ∀ front tail, cs = front ++ '\n' :: tail →
    ∀ depth fuel done more, 2 * front.length ≤ fuel + 2 →
      Leaves more.length
        (readFields (.free s) depth (fuel + 2) done (skipSpace (front ++ '\n' :: more)))

theorem passes_of_not_mem {cs : List Char} (h : '\n' ∉ cs) : Passes s .value cs := by
  rintro front tail rfl
  exact absurd (by simp) h

end

theorem endsNumber_lineFeed (cs : List Char) : EndsNumber ('\n' :: cs) := by
  rintro c ⟨⟩
  decide

section

variable {reader : Reader} {n depth fuel : Nat} {cs : List Char}

theorem leaves_readValue_array (hempty : ∀ rest, skipSpace cs = ']' :: rest → rest.length ≤ n)
    (h : Leaves n (readItems reader (depth + 1) fuel [] (skipSpace cs))) :
    Leaves n (readValue reader depth (fuel + 1) ('[' :: cs)) := by
  rw [readValue]
  split
  case isFalse => exact trivial
  split
  next rest hskip => exact Nat.le_trans (length_skipSpace_le rest) (hempty rest hskip)
  next => exact h

theorem leaves_readValue_object (hempty : ∀ rest, skipSpace cs = '}' :: rest → rest.length ≤ n)
    (h : Leaves n (readFields reader (depth + 1) fuel [] (skipSpace cs))) :
    Leaves n (readValue reader depth (fuel + 1) ('{' :: cs)) := by
  rw [readValue]
  split
  case isFalse => exact trivial
  split
  next rest hskip => exact Nat.le_trans (length_skipSpace_le rest) (hempty rest hskip)
  next => exact h

/-- A line feed behind the bracket of an array, white space apart. -/
theorem leaves_array_gap {gap : List Char} (hgap : IsGap gap) (depth fuel : Nat)
    (more : List Char) :
    Leaves more.length (readValue reader depth (fuel + 1) ('[' :: (gap ++ '\n' :: more))) := by
  have hmore := length_skipSpace_le more
  refine leaves_readValue_array (fun rest hskip => ?_) ?_
  · rw [skipSpace_lineFeed hgap] at hskip
    rw [hskip, List.length_cons] at hmore
    exact Nat.le_of_succ_le hmore
  · rw [skipSpace_lineFeed hgap]
    exact (follows_readItems reader _ fuel _ _).leaves.mono hmore

/-- A line feed behind the brace of an object, white space apart. -/
theorem leaves_object_gap {gap : List Char} (hgap : IsGap gap) (depth fuel : Nat)
    (more : List Char) :
    Leaves more.length (readValue reader depth (fuel + 1) ('{' :: (gap ++ '\n' :: more))) := by
  have hmore := length_skipSpace_le more
  refine leaves_readValue_object (fun rest hskip => ?_) ?_
  · rw [skipSpace_lineFeed hgap] at hskip
    rw [hskip, List.length_cons] at hmore
    exact Nat.le_of_succ_le hmore
  · rw [skipSpace_lineFeed hgap]
    exact (follows_readFields reader _ fuel _ _).leaves.mono hmore

end

section

variable {s : Surrogates}

theorem passes_array {body : List Char} (h : IsPart .items body) (ih : Passes s .items body) :
    Passes s .value ('[' :: (body ++ [']'])) := by
  intro front tail heq depth fuel more hf
  obtain ⟨between, rest, rfl, hbody⟩ := lineFeed_between heq (by decide) (by decide)
  rcases skipSpace_front between with hgap | ⟨c, cs, hlength, hskip⟩
  · exact leaves_array_gap hgap depth fuel more
  obtain ⟨fuel, rfl⟩ : ∃ n, fuel = n + 2 := ⟨fuel - 2, by simp at hf hlength; omega⟩
  have hfirst : c ≠ ']' := by
    have hhead := h.head?_items []
    rw [hbody, List.append_nil, hskip] at hhead
    simpa using hhead
  refine leaves_readValue_array (fun rest hempty => ?_) ?_
  · have hhead := (hskip ('\n' :: more)).symm.trans hempty
    exact absurd (List.cons.inj hhead).1 hfirst
  · exact ih between rest hbody (depth + 1) fuel [] more (by simp at hf; omega)

theorem passes_object {body : List Char} (h : IsPart .fields body) (ih : Passes s .fields body) :
    Passes s .value ('{' :: (body ++ ['}'])) := by
  intro front tail heq depth fuel more hf
  obtain ⟨between, rest, rfl, hbody⟩ := lineFeed_between heq (by decide) (by decide)
  rcases skipSpace_front between with hgap | ⟨c, cs, hlength, hskip⟩
  · exact leaves_object_gap hgap depth fuel more
  obtain ⟨fuel, rfl⟩ : ∃ n, fuel = n + 2 := ⟨fuel - 2, by simp at hf hlength; omega⟩
  have hfirst : c ≠ '}' := by
    have hhead := h.head?_fields []
    rw [hbody, List.append_nil, hskip] at hhead
    simpa using hhead
  refine leaves_readValue_object (fun rest hempty => ?_) ?_
  · have hhead := (hskip ('\n' :: more)).symm.trans hempty
    exact absurd (List.cons.inj hhead).1 hfirst
  · exact ih between rest hbody (depth + 1) fuel [] more (by simp at hf; omega)

theorem passes_item {before text after : List Char} (hbefore : IsGap before)
    (h : IsPart .value text) (hafter : IsGap after) (ih : Passes s .value text) :
    Passes s .item (before ++ (text ++ after)) := by
  intro front tail heq depth fuel more hf
  rcases lineFeed_append heq with ⟨rest, rfl⟩ | ⟨between, rfl, hrest⟩
  · -- in the white space in front
    have hgap : IsGap front := (List.forall_mem_append.mp hbefore).1
    rw [skipSpace_lineFeed hgap]
    exact (follows_readValue _ depth _ _).leaves.mono (length_skipSpace_le more)
  obtain ⟨c, cs, rfl, hspace, -⟩ := h.exists_cons
  rcases lineFeed_append hrest with ⟨rest, htext⟩ | ⟨last, rfl, rfl⟩
  · -- in the value
    obtain ⟨ds, rfl⟩ : ∃ ds, between = c :: ds := by
      cases between with
      | nil =>
        obtain ⟨rfl, -⟩ := List.cons.inj htext
        cases hspace
      | cons d ds =>
        obtain ⟨rfl, -⟩ := List.cons.inj htext
        exact ⟨ds, rfl⟩
    have hvalue := ih (c :: ds) rest htext depth fuel more (by simp at hf ⊢; omega)
    rwa [List.append_assoc, skipSpace_gap hbefore, List.cons_append, skipSpace_cons hspace]
  · -- in the white space behind
    have hgap : IsGap last := (List.forall_mem_append.mp hafter).1
    obtain ⟨value, hread⟩ := h.accepted s depth fuel (last ++ '\n' :: more) (by simp at hf ⊢; omega)
      (endsNumber_gap hgap (endsNumber_lineFeed more))
    rw [List.append_assoc, skipSpace_gap hbefore, List.append_assoc, List.cons_append,
      skipSpace_cons hspace, ← List.cons_append, hread]
    show (skipSpace (last ++ '\n' :: more)).length ≤ more.length
    rw [skipSpace_lineFeed hgap]
    exact length_skipSpace_le more

theorem passes_field {before name behind item : List Char} (hbefore : IsGap before)
    (hname : IsQuoted name) (hbehind : IsGap behind) (ih : Passes s .item item) :
    Passes s .field (before ++ (name ++ (behind ++ ':' :: item))) := by
  intro front tail heq depth fuel done more hf
  rcases lineFeed_append heq with ⟨rest, rfl⟩ | ⟨between, rfl, hrest⟩
  · -- in the white space in front
    have hgap : IsGap front := (List.forall_mem_append.mp hbefore).1
    rw [skipSpace_lineFeed hgap]
    exact (follows_readFields _ depth _ _ _).leaves.mono (length_skipSpace_le more)
  rcases lineFeed_append hrest with ⟨rest, htext⟩ | ⟨last, rfl, hvalue⟩
  · exact absurd (by rw [htext]; simp) hname.lineFeed_not_mem
  -- the name is read whole
  obtain ⟨body, read, hbody, hread⟩ := hname.exists_readText s (last ++ '\n' :: more)
  have hskip : skipSpace (before ++ (name ++ last) ++ '\n' :: more) = '"' :: body := by
    rw [List.append_assoc, skipSpace_gap hbefore, List.append_assoc, hbody,
      skipSpace_cons (by decide)]
  rw [hskip]
  rcases lineFeed_append_cons hvalue (by decide) with ⟨rest, rfl⟩ | ⟨value, rfl, hitem⟩
  · -- in the white space behind the name
    have hgap : IsGap last := (List.forall_mem_append.mp hbehind).1
    refine leaves_readFields_name hread ?_ done
    rw [skipSpace_lineFeed hgap]
    exact length_skipSpace_le more
  · -- in the value
    have hcolon : skipSpace (behind ++ ':' :: value ++ '\n' :: more) =
        ':' :: (value ++ '\n' :: more) := by
      rw [List.append_assoc, skipSpace_gap hbehind, List.cons_append, skipSpace_cons (by decide)]
    exact leaves_readFields hread hcolon
      (ih value tail hitem depth fuel more (by simp at hf; omega)) done

/-- The reader comes past every line feed of a part. -/
theorem IsPart.passes {part : Part} {text : List Char} (h : IsPart part text) :
    Passes s part text := by
  induction h with
  | word h =>
    have hwords : ∀ text ∈ words, '\n' ∉ text := by decide
    exact passes_of_not_mem s (hwords _ h)
  | number hwhole hdecimals hpower =>
    exact passes_of_not_mem s (lineFeed_not_mem_number hwhole hdecimals hpower)
  | text h => exact passes_of_not_mem s h.lineFeed_not_mem
  | emptyArray h =>
    intro front tail heq depth fuel more _
    obtain ⟨between, rest, rfl, rfl⟩ := lineFeed_between heq (by decide) (by decide)
    exact leaves_array_gap (List.forall_mem_append.mp h).1 depth fuel more
  | emptyObject h =>
    intro front tail heq depth fuel more _
    obtain ⟨between, rest, rfl, rfl⟩ := lineFeed_between heq (by decide) (by decide)
    exact leaves_object_gap (List.forall_mem_append.mp h).1 depth fuel more
  | array h ih => exact passes_array h ih
  | object h ih => exact passes_object h ih
  | item hbefore h hafter ih => exact passes_item hbefore h hafter ih
  | lastItem _ ih =>
    intro front tail heq depth fuel done more hf
    exact leaves_readItems (ih front tail heq depth fuel more hf) done
  | @moreItems text after h _ ih ihmore =>
    intro front tail heq depth fuel done more hf
    rcases lineFeed_append_cons heq (by decide) with ⟨rest, htext⟩ | ⟨between, rfl, hmore⟩
    · exact leaves_readItems (ih front rest htext depth fuel more hf) done
    · have hlength := h.length_pos
      simp only [List.length_append, List.length_cons] at hf
      obtain ⟨value, hitem⟩ := h.accepted s depth fuel (',' :: (between ++ '\n' :: more)) (by omega)
        ⟨',', by decide, _, rfl⟩
      obtain ⟨fuel, rfl⟩ : ∃ n, fuel = n + 1 := ⟨fuel - 1, by omega⟩
      rw [List.append_assoc, List.cons_append, readItems_comma hitem]
      exact ihmore between tail hmore depth fuel _ more (by omega)
  | field hbefore hname hbehind _ ih => exact passes_field hbefore hname hbehind ih
  | lastField _ ih => exact ih
  | @moreFields text after h _ ih ihmore =>
    intro front tail heq depth fuel done more hf
    rcases lineFeed_append_cons heq (by decide) with ⟨rest, htext⟩ | ⟨between, rfl, hmore⟩
    · exact ih front rest htext depth fuel done more hf
    · have hlength := h.length_pos
      simp only [List.length_append, List.length_cons] at hf
      obtain ⟨field, hfield⟩ := h.accepted s depth fuel (',' :: (between ++ '\n' :: more)) (by omega)
        ⟨',', by decide, _, rfl⟩
      obtain ⟨fuel, rfl⟩ : ∃ n, fuel = n + 1 := ⟨fuel - 1, by omega⟩
      rw [List.append_assoc, List.cons_append, readFields_comma hfield]
      exact ihmore between tail hmore depth fuel _ more (by omega)

/-! ## Documents -/

/-- Where characters begin a document with a line feed behind them, a fault lies behind that line
feed. -/
theorem fault_past_lineFeed {front tail more rest : List Char} {fault : Fault}
    (h : IsDocument (front ++ '\n' :: tail))
    (hparse : parse (.free s) (front ++ '\n' :: more) = .error (.fault fault rest)) :
    rest.length ≤ more.length := by
  have hmark : (front ++ '\n' :: more).head? ≠ some (Char.ofNat 0xfeff) := by
    intro hhead
    obtain ⟨value, hvalue⟩ := (exists_parse_iff s).mpr h
    have hsame : (front ++ '\n' :: tail).head? = some (Char.ofNat 0xfeff) := by
      cases front with
      | nil => cases hhead
      | cons c front => exact hhead
    rw [parse, if_pos hsame] at hvalue
    cases hvalue
  have hleaves := @IsPart.passes s _ _ h front tail rfl 0 (2 * (front ++ '\n' :: more).length + 1) more
    (by simp; omega)
  rw [parse, if_neg hmark] at hparse
  split at hparse
  next hread =>
    rw [hread] at hleaves
    cases hparse
    exact hleaves
  next value rest hread =>
    rw [hread] at hleaves
    split at hparse
    · cases hparse
    · cases hparse
      exact hleaves

/-- No characters of a document that is at fault go on behind the line of the fault and begin a
document still. -/
theorem count_le_of_parse {before rest front tail : List Char} {fault : Fault}
    (hparse : parse (.free s) (before ++ rest) = .error (.fault fault rest))
    (hfront : front <+: before ++ rest)
    (hbegins : IsDocument (front ++ tail)) : front.count '\n' ≤ before.count '\n' := by
  rcases List.prefix_or_prefix_of_prefix hfront (List.prefix_append before rest) with h | h
  · exact h.sublist.count_le _
  obtain ⟨between, rfl⟩ := h
  have hnone : '\n' ∉ between := by
    intro hmem
    obtain ⟨first, last, rfl⟩ := List.append_of_mem hmem
    obtain ⟨behind, hbehind⟩ := hfront
    have hrest : rest = first ++ '\n' :: (last ++ behind) := by
      have hcancel : before ++ rest = before ++ (first ++ '\n' :: (last ++ behind)) := by
        rw [← hbehind]
        simp
      exact List.append_cancel_left hcancel
    have hdocument : IsDocument ((before ++ first) ++ '\n' :: (last ++ tail)) := by
      simpa using hbegins
    have hpast := @fault_past_lineFeed s (before ++ first) (last ++ tail) (last ++ behind) rest
      fault hdocument (by rw [← hparse, hrest, List.append_assoc])
    rw [hrest] at hpast
    simp at hpast
    omega
  rw [List.count_append, List.count_eq_zero.mpr hnone, Nat.add_zero]

end

end BuildCommands.Json
