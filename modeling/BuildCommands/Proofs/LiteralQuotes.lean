import BuildCommands.Proofs.Segments

/-!
# Literal quotes

The scan that cuts a text into tokens and the reader of a token's value decide each for itself which
quotes are literal characters.  They agree: what a token's value holds can be said position by
position of the text, and a quote stays in it exactly where the scan passes it without opening or
closing a quoted run.

    (value token).toList = what the positions of the token add          (toList_value_slice)
    value t = t ↔ '"' ∉ t.toList                                         (value_eq_self_iff)

A run of backslashes adds nothing before its last position, where its length is known.
-/

namespace BuildCommands.Argument

/-! ## Definitions -/

/-- The scan passes the quote at this position without opening or closing a quoted run. -/
def LiteralQuote (cs : List Char) (k : Nat) : Prop :=
  cs[k]? = some '"' ∧
    (ScanState.after (cs.take (k + 1))).inQuotes = (ScanState.after (cs.take k)).inQuotes

instance (cs : List Char) (k : Nat) : Decidable (LiteralQuote cs k) :=
  inferInstanceAs (Decidable (_ ∧ _))

/-- What a run of backslashes of the given length adds to a value if this stands behind it. -/
def runAdds (run : Nat) : Option Char → List Char
  | some '\\' => []
  | some '"' => List.replicate (run / 2) '\\'
  | _ => List.replicate run '\\'

/-- What a position of a text adds to the value of its token.  A run of backslashes is halved if a
quote stands right behind it and kept in full otherwise; a quote is kept if it is literal. -/
def positionAdds (cs : List Char) (k : Nat) : List Char :=
  match cs[k]? with
  | some '\\' => runAdds (backslashRun (cs.take (k + 1))) cs[k + 1]?
  | some '"' => if LiteralQuote cs k then ['"'] else []
  | some c => [c]
  | none => []

/-- Neither a quote nor a backslash. -/
def isOrdinary (c : Char) : Bool := c != '"' && c != '\\'

/-! ## Literal quotes -/

/-- The flag of the scan turns at the active quotes. -/
theorem inQuotes_take_succ (cs : List Char) (k : Nat) :
    (ScanState.after (cs.take (k + 1))).inQuotes = (ScanState.after (cs.take k)).inQuotes ↔
      ¬ ActiveQuote cs k := by
  rw [after_eq, after_eq, activeQuotes_take_succ]
  by_cases h : ActiveQuote cs k
  · rw [if_pos h, odd_succ]
    simp [h]
  · simp [h]

/-- A quote is literal behind an odd run of backslashes. -/
theorem literalQuote_iff {cs : List Char} {k : Nat} :
    LiteralQuote cs k ↔ cs[k]? = some '"' ∧ backslashRun (cs.take k) % 2 = 1 := by
  unfold LiteralQuote
  rw [inQuotes_take_succ]
  unfold ActiveQuote
  constructor
  · rintro ⟨hq, h⟩
    exact ⟨hq, by have := not_and.mp h hq; omega⟩
  · rintro ⟨hq, h⟩
    exact ⟨hq, fun hactive => by omega⟩

/-! ## Values by position -/

theorem runAdds_zero (next : Option Char) : runAdds 0 next = [] := by
  unfold runAdds
  split <;> rfl

theorem positionAdds_of_plain {cs : List Char} {k : Nat} {c : Char} (h : cs[k]? = some c)
    (hb : c ≠ '\\') (hq : c ≠ '"') : positionAdds cs k = [c] := by
  unfold positionAdds
  rw [h]
  split <;> simp_all

/-- The value of the characters behind `pre` is what the run at its end adds, and then what their
positions add. -/
theorem valueFrom_eq_flatMap (rest : List Char) : ∀ pre : List Char,
    valueFrom (backslashRun pre) rest = runAdds (backslashRun pre) rest.head? ++
      (List.range' pre.length rest.length).flatMap (positionAdds (pre ++ rest)) := by
  induction rest with
  | nil =>
    intro pre
    simp [valueFrom, runAdds]
  | cons c rest ih =>
    intro pre
    have hsplit : pre ++ c :: rest = (pre ++ [c]) ++ rest := by simp
    have hget : (pre ++ c :: rest)[pre.length]? = some c := by simp
    have hnext : (pre ++ c :: rest)[pre.length + 1]? = rest.head? := by
      rw [List.getElem?_append_right (Nat.le_succ _)]
      simp [List.head?_eq_getElem?]
    have htake : (pre ++ c :: rest).take (pre.length + 1) = pre ++ [c] := by
      rw [hsplit, List.take_left' (by simp)]
    have hrun := ih (pre ++ [c])
    rw [backslashRun_concat, ← hsplit, List.length_append, List.length_singleton] at hrun
    rw [List.length_cons, List.range'_succ, List.flatMap_cons, List.head?_cons, valueFrom]
    by_cases hb : c = '\\'
    · subst hb
      rw [if_pos rfl] at hrun ⊢
      have hlast : positionAdds (pre ++ '\\' :: rest) pre.length =
          runAdds (backslashRun pre + 1) rest.head? := by
        unfold positionAdds
        rw [hget, hnext, htake, backslashRun_concat, if_pos rfl]
        rfl
      rw [hrun, hlast]
      rfl
    rw [if_neg hb, runAdds_zero, List.nil_append] at hrun
    rw [if_neg hb]
    by_cases hq : c = '"'
    · subst hq
      have hquote : positionAdds (pre ++ '"' :: rest) pre.length =
          if backslashRun pre % 2 = 1 then ['"'] else [] := by
        unfold positionAdds
        rw [hget]
        simp only [literalQuote_iff, hget, List.take_left, true_and]
      rw [if_pos rfl, hrun, hquote, List.append_assoc]
      rfl
    · rw [if_neg hq, hrun, positionAdds_of_plain hget hb hq]
      unfold runAdds
      split <;> simp_all

theorem valueFrom_zero (cs : List Char) :
    valueFrom 0 cs = (List.range' 0 cs.length).flatMap (positionAdds cs) := by
  have h := valueFrom_eq_flatMap cs []
  rwa [backslashRun_nil, runAdds_zero] at h

/-! ## Tokens -/

/-- What does not end in a backslash prolongs no run behind it. -/
theorem backslashRun_append {front : List Char} (h : backslashRun front = 0) (cs : List Char) :
    backslashRun (front ++ cs) = backslashRun cs := by
  induction cs using List.reverseRecOn with
  | nil => rw [List.append_nil, h, backslashRun_nil]
  | append_singleton cs c ih =>
    rw [← List.append_assoc, backslashRun_concat, backslashRun_concat, ih]

theorem Separator.getElem?_ne {cs : List Char} {k : Nat} (h : Separator cs k) {c : Char}
    (hspace : c ≠ ' ') (htab : c ≠ '\t') : cs[k]? ≠ some c := by
  rcases h.1 with h | h <;> rw [h] <;> simp [Ne.symm hspace, Ne.symm htab]

/-- No run of backslashes reaches into a segment. -/
theorem IsSegment.backslashRun_begin {cs : List Char} {i j : Nat} (h : IsSegment cs i j) :
    backslashRun (cs.take i) = 0 := by
  cases i with
  | zero => rfl
  | succ i =>
    have hsep : Separator cs i := h.begins.resolve_left (Nat.succ_ne_zero i)
    have hlt := hsep.lt_length
    have hne := hsep.getElem?_ne (c := '\\') (by decide) (by decide)
    rw [List.getElem?_eq_getElem hlt, ne_eq, Option.some.injEq] at hne
    rw [List.take_add_one, List.getElem?_eq_getElem hlt, Option.toList_some, backslashRun_concat,
      if_neg hne]

theorem slice_eq (cs : List Char) (i j : Nat) : slice cs (i, j) = (cs.drop i).take (j - i) :=
  List.drop_take

theorem getElem?_slice (cs : List Char) {i j k : Nat} (hk : k < j - i) :
    (slice cs (i, j))[k]? = cs[i + k]? := by
  rw [slice_eq, List.getElem?_take_of_lt hk, List.getElem?_drop]

/-- The text up to a position between the bounds. -/
theorem take_eq_append_slice (cs : List Char) {i j k : Nat} (hk : k ≤ j - i) :
    cs.take (i + k) = cs.take i ++ (slice cs (i, j)).take k := by
  rw [slice_eq, List.take_take, Nat.min_eq_left hk, List.take_add]

section

variable {cs : List Char} {i j : Nat} (h : IsSegment cs i j)
include h

theorem IsSegment.length_slice : (slice cs (i, j)).length = j - i := by
  have hj := h.inside
  rw [slice_eq, List.length_take_of_le (by rw [List.length_drop]; omega)]

theorem IsSegment.backslashRun_take {k : Nat} (hk : k ≤ j - i) :
    backslashRun (cs.take (i + k)) = backslashRun ((slice cs (i, j)).take k) := by
  rw [take_eq_append_slice cs hk, backslashRun_append h.backslashRun_begin]

/-- The scan of the text and the scan of the token alone pass the same quotes. -/
theorem IsSegment.literalQuote_iff {k : Nat} (hk : k < j - i) :
    LiteralQuote cs (i + k) ↔ LiteralQuote (slice cs (i, j)) k := by
  rw [Argument.literalQuote_iff, Argument.literalQuote_iff, getElem?_slice cs hk,
    h.backslashRun_take (Nat.le_of_lt hk)]

/-- What stands behind a segment adds nothing to a run of backslashes at its end. -/
theorem IsSegment.runAdds_next {k run : Nat} (hk : k < j - i) :
    runAdds run cs[i + k + 1]? = runAdds run (slice cs (i, j))[k + 1]? := by
  rcases Nat.lt_or_ge (k + 1) (j - i) with hlt | hge
  · rw [getElem?_slice cs hlt, Nat.add_assoc]
  have hend : i + k + 1 = j := by omega
  have hnone : (slice cs (i, j))[k + 1]? = none :=
    List.getElem?_eq_none (by rw [h.length_slice]; exact hge)
  rw [hend, hnone]
  rcases h.ends with hlength | hsep
  · rw [hlength, List.getElem?_length]
  · rcases hsep.1 with hc | hc <;> rw [hc] <;> rfl

theorem IsSegment.positionAdds_eq {k : Nat} (hk : k < j - i) :
    positionAdds cs (i + k) = positionAdds (slice cs (i, j)) k := by
  have hrun := h.backslashRun_take (Nat.succ_le_of_lt hk)
  unfold positionAdds
  rw [getElem?_slice cs hk, Nat.add_assoc, hrun, ← Nat.add_assoc, h.runAdds_next hk]
  simp only [h.literalQuote_iff hk]

/-- The value of a segment is what its positions add. -/
theorem IsSegment.valueFrom_slice :
    valueFrom 0 (slice cs (i, j)) = (List.range' i (j - i)).flatMap (positionAdds cs) := by
  rw [valueFrom_zero, h.length_slice, List.range'_eq_map_range, List.range'_eq_map_range,
    List.flatMap_map, List.flatMap_map]
  refine List.flatMap_congr fun k hk => ?_
  rw [List.mem_range] at hk
  rw [Nat.zero_add, h.positionAdds_eq hk]

end

/-! ## What a value keeps -/

/-- Only quotes and backslashes are taken out. -/
theorem filter_valueFrom (cs : List Char) : ∀ run : Nat,
    (valueFrom run cs).filter isOrdinary = cs.filter isOrdinary := by
  have hrun : ∀ n, (List.replicate n '\\').filter isOrdinary = [] := by
    intro n
    rw [List.filter_replicate, if_neg (by decide)]
  induction cs with
  | nil => exact fun run => hrun run
  | cons c cs ih =>
    intro run
    rw [valueFrom]
    by_cases hb : c = '\\'
    · subst hb
      rw [if_pos rfl, ih, List.filter_cons_of_neg (by decide)]
    rw [if_neg hb]
    by_cases hq : c = '"'
    · subst hq
      rw [if_pos rfl, List.filter_append, List.filter_append, hrun, ih,
        List.filter_cons_of_neg (by decide)]
      split <;> rfl
    · rw [if_neg hq, List.filter_append, hrun, List.nil_append, List.filter_cons, List.filter_cons,
        ih]

/-- No value is longer than its token, and one without a quote of it is shorter. -/
theorem length_valueFrom (cs : List Char) : ∀ run : Nat,
    (valueFrom run cs).length + (if '"' ∈ cs then 1 else 0) ≤ run + cs.length := by
  induction cs with
  | nil => simp [valueFrom]
  | cons c cs ih =>
    intro run
    rw [valueFrom]
    by_cases hb : c = '\\'
    · subst hb
      have := ih (run + 1)
      simp only [if_true, List.mem_cons, List.length_cons]
      simp
      omega
    rw [if_neg hb]
    have hrest := ih 0
    by_cases hq : c = '"'
    · subst hq
      have hodd : (if run % 2 = 1 then ['"'] else ([] : List Char)).length = run % 2 := by
        split <;> simp <;> omega
      rw [if_pos rfl, if_pos List.mem_cons_self, List.length_append, List.length_append, hodd,
        List.length_replicate, List.length_cons]
      omega
    · rw [if_neg hq, List.length_append, List.length_replicate, List.length_cons, List.length_cons]
      simp only [List.mem_cons, Ne.symm hq, false_or]
      omega

theorem toList_value (token : String) : (value token).toList = valueFrom 0 token.toList := by
  rw [value, String.toList_ofList]

theorem length_value_lt {token : String} (h : '"' ∈ token.toList) :
    (value token).length < token.length := by
  have hlength := length_valueFrom token.toList 0
  rw [if_pos h] at hlength
  rw [← String.length_toList, ← String.length_toList, toList_value]
  omega

theorem value_eq_self_iff (token : String) : value token = token ↔ '"' ∉ token.toList := by
  constructor
  · intro h hmem
    have hlt := length_value_lt hmem
    rw [h] at hlt
    exact Nat.lt_irrefl _ hlt
  · exact value_of_not_mem

/-! ## Top theorem -/

/-- A position adds one quote if it is that of a literal quote. -/
theorem count_positionAdds (cs : List Char) (k : Nat) :
    (positionAdds cs k).count '"' = if LiteralQuote cs k then 1 else 0 := by
  have hrun : ∀ n, (List.replicate n '\\').count '"' = 0 := by
    intro n
    rw [List.count_replicate, if_neg (by decide)]
  have hnone : cs[k]? ≠ some '"' → ¬ LiteralQuote cs k := fun h hliteral => h hliteral.1
  unfold positionAdds
  split
  · next h =>
    rw [if_neg (hnone (by rw [h]; decide))]
    unfold runAdds
    split
    · rfl
    · exact hrun _
    · exact hrun _
  · split <;> rfl
  · next c _ hquote h =>
    have hc : c ≠ '"' := fun hc => hquote hc
    rw [if_neg (hnone (by rw [h]; simpa using hc)), List.count_singleton]
    simpa using hc
  · next h => rw [if_neg (hnone (by rw [h]; decide))]; rfl

/-- Each token is a segment of the text, and its value is what the positions of the segment add: it
holds a quote for each that the scan of the text passes as literal, which are those behind an odd
run of backslashes, and all that is neither quote nor backslash.  A value is its token if that has
no quote, and shorter otherwise. -/
theorem value_of_scan (text : String) :
    (∀ (n : Nat) (token : String), (tokenize text)[n]? = some token →
      ∃ i j, (segmentSpans (unbroken text))[n]? = some (i, j) ∧
        token.toList = slice (unbroken text) (i, j) ∧
        (value token).toList = (List.range' i (j - i)).flatMap (positionAdds (unbroken text)) ∧
        (value token).toList.count '"' =
          (List.range' i (j - i)).countP (LiteralQuote (unbroken text) ·) ∧
        (∀ k, token.toList[k]? = some '"' →
          (LiteralQuote (unbroken text) (i + k) ↔
            backslashRun (token.toList.take k) % 2 = 1)) ∧
        (value token).toList.filter isOrdinary = token.toList.filter isOrdinary) ∧
      ∀ t : String, (value t = t ↔ '"' ∉ t.toList) ∧
        ('"' ∈ t.toList → (value t).length < t.length) := by
  refine ⟨fun n token htoken => ?_, fun t => ⟨value_eq_self_iff t, length_value_lt⟩⟩
  unfold tokenize at htoken
  rw [tokensFrom_start, segments, List.map_map, List.getElem?_map, Option.map_eq_some_iff] at htoken
  obtain ⟨⟨i, j⟩, hspan, rfl⟩ := htoken
  have hsegment : IsSegment (unbroken text) i j :=
    mem_segmentSpans.mp (List.mem_of_getElem? hspan)
  have hvalue := hsegment.valueFrom_slice
  simp only [Function.comp_apply, String.toList_ofList, toList_value]
  refine ⟨i, j, hspan, rfl, hvalue, ?_, fun k hk => ?_, filter_valueFrom _ 0⟩
  · rw [hvalue, List.count_flatMap]
    simp only [Function.comp_def, count_positionAdds]
    exact sum_map_ite_one _ _
  · have hlt : k < j - i := by
      rw [← hsegment.length_slice]
      exact (List.getElem?_eq_some_iff.mp hk).1
    rw [hsegment.literalQuote_iff hlt, literalQuote_iff, hk]
    exact and_iff_right rfl

/-- In the first token one quote of three is literal; the run behind it, at the end of the second,
is halved. -/
theorem value_of_scan_escaped :
    (tokenize "/D\"x\\\"y\" z\\\\\"")[0]? = some "/D\"x\\\"y\"" ∧
      (∃ i j, (segmentSpans (unbroken "/D\"x\\\"y\" z\\\\\""))[0]? = some (i, j) ∧
        ['/', 'D', 'x', '"', 'y'] =
          (List.range' i (j - i)).flatMap (positionAdds (unbroken "/D\"x\\\"y\" z\\\\\""))) ∧
      '"' ∈ "z\\\\\"".toList ∧ (value "z\\\\\"").length < "z\\\\\"".length := by
  have htoken : (tokenize "/D\"x\\\"y\" z\\\\\"")[0]? = some "/D\"x\\\"y\"" := by decide
  have hquote : '"' ∈ "z\\\\\"".toList := by decide
  have hvalue : (value "/D\"x\\\"y\"").toList = ['/', 'D', 'x', '"', 'y'] := by decide
  obtain ⟨htokens, hvalues⟩ := value_of_scan "/D\"x\\\"y\" z\\\\\""
  obtain ⟨i, j, hspan, -, hadds, -⟩ := htokens 0 _ htoken
  exact ⟨htoken, ⟨i, j, hspan, hvalue.symm.trans hadds⟩, hquote, (hvalues _).2 hquote⟩

end BuildCommands.Argument
