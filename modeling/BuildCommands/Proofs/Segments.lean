import BuildCommands.Proofs.Quoting

/-!
# Tokens are segments

A segment of a text is a stretch between separators, or between a separator and an end of the text,
as long as it can be and not empty.  `segments` lists them by looking at every pair of positions; it
knows nothing of the scan.

    tokenize text = (segments (unbroken text)).map String.ofList     (tokenize_eq_segments)

The scan has consumed `pre` and has a token open since position `i`; `Open` is that state said by
positions, and `tokensFrom_spans` carries it through the text.
-/

namespace BuildCommands.Argument

/-! ## Definitions -/

/-- The characters from `i` to before `j` are a segment. -/
structure IsSegment (cs : List Char) (i j : Nat) : Prop where
  nonempty : i < j
  inside : j ≤ cs.length
  unseparated : ∀ k < j, i ≤ k → ¬ Separator cs k
  begins : i = 0 ∨ Separator cs (i - 1)
  ends : j = cs.length ∨ Separator cs j

theorem isSegment_iff (cs : List Char) (i j : Nat) :
    IsSegment cs i j ↔ i < j ∧ j ≤ cs.length ∧ (∀ k < j, i ≤ k → ¬ Separator cs k) ∧
      (i = 0 ∨ Separator cs (i - 1)) ∧ (j = cs.length ∨ Separator cs j) :=
  ⟨fun h => ⟨h.nonempty, h.inside, h.unseparated, h.begins, h.ends⟩,
    fun ⟨h1, h2, h3, h4, h5⟩ => ⟨h1, h2, h3, h4, h5⟩⟩

instance (cs : List Char) (i j : Nat) : Decidable (IsSegment cs i j) :=
  decidable_of_iff' _ (isSegment_iff cs i j)

/-- The bounds of the segments, from left to right. -/
def segmentSpans (cs : List Char) : List (Nat × Nat) :=
  (List.range (cs.length + 1)).flatMap fun i =>
    ((List.range (cs.length + 1)).filter (IsSegment cs i ·)).map (i, ·)

/-- The characters between the bounds. -/
def slice (cs : List Char) (span : Nat × Nat) : List Char := (cs.take span.2).drop span.1

/-- The segments of a text, from left to right. -/
def segments (cs : List Char) : List (List Char) := (segmentSpans cs).map (slice cs)

/-! ## The order of the segments -/

/-- The order in which pairs of positions are looked at. -/
def spanLT (a b : Nat × Nat) : Prop := a.1 < b.1 ∨ a.1 = b.1 ∧ a.2 < b.2

theorem mem_segmentSpans {cs : List Char} {i j : Nat} :
    (i, j) ∈ segmentSpans cs ↔ IsSegment cs i j := by
  unfold segmentSpans
  simp only [List.mem_flatMap, List.mem_map, List.mem_filter, List.mem_range, decide_eq_true_eq,
    Prod.mk.injEq]
  constructor
  · rintro ⟨a, -, b, ⟨-, h⟩, rfl, rfl⟩
    exact h
  · intro h
    have hj := h.inside
    have hi := h.nonempty
    exact ⟨i, by omega, j, ⟨by omega, h⟩, rfl, rfl⟩

theorem segmentSpans_pairwise (cs : List Char) : (segmentSpans cs).Pairwise spanLT := by
  unfold segmentSpans
  rw [List.pairwise_flatMap]
  constructor
  · intro i _
    rw [List.pairwise_map]
    exact (List.pairwise_lt_range.filter _).imp fun h => Or.inr ⟨rfl, h⟩
  · refine List.pairwise_lt_range.imp fun {i j} hij a ha b hb => ?_
    obtain ⟨_, _, rfl⟩ := List.mem_map.mp ha
    obtain ⟨_, _, rfl⟩ := List.mem_map.mp hb
    exact Or.inl hij

/-- A list of bounds in order that holds each segment is the list of all segments. -/
theorem eq_segmentSpans {cs : List Char} {spans : List (Nat × Nat)}
    (hp : spans.Pairwise spanLT) (hm : ∀ i j, (i, j) ∈ spans ↔ IsSegment cs i j) :
    spans = segmentSpans cs := by
  have hirr : ∀ {l : List (Nat × Nat)}, l.Pairwise spanLT → l.Nodup := by
    intro l hl
    refine hl.imp fun {a b} h hab => ?_
    subst hab
    unfold spanLT at h
    omega
  refine List.Perm.eq_of_pairwise (fun a b _ _ h1 h2 => ?_) hp (segmentSpans_pairwise cs) ?_
  · unfold spanLT at h1 h2
    omega
  · rw [List.perm_ext_iff_of_nodup (hirr hp) (hirr (segmentSpans_pairwise cs))]
    rintro ⟨i, j⟩
    rw [hm, mem_segmentSpans]

/-! ## Open segments -/

/-- A segment begins at `i`, if it has a character, and no separator stands from there to `n`. -/
structure Open (cs : List Char) (i n : Nat) : Prop where
  le : i ≤ n
  begins : i = 0 ∨ Separator cs (i - 1)
  unseparated : ∀ k < n, i ≤ k → ¬ Separator cs k

namespace Open

variable {cs : List Char} {i n : Nat}

theorem next (h : Open cs i n) (hn : ¬ Separator cs n) : Open cs i (n + 1) where
  le := Nat.le_succ_of_le h.le
  begins := h.begins
  unseparated k hk hik := by
    rcases Nat.lt_succ_iff_lt_or_eq.mp hk with hk | rfl
    · exact h.unseparated k hk hik
    · exact hn

theorem ofSeparator (hn : Separator cs n) : Open cs (n + 1) (n + 1) where
  le := Nat.le_refl _
  begins := Or.inr hn
  unseparated k hk hik := by omega

/-- Where an open segment ends, it is the first segment from its begin on. -/
theorem isSegment_iff (h : Open cs i n) (hn : n ≤ cs.length)
    (hends : n = cs.length ∨ Separator cs n) {a b : Nat} (ha : i ≤ a) :
    IsSegment cs a b ↔ (i < n ∧ a = i ∧ b = n) ∨ (n < a ∧ IsSegment cs a b) := by
  constructor
  · intro hs
    have hab := hs.nonempty
    have hb := hs.inside
    rcases Nat.lt_or_ge n a with hna | hna
    · exact Or.inr ⟨hna, hs⟩
    left
    have han : a < n := by
      rcases Nat.lt_or_eq_of_le hna with h1 | rfl
      · exact h1
      rcases hends with rfl | hsep
      · omega
      · exact absurd hsep (hs.unseparated a hab (Nat.le_refl a))
    have hai : a = i := by
      rcases hs.begins with h0 | hsep
      · omega
      rcases Nat.lt_or_eq_of_le ha with h1 | h1
      · exact absurd hsep (h.unseparated (a - 1) (by omega) (by omega))
      · exact h1.symm
    refine ⟨by omega, hai, ?_⟩
    rcases Nat.lt_trichotomy b n with h1 | h1 | h1
    · rcases hs.ends with h2 | hsep
      · omega
      · exact absurd hsep (h.unseparated b h1 (by omega))
    · exact h1
    · rcases hends with rfl | hsep
      · omega
      · exact absurd hsep (hs.unseparated n h1 hna)
  · rintro (⟨hin, rfl, rfl⟩ | ⟨-, hs⟩)
    · exact ⟨hin, hn, h.unseparated, h.begins, hends⟩
    · exact hs

end Open

/-! ## The scan lists the segments -/

/-- The bounds of an open segment that ends, unless it is empty. -/
def closeSpan (i n : Nat) : List (Nat × Nat) := if i < n then [(i, n)] else []

theorem mem_closeSpan {i n a b : Nat} : (a, b) ∈ closeSpan i n ↔ i < n ∧ a = i ∧ b = n := by
  unfold closeSpan
  by_cases h : i < n
  · rw [if_pos h, List.mem_singleton, Prod.mk.injEq]
    exact (and_iff_right h).symm
  · rw [if_neg h]
    simp [h]

theorem closeToken_slice (pre rest : List Char) (i : Nat) :
    closeToken (pre.drop i).reverse =
      (closeSpan i pre.length).map (slice (pre ++ rest)) := by
  unfold closeToken closeSpan slice
  rw [List.isEmpty_reverse, List.reverse_reverse]
  by_cases h : i < pre.length
  · rw [if_pos h, if_neg (by simpa using h), List.map_singleton, List.take_left]
  · rw [if_neg h, if_pos (by simpa using h), List.map_nil]

/-- From a state reached behind `pre` with a segment open since `i`, the scan lists the slices of
the segments that begin at `i` or later. -/
theorem tokensFrom_spans (rest : List Char) : ∀ (pre : List Char) (i : Nat),
    Open (pre ++ rest) i pre.length →
    ∃ spans : List (Nat × Nat), spans.Pairwise (fun a b => a.2 < b.1) ∧
      (∀ a b, (a, b) ∈ spans ↔ i ≤ a ∧ IsSegment (pre ++ rest) a b) ∧
      tokensFrom (.after pre) (pre.drop i).reverse rest =
        spans.map (slice (pre ++ rest)) := by
  induction rest with
  | nil =>
    intro pre i hopen
    refine ⟨closeSpan i pre.length, ?_, fun a b => ?_, closeToken_slice pre [] i⟩
    · unfold closeSpan
      split <;> simp
    · rw [mem_closeSpan]
      constructor
      · rintro ⟨hi, rfl, rfl⟩
        refine ⟨Nat.le_refl _, (hopen.isSegment_iff (by simp) (by simp) (Nat.le_refl _)).mpr ?_⟩
        exact Or.inl ⟨hi, rfl, rfl⟩
      · rintro ⟨ha, hs⟩
        rcases (hopen.isSegment_iff (by simp) (by simp) ha).mp hs with h | ⟨h, -⟩
        · exact h
        · have := hs.nonempty
          have := hs.inside
          simp at this
          omega
  | cons c rest ih =>
    intro pre i hopen
    have hsplit : pre ++ c :: rest = (pre ++ [c]) ++ rest := by simp
    have hlen : (pre ++ [c]).length = pre.length + 1 := by simp
    have hle := hopen.le
    by_cases hsep : Separator (pre ++ c :: rest) pre.length
    · -- the open segment ends here, and the next one may begin right behind
      obtain ⟨spans, hp, hm, he⟩ := ih (pre ++ [c]) (pre.length + 1) (by
        rw [hlen, ← hsplit]
        exact .ofSeparator hsep)
      rw [← hsplit] at hm he
      refine ⟨closeSpan i pre.length ++ spans, ?_, fun a b => ?_, ?_⟩
      · rw [List.pairwise_append]
        refine ⟨by unfold closeSpan; split <;> simp, hp, ?_⟩
        rintro ⟨a, b⟩ hab ⟨a', b'⟩ hab'
        obtain ⟨-, -, rfl⟩ := mem_closeSpan.mp hab
        have := ((hm a' b').mp hab').1
        omega
      · rw [List.mem_append, mem_closeSpan, hm]
        constructor
        · rintro (h | ⟨ha, hs⟩)
          · refine ⟨by omega, (hopen.isSegment_iff (by simp) (Or.inr hsep) (by omega)).mpr ?_⟩
            exact Or.inl h
          · exact ⟨by omega, hs⟩
        · rintro ⟨ha, hs⟩
          rcases (hopen.isSegment_iff (by simp) (Or.inr hsep) ha).mp hs with h | ⟨h, -⟩
          · exact Or.inl h
          · exact Or.inr ⟨h, hs⟩
      · have hnil : ((pre ++ [c]).drop (pre.length + 1)).reverse = [] := by simp
        rw [hnil, after_concat] at he
        rw [tokensFrom, if_pos ((separates_iff pre rest c).mpr hsep), he, List.map_append,
          ← closeToken_slice]
    · obtain ⟨spans, hp, hm, he⟩ := ih (pre ++ [c]) i (by
        rw [hlen, ← hsplit]
        exact hopen.next hsep)
      rw [← hsplit] at hm he
      refine ⟨spans, hp, hm, ?_⟩
      have hdrop : ((pre ++ [c]).drop i).reverse = c :: (pre.drop i).reverse := by
        rw [List.drop_append_of_le_length hle, List.reverse_append]
        rfl
      rw [hdrop, after_concat] at he
      rw [tokensFrom, if_neg fun h => hsep ((separates_iff pre rest c).mp h), he]

/-- The scan of a text lists its segments. -/
theorem tokensFrom_start (cs : List Char) : tokensFrom .start [] cs = segments cs := by
  obtain ⟨spans, hp, hm, he⟩ := tokensFrom_spans cs [] 0
    ⟨Nat.le_refl _, Or.inl rfl, fun k hk => absurd hk (Nat.not_lt_zero k)⟩
  have hlt : spans.Pairwise spanLT := by
    refine hp.imp_of_mem fun {a b} ha hb h => Or.inl ?_
    have := ((hm a.1 a.2).mp ha).2.nonempty
    omega
  have hs : ∀ i j, (i, j) ∈ spans ↔ IsSegment cs i j := by
    intro i j
    rw [hm]
    simp
  calc tokensFrom .start [] cs = spans.map (slice cs) := he
    _ = segments cs := by rw [eq_segmentSpans hlt hs]; rfl

/-! ## What the segments hold -/

theorem closeToken_of_ne_nil {token : List Char} (h : token ≠ []) :
    closeToken token = [token.reverse] := by
  unfold closeToken
  rw [if_neg (by simpa using h)]

theorem flatten_closeToken (token : List Char) : (closeToken token).flatten = token.reverse := by
  unfold closeToken
  cases token <;> simp

theorem nil_not_mem_closeToken (token : List Char) : [] ∉ closeToken token := by
  intro h
  unfold closeToken at h
  cases token <;> simp at h

/-- The tokens hold the characters that do not separate, in order. -/
theorem flatten_tokensFrom (rest : List Char) : ∀ pre token : List Char,
    (tokensFrom (.after pre) token rest).flatten =
      token.reverse ++
        ((rest.zipIdx pre.length).filter fun p => ¬ Separator (pre ++ rest) p.2).map Prod.fst := by
  induction rest with
  | nil =>
    intro pre token
    unfold tokensFrom
    rw [flatten_closeToken]
    simp
  | cons c rest ih =>
    intro pre token
    have hsplit : pre ++ c :: rest = (pre ++ [c]) ++ rest := by simp
    have hstep := ih (pre ++ [c])
    rw [after_concat, ← hsplit, List.length_append, List.length_singleton] at hstep
    rw [List.zipIdx_cons, tokensFrom]
    by_cases hsep : Separator (pre ++ c :: rest) pre.length
    · rw [if_pos ((separates_iff pre rest c).mpr hsep), List.flatten_append, hstep,
        List.filter_cons_of_neg (by simpa using hsep), flatten_closeToken]
      rfl
    · rw [if_neg fun h => hsep ((separates_iff pre rest c).mp h), hstep,
        List.filter_cons_of_pos (by simpa using hsep)]
      simp

/-- No token is empty. -/
theorem nil_not_mem_tokensFrom (cs : List Char) : ∀ (s : ScanState) (token : List Char),
    [] ∉ tokensFrom s token cs := by
  induction cs with
  | nil =>
    intro s token
    exact nil_not_mem_closeToken token
  | cons c rest ih =>
    intro s token
    rw [tokensFrom]
    split
    · rw [List.mem_append]
      exact fun h => h.elim (nil_not_mem_closeToken token) (ih _ _)
    · exact ih _ _

/-! ## Quotes that stay open -/

/-- The active quote at this position opens a quoted run that nothing closes. -/
def Unterminated (cs : List Char) (q : Nat) : Prop :=
  ActiveQuote cs q ∧ activeQuotes (cs.take (q + 1)) % 2 = 1 ∧ ∀ k, q < k → ¬ ActiveQuote cs k

theorem activeQuotes_take_succ (cs : List Char) (k : Nat) :
    activeQuotes (cs.take (k + 1)) =
      activeQuotes (cs.take k) + if ActiveQuote cs k then 1 else 0 := by
  rcases Nat.lt_or_ge k cs.length with hk | hk
  · have hget : cs[k]? = some cs[k] := List.getElem?_eq_getElem hk
    rw [List.take_add_one, hget, Option.toList_some, activeQuotes_concat]
    unfold ActiveQuote
    simp only [hget, Option.some.injEq]
  · have hnone : ¬ ActiveQuote cs k := by
      rintro ⟨h, -⟩
      rw [List.getElem?_eq_none hk] at h
      cases h
    rw [List.take_of_length_le hk, List.take_of_length_le (by omega), if_neg hnone, Nat.add_zero]

/-- Behind a quote that stays open nothing separates. -/
theorem Unterminated.not_separator {cs : List Char} {q : Nat} (h : Unterminated cs q) :
    ∀ k, q ≤ k → ¬ Separator cs k := by
  obtain ⟨hq, hodd, hlast⟩ := h
  have hparity : ∀ d, activeQuotes (cs.take (q + 1 + d)) % 2 = 1 := by
    intro d
    induction d with
    | zero => exact hodd
    | succ d ih =>
      rw [← Nat.add_assoc, activeQuotes_take_succ, if_neg (hlast _ (by omega)), Nat.add_zero]
      exact ih
  rintro k hk ⟨hc, heven⟩
  rcases Nat.lt_or_eq_of_le hk with h1 | rfl
  · have := hparity (k - (q + 1))
    rw [show q + 1 + (k - (q + 1)) = k by omega] at this
    omega
  · rw [hq.1] at hc
    simp at hc

/-- Through a stretch without separators the scan adds to the token it has open. -/
theorem tokensFrom_unseparated (rest mid : List Char) : ∀ pre token : List Char,
    (∀ k, pre.length ≤ k → ¬ Separator (pre ++ mid) k) →
    tokensFrom (.after pre) token (mid ++ rest) =
      tokensFrom (.after (pre ++ mid)) (mid.reverse ++ token) rest := by
  induction mid with
  | nil =>
    intro pre token _
    simp
  | cons c mid ih =>
    intro pre token h
    have hsplit : pre ++ c :: mid = (pre ++ [c]) ++ mid := by simp
    have hsep : ¬ (ScanState.after pre).separates c = true :=
      fun hs => h pre.length (Nat.le_refl _) ((separates_iff pre mid c).mp hs)
    rw [List.cons_append, tokensFrom, if_neg hsep, ← after_concat, ih (pre ++ [c]) (c :: token)]
    · simp
    · intro k hk
      rw [List.length_append, List.length_singleton] at hk
      rw [← hsplit]
      exact h k (by omega)

/-- The scan of a text goes on from where the scan of its front ends. -/
theorem tokensFrom_append (rest mid : List Char) : ∀ pre token : List Char,
    ∃ front last, tokensFrom (.after pre) token (mid ++ rest) =
      front ++ tokensFrom (.after (pre ++ mid)) last rest := by
  induction mid with
  | nil =>
    intro pre token
    exact ⟨[], token, by simp⟩
  | cons c mid ih =>
    intro pre token
    have hsplit : pre ++ c :: mid = (pre ++ [c]) ++ mid := by simp
    rw [List.cons_append, tokensFrom, ← after_concat, hsplit]
    split
    · obtain ⟨front, last, he⟩ := ih (pre ++ [c]) []
      refine ⟨closeToken token ++ front, last, ?_⟩
      rw [he, List.append_assoc (closeToken token)]
    · exact ih (pre ++ [c]) (c :: token)

/-- A quote that stays open ends the tokens with all the text from it on. -/
theorem Unterminated.getLast?_tokensFrom {cs : List Char} {q : Nat} (h : Unterminated cs q) :
    ∃ token, (tokensFrom .start [] cs).getLast? = some token ∧ cs.drop q <:+ token := by
  have hq : q < cs.length := by
    obtain ⟨hlt, -⟩ := List.getElem?_eq_some_iff.mp h.1.1
    exact hlt
  obtain ⟨front, last, he⟩ := tokensFrom_append (cs.drop q) (cs.take q) [] []
  rw [List.take_append_drop, List.nil_append, after_nil] at he
  have hsep : ∀ k, (cs.take q).length ≤ k → ¬ Separator (cs.take q ++ cs.drop q) k := by
    intro k hk
    rw [List.take_append_drop]
    rw [List.length_take_of_le (Nat.le_of_lt hq)] at hk
    exact h.not_separator k hk
  have hne : (cs.drop q).reverse ++ last ≠ [] := by
    intro hnil
    have hdrop := List.reverse_eq_nil_iff.mp (List.append_eq_nil_iff.mp hnil).1
    rw [List.drop_eq_nil_iff] at hdrop
    omega
  have hend := tokensFrom_unseparated [] (cs.drop q) (cs.take q) last hsep
  rw [List.append_nil, tokensFrom] at hend
  rw [hend] at he
  refine ⟨last.reverse ++ cs.drop q, ?_, List.suffix_append _ _⟩
  rw [he, closeToken_of_ne_nil hne, List.getLast?_concat, List.reverse_append,
    List.reverse_reverse]

/-! ## Top theorem -/

/-- The tokens of a text are its segments; so they hold the characters that do not separate, in
order, none of them is empty, and a quote that stays open puts the rest of the text in the last. -/
theorem tokenize_eq_segments (text : String) :
    tokenize text = (segments (unbroken text)).map String.ofList ∧
      (tokenize text).flatMap String.toList =
        ((unbroken text).zipIdx.filter fun p => ¬ Separator (unbroken text) p.2).map Prod.fst ∧
      "" ∉ tokenize text ∧
      ∀ q, Unterminated (unbroken text) q →
        ∃ token, (tokenize text).getLast? = some token ∧ (unbroken text).drop q <:+ token.toList := by
  unfold tokenize
  refine ⟨by rw [tokensFrom_start], ?_, ?_, ?_⟩
  · have h := flatten_tokensFrom (unbroken text) [] []
    rw [after_nil, List.reverse_nil, List.nil_append, List.nil_append, List.length_nil] at h
    rw [List.flatMap_map, ← h]
    simp [List.flatMap_id']
  · intro hmem
    obtain ⟨token, ht, he⟩ := List.mem_map.mp hmem
    rw [String.ofList_eq_empty_iff] at he
    exact nil_not_mem_tokensFrom _ _ _ (he ▸ ht)
  · intro q hq
    obtain ⟨token, ht, hs⟩ := hq.getLast?_tokensFrom
    refine ⟨String.ofList token, ?_, by rwa [String.toList_ofList]⟩
    rw [List.getLast?_map, ht, Option.map_some]

example : segments "a \"b c\"d".toList = ["a".toList, "\"b c\"d".toList] := by decide

end BuildCommands.Argument
