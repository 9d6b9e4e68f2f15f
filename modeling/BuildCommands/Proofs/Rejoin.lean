import BuildCommands.Proofs.Lists
import BuildCommands.Proofs.Segments
import BuildCommands.Text.Blank

/-!
# Tokens with one space between them

A token is a text in which nothing separates.  One that leaves no quote open is closed, and the scan
of a text ends it at any separator behind it.  The scan yields closed tokens but for the last, so
writing its tokens with one space between them and scanning again yields the same tokens:

    tokenize (" ".intercalate (tokenize text)) = tokenize text          (tokenize_intercalate)
-/

namespace BuildCommands.Argument

/-! ## Definitions -/

/-- A text in which nothing separates. -/
structure IsToken (cs : List Char) : Prop where
  nonempty : cs ≠ []
  unseparated : ∀ k, ¬ Separator cs k

theorem isToken_iff (cs : List Char) :
    IsToken cs ↔ cs ≠ [] ∧ ∀ k < cs.length, ¬ Separator cs k :=
  ⟨fun h => ⟨h.nonempty, fun k _ => h.unseparated k⟩,
    fun h => ⟨h.1, fun k hk => h.2 k hk.lt_length hk⟩⟩

instance (cs : List Char) : Decidable (IsToken cs) := decidable_of_iff' _ (isToken_iff cs)

/-- A token that leaves no quote open. -/
structure IsClosed (cs : List Char) : Prop extends IsToken cs where
  even : activeQuotes cs % 2 = 0

instance (cs : List Char) : Decidable (IsClosed cs) :=
  decidable_of_iff (IsToken cs ∧ activeQuotes cs % 2 = 0)
    ⟨fun h => ⟨h.1, h.2⟩, fun h => ⟨h.toIsToken, h.even⟩⟩

/-- A text without line breaks. -/
def OneLine (cs : List Char) : Prop := '\r' ∉ cs ∧ '\n' ∉ cs

instance (cs : List Char) : Decidable (OneLine cs) := inferInstanceAs (Decidable (_ ∧ _))

/-- Tokens of which only the last may leave a quote open. -/
def TokenList : List (List Char) → Prop
  | [] => True
  | [token] => IsToken token
  | token :: next :: tokens => IsClosed token ∧ TokenList (next :: tokens)

/-! ## Scanning tokens -/

/-- Outside quotes a separator brings the scan back to its start. -/
theorem next_of_separates {s : ScanState} {c : Char} (h : s.separates c = true) :
    s.next c = .start := by
  unfold ScanState.separates isSeparator at h
  simp only [Bool.and_eq_true, Bool.not_eq_true', Bool.or_eq_true, beq_iff_eq] at h
  obtain ⟨hq, rfl | rfl⟩ := h
  · simp [ScanState.next, ScanState.start, hq]
  · simp [ScanState.next, ScanState.start, hq]

theorem closeToken_reverse {token : List Char} (h : token ≠ []) :
    closeToken token.reverse = [token] := by
  have hne : token.reverse ≠ [] := by simpa using h
  rw [closeToken_of_ne_nil hne, List.reverse_reverse]

/-- The scan of a token yields the token. -/
theorem tokensFrom_token {token : List Char} (h : IsToken token) :
    tokensFrom .start [] token = [token] := by
  have hscan := tokensFrom_unseparated [] token [] [] fun k _ => h.unseparated k
  rw [List.append_nil, List.append_nil, after_nil, tokensFrom] at hscan
  rw [hscan]
  exact closeToken_reverse h.nonempty

/-- The scan ends a closed token at a separator and starts again behind it. -/
theorem tokensFrom_closed {token : List Char} (h : IsClosed token) {c : Char}
    (hc : isSeparator c = true) (rest : List Char) :
    tokensFrom .start [] (token ++ c :: rest) = token :: tokensFrom .start [] rest := by
  have hscan := tokensFrom_unseparated (c :: rest) token [] [] fun k _ => h.unseparated k
  have heven := h.even
  have hsep : (ScanState.after token).separates c = true := by
    rw [after_eq]
    simp only [ScanState.separates, hc, Bool.and_true, Bool.not_eq_true', decide_eq_false_iff_not]
    omega
  rw [List.append_nil, after_nil, List.nil_append, tokensFrom, if_pos hsep,
    next_of_separates hsep, closeToken_reverse h.nonempty] at hscan
  rw [hscan]
  rfl

/-- The scan of tokens with one space between them yields the tokens. -/
theorem tokensFrom_intercalate {tokens : List (List Char)} (h : TokenList tokens) :
    tokensFrom .start [] ([' '].intercalate tokens) = tokens := by
  induction tokens with
  | nil => rfl
  | cons token tokens ih =>
    cases tokens with
    | nil =>
      rw [List.intercalate_singleton]
      exact tokensFrom_token h
    | cons next tokens =>
      rw [List.intercalate_cons_cons, List.append_assoc, List.singleton_append,
        tokensFrom_closed h.1 rfl, ih h.2]

/-! ## The tokens of a scan -/

theorem TokenList.cons {token : List Char} {tokens : List (List Char)} (h : IsClosed token)
    (ht : TokenList tokens) : TokenList (token :: tokens) := by
  cases tokens with
  | nil => exact h.toIsToken
  | cons next tokens => exact ⟨h, ht⟩

/-- The scan yields tokens, of which only the last may leave a quote open.  The token it has open is
kept in reverse, and nothing separates in it. -/
theorem tokenList_tokensFrom (rest : List Char) : ∀ token : List Char,
    (∀ k, ¬ Separator token.reverse k) →
    TokenList (tokensFrom (.after token.reverse) token rest) := by
  induction rest with
  | nil =>
    intro token h
    by_cases hnil : token = []
    · subst hnil
      trivial
    · have hne : token.reverse ≠ [] := by simpa using hnil
      rw [tokensFrom, closeToken_of_ne_nil hnil]
      exact ⟨hne, h⟩
  | cons c rest ih =>
    intro token h
    rw [tokensFrom]
    by_cases hsep : (ScanState.after token.reverse).separates c = true
    · have htail : TokenList (tokensFrom .start [] rest) := ih [] fun k hk => by
        rcases hk.1 with hk | hk <;> simp at hk
      rw [if_pos hsep, next_of_separates hsep]
      by_cases hnil : token = []
      · subst hnil
        exact htail
      · have hne : token.reverse ≠ [] := by simpa using hnil
        have heven : activeQuotes token.reverse % 2 = 0 := by
          rw [after_eq] at hsep
          simp only [ScanState.separates, Bool.and_eq_true, Bool.not_eq_true',
            decide_eq_false_iff_not] at hsep
          omega
        rw [closeToken_of_ne_nil hnil]
        exact .cons ⟨⟨hne, h⟩, heven⟩ htail
    · rw [if_neg hsep, ← after_concat, ← List.reverse_cons]
      apply ih
      intro k hk
      rw [List.reverse_cons] at hk
      have hlt := hk.lt_length
      rw [List.length_append, List.length_singleton] at hlt
      rcases Nat.lt_or_eq_of_le (Nat.le_of_lt_succ hlt) with hk' | rfl
      · exact h k ((separator_append _ [c] hk').mp hk)
      · exact hsep ((separates_iff token.reverse [] c).mpr hk)

/-! ## Tokens of a text -/

theorem not_separator_nil (k : Nat) : ¬ Separator [] k := fun h => by
  have := h.lt_length
  simp at this

theorem tokenList_start (cs : List Char) : TokenList (tokensFrom .start [] cs) :=
  tokenList_tokensFrom cs [] not_separator_nil

/-- The tokens hold characters of the text only. -/
theorem mem_of_mem_tokensFrom {cs token : List Char} {x : Char}
    (ht : token ∈ tokensFrom .start [] cs) (hx : x ∈ token) : x ∈ cs := by
  have hflat : x ∈ (tokensFrom .start [] cs).flatten := List.mem_flatten.mpr ⟨token, ht, hx⟩
  have h := flatten_tokensFrom cs [] []
  rw [after_nil, List.reverse_nil, List.nil_append] at h
  rw [h] at hflat
  obtain ⟨⟨y, k⟩, hy, rfl⟩ := List.mem_map.mp hflat
  obtain ⟨-, -, hget⟩ := List.mem_zipIdx (List.mem_filter.mp hy).1
  exact hget ▸ List.getElem_mem _

theorem map_toList_tokenize (text : String) :
    (tokenize text).map String.toList = tokensFrom .start [] (unbroken text) := by
  simp [tokenize]

/-- The tokens of a text with one space between them, as characters. -/
theorem toList_intercalate_tokenize (text : String) :
    (" ".intercalate (tokenize text)).toList =
      [' '].intercalate (tokensFrom .start [] (unbroken text)) := by
  rw [String.toList_intercalate, map_toList_tokenize]
  rfl

/-- The tokens of a text hold no line break. -/
theorem oneLine_of_mem_tokenize {text token : String} (h : token ∈ tokenize text) :
    OneLine token.toList := by
  have ht : token.toList ∈ tokensFrom .start [] (unbroken text) := by
    rw [← map_toList_tokenize]
    exact List.mem_map_of_mem h
  have hbreak : ∀ x ∈ token.toList, x ≠ '\r' ∧ x ≠ '\n' := by
    intro x hx
    rcases Text.of_mem_replaceLineBreaks (mem_of_mem_tokensFrom ht hx) with rfl | h
    · decide
    · exact h
  exact ⟨fun h => (hbreak _ h).1 rfl, fun h => (hbreak _ h).2 rfl⟩

/-- Texts without line breaks have none with one space between them. -/
theorem unbroken_intercalate {tokens : List String}
    (h : ∀ token ∈ tokens, OneLine token.toList) :
    unbroken (" ".intercalate tokens) = [' '].intercalate (tokens.map String.toList) := by
  have hnone : ∀ b, b ≠ ' ' → (∀ token ∈ tokens, b ∉ token.toList) →
      b ∉ [' '].intercalate (tokens.map String.toList) := by
    intro b hb hnone hx
    rcases of_mem_intercalate hx with hx | ⟨cs, hcs, hx⟩
    · exact hb hx
    · obtain ⟨token, ht, rfl⟩ := List.mem_map.mp hcs
      exact hnone token ht hx
  rw [unbroken, String.toList_intercalate]
  exact Text.replaceLineBreaks_of_not_mem (hnone '\r' (by decide) fun token ht => (h token ht).1)
    (hnone '\n' (by decide) fun token ht => (h token ht).2)

/-- Writing the tokens with one space between them and cutting again yields the same tokens. -/
theorem tokenize_intercalate (text : String) :
    tokenize (" ".intercalate (tokenize text)) = tokenize text := by
  show (tokensFrom .start [] (unbroken (" ".intercalate (tokenize text)))).map String.ofList = _
  rw [unbroken_intercalate fun token => oneLine_of_mem_tokenize, map_toList_tokenize,
    tokensFrom_intercalate (tokenList_start _)]
  rfl

/-- A token that has begun is the first. -/
theorem exists_tokensFrom_cons (cs : List Char) : ∀ (s : ScanState) (token : List Char),
    token ≠ [] → ∃ t tokens, tokensFrom s token cs = (token.reverse ++ t) :: tokens := by
  induction cs with
  | nil =>
    intro s token h
    exact ⟨[], [], by rw [tokensFrom, closeToken_of_ne_nil h, List.append_nil]⟩
  | cons c rest ih =>
    intro s token h
    rw [tokensFrom]
    split
    · exact ⟨[], _, by rw [closeToken_of_ne_nil h, List.append_nil, List.singleton_append]⟩
    · obtain ⟨t, tokens, he⟩ := ih (s.next c) (c :: token) (List.cons_ne_nil _ _)
      exact ⟨c :: t, tokens, by rw [he]; simp⟩

/-- The text of the tokens starts with the character that the text starts with, if that is not
blank. -/
theorem head?_intercalate_tokenize {text : String} {c : Char} {rest : List Char}
    (h : text.toList = c :: rest) (hc : Text.isBlank c = false) :
    (" ".intercalate (tokenize text)).toList.head? = some c ∧ tokenize text ≠ [] := by
  have hne : ∀ b : Char, Text.isBlank b = true → c ≠ b := by
    rintro b hb rfl
    rw [hc] at hb
    cases hb
  have hsep : ¬ ScanState.start.separates c = true := by
    simp [ScanState.separates, ScanState.start, isSeparator, hne ' ' rfl, hne '\t' rfl]
  obtain ⟨t, tokens, ht⟩ := exists_tokensFrom_cons (Text.replaceLineBreaks ' ' rest)
    (ScanState.start.next c) [c] (List.cons_ne_nil _ _)
  have hscan : tokensFrom .start [] (unbroken text) = (c :: t) :: tokens := by
    rw [unbroken, h, Text.replaceLineBreaks_cons (hne '\r' rfl) (hne '\n' rfl), tokensFrom,
      if_neg hsep, ht]
    rfl
  constructor
  · rw [toList_intercalate_tokenize, hscan]
    cases tokens with
    | nil => rw [List.intercalate_singleton, List.head?_cons]
    | cons next tokens =>
      rw [List.intercalate_cons_cons, List.cons_append, List.cons_append, List.head?_cons]
  · rw [tokenize, hscan]
    exact List.cons_ne_nil _ _

end BuildCommands.Argument
