import BuildCommands.Proofs.Rejoin

/-!
# Tokens with white space between them

Closed tokens may be written with any spacing between them, line breaks included, and in front of the
first and behind the last.  Each of them ends with the scan outside quotes, so the scan finds them
again; and only such tokens come out of a scan, but for a quote that the last may leave open.

    tokenize (spaced lead parts) = the tokens of parts                        (tokenize_spaced)
    (∃ text, tokenize text = tokens) ↔ tokens of one line, closed but for the last
-/

namespace BuildCommands.Argument

/-! ## Definitions -/

/-- White space that separates tokens: spaces, tabs and line breaks. -/
def IsSpacing (cs : List Char) : Prop := ∀ c ∈ cs, isSeparator c = true ∨ c = '\r' ∨ c = '\n'

instance (cs : List Char) : Decidable (IsSpacing cs) := List.decidableBAll _ cs

/-- A lead and then each token with what stands behind it. -/
def spaced (lead : List Char) (parts : List (List Char × List Char)) : List Char :=
  lead ++ parts.flatMap fun p => p.1 ++ p.2

/-! ## Spacing without line breaks -/

/-- Spacing starts with a separator once its line breaks are spaces. -/
theorem exists_replaceLineBreaks_spacing {gap : List Char} (h : IsSpacing gap) (hne : gap ≠ [])
    (rest : List Char) : ∃ c tail,
      Text.replaceLineBreaks ' ' (gap ++ rest) = c :: tail ∧ isSeparator c = true := by
  obtain ⟨c, gap, rfl⟩ := List.exists_cons_of_ne_nil hne
  rcases h c List.mem_cons_self with hc | rfl | rfl
  · have hr : c ≠ '\r' := fun he => absurd hc (by rw [he]; decide)
    have hn : c ≠ '\n' := fun he => absurd hc (by rw [he]; decide)
    exact ⟨c, _, Text.replaceLineBreaks_cons hr hn _, hc⟩
  · -- a line feed behind the CR belongs to the same break
    rw [List.cons_append]
    generalize gap ++ rest = cs
    unfold Text.replaceLineBreaks
    split
    · next he => cases he
    · exact ⟨_, _, rfl, rfl⟩
    · next he => exact ⟨_, _, rfl, by rw [if_pos (Or.inl (List.cons.inj he).1.symm)]; rfl⟩
  · exact ⟨' ', Text.replaceLineBreaks ' ' (gap ++ rest), by simp [Text.replaceLineBreaks], rfl⟩

/-- Spacing holds separators only once its line breaks are spaces. -/
theorem isSeparator_replaceLineBreaks {gap : List Char} (h : IsSpacing gap) :
    ∀ c ∈ Text.replaceLineBreaks ' ' gap, isSeparator c = true := by
  fun_induction Text.replaceLineBreaks ' ' gap with
  | case1 => simp
  | case2 rest ih =>
    obtain ⟨-, -, hrest⟩ := (List.forall_mem_cons.mp h).imp_right List.forall_mem_cons.mp
    exact List.forall_mem_cons.mpr ⟨rfl, ih hrest⟩
  | case3 c rest _ ih =>
    obtain ⟨hc, hrest⟩ := List.forall_mem_cons.mp h
    refine List.forall_mem_cons.mpr ⟨?_, ih hrest⟩
    split
    · rfl
    · next hbreak => exact hc.resolve_right hbreak

/-- A token of one line stays as it is, whatever spacing stands before it. -/
theorem replaceLineBreaks_lead_token {token : List Char} (hne : token ≠ []) (h : OneLine token)
    (lead rest : List Char) :
    Text.replaceLineBreaks ' ' (lead ++ (token ++ rest)) =
      Text.replaceLineBreaks ' ' lead ++ (token ++ Text.replaceLineBreaks ' ' rest) := by
  rw [← Text.replaceLineBreaks_append_of_not_mem h.1 h.2]
  obtain ⟨c, token, rfl⟩ := List.exists_cons_of_ne_nil hne
  exact Text.replaceLineBreaks_append (fun hc => h.2 (hc ▸ List.mem_cons_self)) _ _

/-! ## Scanning spaced tokens -/

/-- The scan passes over separators between tokens. -/
theorem tokensFrom_separators {seps : List Char} (h : ∀ c ∈ seps, isSeparator c = true)
    (rest : List Char) : tokensFrom .start [] (seps ++ rest) = tokensFrom .start [] rest := by
  induction seps with
  | nil => rfl
  | cons c seps ih =>
    obtain ⟨hc, hseps⟩ := List.forall_mem_cons.mp h
    have hsep : ScanState.start.separates c = true := hc
    rw [List.cons_append, tokensFrom, if_pos hsep, next_of_separates hsep, ih hseps]
    rfl

/-- The scan ends a closed token where the text ends or goes on with a separator. -/
theorem tokensFrom_closed_append {token rest : List Char} (h : IsClosed token)
    (hrest : rest = [] ∨ ∃ c tail, rest = c :: tail ∧ isSeparator c = true) :
    tokensFrom .start [] (token ++ rest) = token :: tokensFrom .start [] rest := by
  rcases hrest with rfl | ⟨c, tail, rfl, hc⟩
  · rw [List.append_nil, tokensFrom_token h.toIsToken]
    rfl
  · have hskip : ∀ x ∈ [c], isSeparator x = true := by simpa using hc
    rw [tokensFrom_closed h hc, ← tokensFrom_separators hskip tail]
    rfl

/-- The scan of spaced tokens yields the tokens.  The induction goes through the parts, and what
stands behind a token is the lead of the next. -/
theorem tokensFrom_spaced (parts : List (List Char × List Char)) : ∀ lead : List Char,
    IsSpacing lead → (∀ p ∈ parts, IsClosed p.1 ∧ OneLine p.1 ∧ IsSpacing p.2) →
    (∀ p ∈ parts.dropLast, p.2 ≠ []) →
    tokensFrom .start [] (Text.replaceLineBreaks ' ' (spaced lead parts)) = parts.map Prod.fst := by
  induction parts with
  | nil =>
    intro lead hlead _ _
    have hseps := tokensFrom_separators (isSeparator_replaceLineBreaks hlead) []
    rw [List.append_nil] at hseps
    rw [spaced, List.flatMap_nil, List.append_nil, hseps]
    rfl
  | cons p parts ih =>
    intro lead hlead hparts hgaps
    obtain ⟨token, gap⟩ := p
    obtain ⟨⟨hclosed, hline, hgap⟩, hrest⟩ := List.forall_mem_cons.mp hparts
    have hgaps' : ∀ p ∈ parts.dropLast, p.2 ≠ [] := by
      intro p hp
      refine hgaps p ?_
      rw [List.dropLast_cons_of_ne_nil (List.ne_nil_of_mem (List.dropLast_subset _ hp))]
      exact List.mem_cons_of_mem _ hp
    have hsplit : spaced lead ((token, gap) :: parts) = lead ++ (token ++ spaced gap parts) := by
      simp [spaced]
    have hunbroken : Text.replaceLineBreaks ' ' (spaced lead ((token, gap) :: parts)) =
        Text.replaceLineBreaks ' ' lead ++
          (token ++ Text.replaceLineBreaks ' ' (spaced gap parts)) := by
      rw [hsplit]
      exact replaceLineBreaks_lead_token hclosed.nonempty hline lead (spaced gap parts)
    have hnext : Text.replaceLineBreaks ' ' (spaced gap parts) = [] ∨ ∃ c tail,
        Text.replaceLineBreaks ' ' (spaced gap parts) = c :: tail ∧ isSeparator c = true := by
      by_cases hnil : gap = []
      · cases parts with
        | nil => exact Or.inl (by rw [hnil]; rfl)
        | cons next parts => exact absurd hnil (hgaps (token, gap) List.mem_cons_self)
      · exact Or.inr (exists_replaceLineBreaks_spacing hgap hnil _)
    rw [hunbroken, tokensFrom_separators (isSeparator_replaceLineBreaks hlead),
      tokensFrom_closed_append hclosed hnext, ih gap hgap hrest hgaps']
    rfl

/-! ## The tokens of a scan -/

theorem tokenList_iff (tokens : List (List Char)) :
    TokenList tokens ↔
      (∀ token ∈ tokens, IsToken token) ∧ ∀ token ∈ tokens.dropLast, IsClosed token := by
  induction tokens with
  | nil => simp [TokenList]
  | cons token tokens ih =>
    cases tokens with
    | nil => simp [TokenList]
    | cons next tokens =>
      rw [TokenList, ih, List.dropLast_cons_cons]
      constructor
      · rintro ⟨hclosed, htokens, hfront⟩
        exact ⟨List.forall_mem_cons.mpr ⟨hclosed.toIsToken, htokens⟩,
          List.forall_mem_cons.mpr ⟨hclosed, hfront⟩⟩
      · rintro ⟨htokens, hfront⟩
        exact ⟨hfront token List.mem_cons_self, (List.forall_mem_cons.mp htokens).2,
          (List.forall_mem_cons.mp hfront).2⟩

/-! ## Top theorem -/

/-- Closed tokens of one line are cut apart again, whatever spacing stands between them, before the
first and behind the last.  The lists that some text is cut into are those of tokens of one line, of
which all but the last are closed. -/
theorem tokenize_spaced :
    (∀ (lead : List Char) (parts : List (List Char × List Char)), IsSpacing lead →
      (∀ p ∈ parts, IsClosed p.1 ∧ OneLine p.1 ∧ IsSpacing p.2) →
      (∀ p ∈ parts.dropLast, p.2 ≠ []) →
      tokenize (String.ofList (spaced lead parts)) = parts.map fun p => String.ofList p.1) ∧
    ∀ tokens : List String, (∃ text, tokenize text = tokens) ↔
      (∀ token ∈ tokens, IsToken token.toList ∧ OneLine token.toList) ∧
        ∀ token ∈ tokens.dropLast, IsClosed token.toList := by
  refine ⟨fun lead parts hlead hparts hgaps => ?_, fun tokens => ⟨?_, ?_⟩⟩
  · have hscan := tokensFrom_spaced parts lead hlead hparts hgaps
    rw [tokenize, unbroken, String.toList_ofList, hscan, List.map_map]
    rfl
  · rintro ⟨text, rfl⟩
    obtain ⟨htokens, hfront⟩ := (tokenList_iff _).mp (tokenList_start (unbroken text))
    rw [← map_toList_tokenize] at htokens hfront
    refine ⟨fun token ht => ⟨htokens _ (List.mem_map_of_mem ht), oneLine_of_mem_tokenize ht⟩,
      fun token ht => hfront _ ?_⟩
    rw [← List.map_dropLast]
    exact List.mem_map_of_mem ht
  · rintro ⟨htokens, hfront⟩
    have hlist : TokenList (tokens.map String.toList) := by
      rw [tokenList_iff, ← List.map_dropLast]
      exact ⟨List.forall_mem_map.mpr fun token ht => (htokens token ht).1,
        List.forall_mem_map.mpr hfront⟩
    have hmap : (tokens.map String.toList).map String.ofList = tokens := by simp
    refine ⟨" ".intercalate tokens, ?_⟩
    rw [tokenize, unbroken_intercalate fun token ht => (htokens token ht).2,
      tokensFrom_intercalate hlist, hmap]

/-- A backslash that escapes nothing ends the first token, and a CR and an LF each the white space
around the second. -/
theorem tokenize_spaced_two :
    (IsClosed "a\\".toList ∧ OneLine "a\\".toList ∧ IsSpacing "\t\n".toList) ∧
      (IsClosed "\"b\tc\"d".toList ∧ OneLine "\"b\tc\"d".toList ∧ IsSpacing "\r".toList) ∧
      tokenize "\r\n a\\\t\n\"b\tc\"d\r" = ["a\\", "\"b\tc\"d"] := by
  have hfirst : IsClosed "a\\".toList ∧ OneLine "a\\".toList ∧ IsSpacing "\t\n".toList := by
    decide
  have hsecond : IsClosed "\"b\tc\"d".toList ∧ OneLine "\"b\tc\"d".toList ∧
      IsSpacing "\r".toList := by decide
  refine ⟨hfirst, hsecond, ?_⟩
  exact tokenize_spaced.1 "\r\n ".toList
    [("a\\".toList, "\t\n".toList), ("\"b\tc\"d".toList, "\r".toList)] (by decide)
    (List.forall_mem_cons.mpr ⟨hfirst, List.forall_mem_cons.mpr ⟨hsecond, nofun⟩⟩) (by decide)

end BuildCommands.Argument
