import BuildCommands.Proofs.Rejoin

/-!
# Arguments in quotes

Any list of values can be written as an argument text: each value in quotes, one space between each
two.  A quote inside a value is escaped, and so are the backslashes before it and at the end, which
would otherwise count as escapes.

    (tokenize (" ".intercalate (values.map quote))).map value = values       (map_value_tokenize)

Scanner and reader count the backslashes each for itself; behind the run that `quote` writes, both
stand where they stood before it.
-/

namespace BuildCommands.Argument

/-! ## Definitions -/

/-- The characters of a value between quotes, behind a run of backslashes of the given length: a run
is doubled before a quote and at the end, and one more backslash escapes the quote. -/
def quotedFrom (run : Nat) : List Char → List Char
  | [] => List.replicate (2 * run) '\\'
  | c :: rest =>
    if c = '\\' then quotedFrom (run + 1) rest
    else if c = '"' then List.replicate (2 * run + 1) '\\' ++ '"' :: quotedFrom 0 rest
    else List.replicate run '\\' ++ c :: quotedFrom 0 rest

/-- The value in quotes. -/
def quote (value : String) : String := String.ofList ('"' :: quotedFrom 0 value.toList ++ ['"'])

/-! ## Runs of backslashes -/

theorem tokensFrom_replicate (rest : List Char) (inQuotes : Bool) : ∀ (n : Nat) (escaping : Bool)
    (token : List Char), tokensFrom ⟨escaping, inQuotes⟩ token (List.replicate n '\\' ++ rest) =
      tokensFrom ⟨escaping ^^ decide (n % 2 = 1), inQuotes⟩ (List.replicate n '\\' ++ token) rest := by
  intro n
  induction n with
  | zero => simp
  | succ n ih =>
    intro escaping token
    have hsep : (ScanState.mk escaping inQuotes).separates '\\' = false := by
      simp [ScanState.separates, isSeparator]
    have hnext : (ScanState.mk escaping inQuotes).next '\\' = ⟨!escaping, inQuotes⟩ := rfl
    rw [List.replicate_succ, List.cons_append, tokensFrom, hsep, hnext, if_neg Bool.false_ne_true,
      ih, odd_succ]
    congr 1
    · cases escaping <;> simp
    · rw [List.append_cons, ← List.replicate_succ', List.replicate_succ]

theorem valueFrom_replicate (rest : List Char) : ∀ n run : Nat,
    valueFrom run (List.replicate n '\\' ++ rest) = valueFrom (run + n) rest := by
  intro n
  induction n with
  | zero => exact fun run => rfl
  | succ n ih =>
    intro run
    rw [List.replicate_succ, List.cons_append, valueFrom, if_pos rfl, ih, Nat.add_assoc,
      Nat.add_comm 1]

/-! ## A value in quotes -/

/-- Between quotes the scan adds to the token it has open, and comes to the closing quote as it came
to the value. -/
theorem tokensFrom_quotedFrom (rest : List Char) (cs : List Char) : ∀ (run : Nat)
    (token : List Char), tokensFrom ⟨false, true⟩ token (quotedFrom run cs ++ rest) =
      tokensFrom ⟨false, true⟩ ((quotedFrom run cs).reverse ++ token) rest := by
  induction cs with
  | nil =>
    intro run token
    have heven : decide (2 * run % 2 = 1) = false := by simp
    rw [quotedFrom, tokensFrom_replicate, heven, List.reverse_replicate]
    rfl
  | cons c cs ih =>
    intro run token
    by_cases hb : c = '\\'
    · rw [quotedFrom, if_pos hb, ih]
    by_cases hq : c = '"'
    · subst hq
      have hodd : decide ((2 * run + 1) % 2 = 1) = true := by simp
      rw [quotedFrom, if_neg hb, if_pos rfl, List.append_assoc, tokensFrom_replicate, hodd,
        List.cons_append, tokensFrom, if_neg (by decide)]
      exact (ih 0 _).trans (by simp)
    · have hnext : ∀ escaping, (ScanState.mk escaping true).next c = ⟨false, true⟩ := by
        intro escaping
        simp [ScanState.next, hb, hq]
      rw [quotedFrom, if_neg hb, if_neg hq, List.append_assoc, tokensFrom_replicate,
        List.cons_append, tokensFrom, hnext, if_neg (by simp [ScanState.separates])]
      exact (ih 0 _).trans (by simp)

/-- The scan reads a value in quotes as one token, and is then where it started. -/
theorem tokensFrom_quote (cs rest : List Char) :
    tokensFrom .start [] ('"' :: quotedFrom 0 cs ++ '"' :: rest) =
      tokensFrom .start ('"' :: quotedFrom 0 cs ++ ['"']).reverse rest := by
  have hopen : tokensFrom .start [] ('"' :: quotedFrom 0 cs ++ '"' :: rest) =
      tokensFrom ⟨false, true⟩ ['"'] (quotedFrom 0 cs ++ '"' :: rest) := rfl
  have hclose : ∀ token, tokensFrom ⟨false, true⟩ token ('"' :: rest) =
      tokensFrom .start ('"' :: token) rest := fun token => rfl
  rw [hopen, tokensFrom_quotedFrom, hclose]
  simp

/-- Values in quotes with one space between them are cut into the quoted values. -/
theorem tokensFrom_quotes (values : List (List Char)) :
    tokensFrom .start []
        ([' '].intercalate (values.map fun cs => '"' :: quotedFrom 0 cs ++ ['"'])) =
      values.map fun cs => '"' :: quotedFrom 0 cs ++ ['"'] := by
  induction values with
  | nil => rfl
  | cons cs values ih =>
    cases values with
    | nil =>
      rw [List.map_singleton, List.intercalate_singleton, tokensFrom_quote, tokensFrom]
      exact closeToken_reverse (List.cons_ne_nil _ _)
    | cons next values =>
      have hspace : ∀ token rest, tokensFrom .start token (' ' :: rest) =
          closeToken token ++ tokensFrom .start [] rest := fun token rest => rfl
      rw [List.map_cons] at ih
      rw [List.map_cons, List.map_cons, List.intercalate_cons_cons, List.append_assoc,
        List.append_assoc, List.singleton_append, List.singleton_append, tokensFrom_quote, hspace,
        ih, closeToken_reverse (List.append_ne_nil_of_right_ne_nil _ (List.cons_ne_nil _ _))]
      rfl

/-- The reader undoes what was written behind a run of backslashes that it still holds. -/
theorem valueFrom_quotedFrom (cs : List Char) : ∀ run : Nat,
    valueFrom 0 (quotedFrom run cs ++ ['"']) = List.replicate run '\\' ++ cs := by
  induction cs with
  | nil =>
    intro run
    have heven : 2 * run % 2 = 0 := Nat.mul_mod_right 2 run
    rw [quotedFrom, valueFrom_replicate, Nat.zero_add, valueFrom, if_neg (by decide), if_pos rfl,
      Nat.mul_div_cancel_left run Nat.two_pos, if_neg (by omega)]
    simp [valueFrom]
  | cons c cs ih =>
    intro run
    by_cases hb : c = '\\'
    · rw [quotedFrom, if_pos hb, ih, hb, List.append_cons _ _ cs, ← List.replicate_succ']
    by_cases hq : c = '"'
    · have hodd : (2 * run + 1) % 2 = 1 := by omega
      have hhalf : (2 * run + 1) / 2 = run := by omega
      rw [quotedFrom, if_neg hb, if_pos hq, List.append_assoc, valueFrom_replicate, Nat.zero_add,
        List.cons_append, valueFrom, if_neg (by decide), if_pos rfl, hhalf, if_pos hodd, ih, hq]
      simp
    · rw [quotedFrom, if_neg hb, if_neg hq, List.append_assoc, valueFrom_replicate, Nat.zero_add,
        List.cons_append, valueFrom, if_neg hb, if_neg hq, ih]
      rfl

theorem value_quote (s : String) : value (quote s) = s := by
  have hopen : valueFrom 0 ('"' :: quotedFrom 0 s.toList ++ ['"']) =
      valueFrom 0 (quotedFrom 0 s.toList ++ ['"']) := rfl
  rw [value, quote, String.toList_ofList, hopen, valueFrom_quotedFrom]
  exact String.ofList_toList

/-! ## Arguments -/

/-- Writing a value adds backslashes and quotes only. -/
theorem of_mem_quotedFrom {x : Char} (cs : List Char) : ∀ run : Nat,
    x ∈ quotedFrom run cs → x = '\\' ∨ x = '"' ∨ x ∈ cs := by
  induction cs with
  | nil =>
    intro run h
    exact Or.inl (List.eq_of_mem_replicate h)
  | cons c cs ih =>
    intro run h
    have hrest : ∀ run, x ∈ quotedFrom run cs → x = '\\' ∨ x = '"' ∨ x ∈ c :: cs :=
      fun run h => (ih run h).imp_right fun h => h.imp_right (List.mem_cons_of_mem c)
    rw [quotedFrom] at h
    split at h
    · exact hrest _ h
    split at h
    · rcases List.mem_append.mp h with h | h
      · exact Or.inl (List.eq_of_mem_replicate h)
      rcases List.mem_cons.mp h with h | h
      · exact Or.inr (Or.inl h)
      · exact hrest _ h
    · rcases List.mem_append.mp h with h | h
      · exact Or.inl (List.eq_of_mem_replicate h)
      rcases List.mem_cons.mp h with rfl | h
      · exact Or.inr (Or.inr List.mem_cons_self)
      · exact hrest _ h

theorem toList_quote (s : String) : (quote s).toList = '"' :: quotedFrom 0 s.toList ++ ['"'] := by
  rw [quote, String.toList_ofList]

/-- A value without line breaks has none in quotes. -/
theorem oneLine_quote {v : String} (h : OneLine v.toList) : OneLine (quote v).toList := by
  have hnone : ∀ b, b ≠ '\\' → b ≠ '"' → b ∉ v.toList → b ∉ (quote v).toList := by
    intro b hb hq hv hmem
    rw [toList_quote] at hmem
    rcases List.mem_append.mp hmem with hmem | hmem
    · rcases List.mem_cons.mp hmem with hmem | hmem
      · exact hq hmem
      rcases of_mem_quotedFrom _ _ hmem with hmem | hmem | hmem
      · exact hb hmem
      · exact hq hmem
      · exact hv hmem
    · exact hq (List.mem_singleton.mp hmem)
  exact ⟨hnone '\r' (by decide) (by decide) h.1, hnone '\n' (by decide) (by decide) h.2⟩

/-- The arguments hold no line break if the values hold none. -/
theorem unbroken_intercalate_quote {values : List String}
    (h : ∀ v ∈ values, '\r' ∉ v.toList ∧ '\n' ∉ v.toList) :
    unbroken (" ".intercalate (values.map quote)) =
      [' '].intercalate ((values.map String.toList).map fun cs =>
        '"' :: quotedFrom 0 cs ++ ['"']) := by
  have hline : ∀ token ∈ values.map quote, OneLine token.toList := by
    intro token ht
    obtain ⟨v, hv, rfl⟩ := List.mem_map.mp ht
    exact oneLine_quote (h v hv)
  rw [unbroken_intercalate hline, List.map_map, List.map_map]
  congr 1
  exact List.map_congr_left fun v _ => toList_quote v

/-- The tool receives the values that were written, whatever quotes, backslashes, spaces and tabs
they hold, and the empty ones as well. -/
theorem map_value_tokenize {values : List String}
    (h : ∀ v ∈ values, '\r' ∉ v.toList ∧ '\n' ∉ v.toList) :
    (tokenize (" ".intercalate (values.map quote))).map value = values := by
  unfold tokenize
  rw [unbroken_intercalate_quote h, tokensFrom_quotes, List.map_map, List.map_map, List.map_map]
  conv => rhs; rw [← List.map_id values]
  exact List.map_congr_left fun v _ => value_quote v

/-- A trailing backslash, an escaped quote behind backslashes, a tab, and an empty value. -/
theorem map_value_tokenize_four :
    (tokenize "\"C:\\a b\\\\\" \"x\\\\\\\"y\" \"\t\" \"\"").map value =
      ["C:\\a b\\", "x\\\"y", "\t", ""] := by
  have hvalues : ∀ v ∈ ["C:\\a b\\", "x\\\"y", "\t", ""],
      '\r' ∉ v.toList ∧ '\n' ∉ v.toList := by decide
  exact map_value_tokenize hvalues

end BuildCommands.Argument
