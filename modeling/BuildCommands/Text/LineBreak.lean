/-!
# Line breaks

Two ways to read them.  `replaceLineBreaks` knows CR LF, CR and LF, each one break, and writes one
character in place of each.  `splitLines` cuts a text at every line boundary of Unicode, CR LF
being one boundary; a boundary at the end starts no further line.
-/

namespace BuildCommands.Text

/-! ## Definitions -/

/-- Every CR LF pair, and every other CR and LF, becomes the character `mark`. -/
def replaceLineBreaks (mark : Char) : List Char → List Char
  | [] => []
  | '\r' :: '\n' :: rest => mark :: replaceLineBreaks mark rest
  | c :: rest =>
    (if c = '\r' ∨ c = '\n' then mark else c) :: replaceLineBreaks mark rest

/-- The characters that end a line: LF, VT, FF, CR, the separators U+001C to U+001E, NEL and the
line and paragraph separators. -/
def isLineEnd (c : Char) : Bool :=
  let n := c.toNat
  (0x0a ≤ n && n ≤ 0x0d) || (0x1c ≤ n && n ≤ 0x1e) || n == 0x85 || n == 0x2028 || n == 0x2029

/-- The lines of the text behind a line begun with `line`, which is kept in reverse. -/
def splitLinesFrom (line : List Char) : List Char → List (List Char)
  | [] => if line.isEmpty then [] else [line.reverse]
  | '\r' :: '\n' :: rest => line.reverse :: splitLinesFrom [] rest
  | c :: rest =>
    if isLineEnd c then line.reverse :: splitLinesFrom [] rest
    else splitLinesFrom (c :: line) rest

/-- The lines of a text, without their ends. -/
def splitLines (cs : List Char) : List (List Char) := splitLinesFrom [] cs

/-- How many line feeds a text holds. -/
def countLineFeeds (cs : List Char) : Nat := cs.count '\n'

/-! ## Lemmas -/

@[simp] theorem splitLines_nil : splitLines [] = [] := rfl

@[simp] theorem replaceLineBreaks_nil (mark : Char) : replaceLineBreaks mark [] = [] := rfl

/-- A character that breaks no line stays in front. -/
theorem replaceLineBreaks_cons {mark c : Char} (hr : c ≠ '\r') (hn : c ≠ '\n') (rest : List Char) :
    replaceLineBreaks mark (c :: rest) = c :: replaceLineBreaks mark rest := by
  rw [replaceLineBreaks, if_neg (by simp [hr, hn])]
  intro _ h _
  exact hr h

/-- A front without line breaks stays as it is. -/
theorem replaceLineBreaks_append_of_not_mem {mark : Char} {cs : List Char} (hr : '\r' ∉ cs)
    (hn : '\n' ∉ cs) (rest : List Char) :
    replaceLineBreaks mark (cs ++ rest) = cs ++ replaceLineBreaks mark rest := by
  induction cs with
  | nil => rfl
  | cons c cs ih =>
    rw [List.mem_cons, not_or] at hr hn
    rw [List.cons_append, replaceLineBreaks_cons (Ne.symm hr.1) (Ne.symm hn.1), ih hr.2 hn.2]
    rfl

/-- A text without line breaks stays as it is. -/
theorem replaceLineBreaks_of_not_mem {mark : Char} {cs : List Char} (hr : '\r' ∉ cs)
    (hn : '\n' ∉ cs) : replaceLineBreaks mark cs = cs := by
  have h : replaceLineBreaks mark (cs ++ []) = cs ++ replaceLineBreaks mark [] :=
    replaceLineBreaks_append_of_not_mem hr hn []
  rwa [List.append_nil, replaceLineBreaks_nil, List.append_nil] at h

/-- What stands before a character that completes no line break is rewritten by itself. -/
theorem replaceLineBreaks_append {mark c : Char} (hc : c ≠ '\n') (rest cs : List Char) :
    replaceLineBreaks mark (cs ++ c :: rest) =
      replaceLineBreaks mark cs ++ replaceLineBreaks mark (c :: rest) := by
  fun_induction replaceLineBreaks mark cs with
  | case1 => rfl
  | case2 front ih => rw [List.cons_append, List.cons_append, replaceLineBreaks, ih]; rfl
  | case3 d front hd ih =>
    rw [List.cons_append, replaceLineBreaks, ih]
    · rfl
    · rintro tail rfl h
      cases front with
      | nil => exact hc (List.cons.inj h).1
      | cons e front =>
        obtain ⟨rfl, -⟩ := List.cons.inj h
        exact hd front rfl rfl

/-- No line break is left unless the mark is one. -/
theorem of_mem_replaceLineBreaks {mark x : Char} {cs : List Char}
    (h : x ∈ replaceLineBreaks mark cs) : x = mark ∨ x ≠ '\r' ∧ x ≠ '\n' := by
  fun_induction replaceLineBreaks mark cs with
  | case1 => cases h
  | case2 rest ih =>
    rcases List.mem_cons.mp h with h | h
    · exact Or.inl h
    · exact ih h
  | case3 c rest hcr ih =>
    rcases List.mem_cons.mp h with h | h
    · split at h
      · exact Or.inl h
      · next hc =>
        rw [not_or] at hc
        exact Or.inr (h ▸ hc)
    · exact ih h

end BuildCommands.Text
