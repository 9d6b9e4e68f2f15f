import BuildCommands.Arguments.Settings
import Mathlib.Algebra.BigOperators.Group.List.Basic
import Mathlib.Data.List.SplitBy

/-!
# Help texts at all widths

Laying a manual out breaks lines and indents them.  This moves words, but none is changed or lost:
without spaces and line ends a text of the manual is the same for all numbers of columns.

    ink (manual.usage columns).toList = ink manual.usageText                        (ink_usage)
    ink (manual.help columns).toList  = ink manual.helpText                          (ink_help)

A filled text comes out whole as each of its lines takes something of it, so that the steps suffice.
-/

namespace BuildCommands.Arguments

/-! ## Definitions -/

/-- The characters that are seen. -/
def ink (text : List Char) : List Char := text.filter fun c => !(c == ' ' || c == '\n')

/-- What a usage is laid out from. -/
def Manual.usageText (manual : Manual) : List Char :=
  usageMark ++ manual.program.toList ++
    (manual.options.map fun topic =>
      ("[" ++ topic.withValue (topic.spellings.headD "") ++ "]").toList).flatten ++
    (manual.operands.map Topic.heading).flatten

def sectionText (title : String) (topics : List Topic) : List Char :=
  if topics.isEmpty then []
  else title.toList ++ topics.flatMap fun topic => topic.heading ++ topic.meaning.toList

/-- What a help text is laid out from. -/
def Manual.helpText (manual : Manual) : List Char :=
  manual.usageText ++ manual.purpose.toList ++
    sectionText "positional arguments:" manual.operands ++
    sectionText "options:" manual.options ++ manual.closing.flatMap String.toList

/-! ## Ink -/

@[simp] theorem ink_append (text more : List Char) : ink (text ++ more) = ink text ++ ink more :=
  List.filter_append ..

@[simp] theorem ink_nil : ink [] = [] := rfl

@[simp] theorem ink_spaces (n : Nat) : ink (spaces n) = [] := by
  refine List.filter_eq_nil_iff.mpr fun c hc => ?_
  rw [List.eq_of_mem_replicate hc]
  decide

theorem ink_gap {piece : List Char} (h : isGap piece = true) : ink piece = [] := by
  refine List.filter_eq_nil_iff.mpr fun c hc => ?_
  rw [beq_iff_eq.mp (List.all_eq_true.mp h c hc)]
  decide

theorem ink_flatten_map {α : Type} {f g : α → List Char} (h : ∀ a, ink (f a) = ink (g a))
    (items : List α) : ink (items.map f).flatten = ink (items.map g).flatten := by
  induction items with
  | nil => rfl
  | cons a items ih => simp only [List.map_cons, List.flatten_cons, ink_append, h, ih]

theorem ink_inRow (words : List (List Char)) : ink (inRow words) = ink words.flatten := by
  induction words with
  | nil => rfl
  | cons word words ih =>
    cases words with
    | nil => simp [inRow]
    | cons next words =>
      have hspace : ink [' '] = [] := by decide
      unfold inRow at ih ⊢
      rw [List.intercalate_cons_cons, ink_append, ink_append, hspace, ih, List.append_nil,
        ← ink_append]
      rfl

theorem ink_unlines (lines : List (List Char)) :
    ink (unlines lines).toList = ink lines.flatten := by
  have hend : ink ['\n'] = [] := by decide
  unfold unlines
  rw [String.toList_ofList, List.flatMap_def, ink_flatten_map (g := id), List.map_id]
  intro line
  rw [ink_append, hend, List.append_nil, id]

/-! ## Usage -/

/-- All words are laid out, behind those of the row that is begun. -/
theorem flatten_rowsFrom (width indent : Nat) (words : List (List Char)) :
    ∀ (next : Nat) (row : List (List Char)),
      (rowsFrom width indent next row words).flatten = row ++ words := by
  induction words with
  | nil =>
    intro next row
    unfold rowsFrom
    cases row <;> simp
  | cons word words ih =>
    intro next row
    unfold rowsFrom
    split
    · rw [List.flatten_cons, ih, List.singleton_append]
    · rw [ih, List.append_assoc, List.singleton_append]

theorem ink_rows (n : Nat) (rows : List (List (List Char))) :
    ink (rows.map fun row => spaces n ++ inRow row).flatten = ink rows.flatten.flatten := by
  rw [ink_flatten_map (g := List.flatten), ← List.flatten_flatten]
  intro row
  rw [ink_append, ink_spaces, ink_inRow, List.nil_append]

theorem ink_indentedRows (width indent : Nat) (words : List (List Char)) :
    ink (indentedRows width indent words).flatten = ink words.flatten := by
  unfold indentedRows
  rw [ink_rows, flatten_rowsFrom, List.nil_append]

/-- However it is broken, a usage says the same. -/
theorem ink_usageLines (manual : Manual) (width : Nat) :
    ink (manual.usageLines width).flatten = ink manual.usageText := by
  unfold Manual.usageLines Manual.usageText
  simp only
  generalize manual.options.map _ = options
  generalize manual.operands.map Topic.heading = operands
  generalize manual.program.toList = program
  split
  · simp [ink_inRow]
  split
  · have hflatten := flatten_rowsFrom width ((usageMark ++ program).length + 1) (program :: options)
      usageMark.length []
    split
    · next hrows =>
      rw [hrows] at hflatten
      cases hflatten
    · next first rows hrows =>
      rw [hrows, List.flatten_cons, List.nil_append] at hflatten
      have hwords := congrArg (fun words => ink words.flatten) hflatten
      simp only [List.flatten_append, ink_append, List.flatten_cons] at hwords
      simp only [List.cons_append, List.flatten_cons, List.flatten_append, ink_append, ink_inRow,
        ink_rows, ink_indentedRows, List.append_assoc]
      rw [← List.append_assoc (ink first.flatten), hwords, List.append_assoc]
  · split
    · simp [ink_indentedRows]
    · simp [ink_indentedRows]

theorem ink_usage (manual : Manual) (columns : Nat) :
    ink (manual.usage columns).toList = ink manual.usageText := by
  unfold Manual.usage
  rw [ink_unlines, ink_usageLines]

/-! ## Filled texts -/

/-- How many steps the pieces take at most. -/
def effort (found : List (List Char)) : Nat := found.length + found.flatten.length

theorem fitting_append (found : List (List Char)) : ∀ room,
    (fitting room found).1 ++ (fitting room found).2 = found := by
  induction found with
  | nil =>
    intro room
    rfl
  | cons piece rest ih =>
    intro room
    unfold fitting
    split
    · exact congrArg (piece :: ·) (ih _)
    · rfl

/-- Nothing fits only if the first piece does not. -/
theorem lt_of_fitting {room : Nat} {piece : List Char} {rest : List (List Char)}
    (h : (fitting room (piece :: rest)).1 = []) : room < piece.length := by
  by_contra hfits
  unfold fitting at h
  rw [if_pos (Nat.le_of_not_lt hfits)] at h
  cases h

/-- A line takes something of what it is filled with, and leaves the rest. -/
theorem fillLine_spec {width : Nat} (hwidth : 0 < width) {found : List (List Char)}
    (hfound : found ≠ []) :
    (fillLine width found).1.flatten ++ (fillLine width found).2.flatten = found.flatten ∧
      effort (fillLine width found).2 < effort found := by
  have happend := fitting_append found width
  have hpos : 0 < found.length := List.length_pos_iff.mpr hfound
  unfold fillLine effort
  rcases hfit : fitting width found with ⟨line, _ | ⟨piece, rest⟩⟩
  · rw [hfit, List.append_nil] at happend
    rw [happend]
    exact ⟨List.append_nil _, by simp only [List.length_nil, List.flatten_nil]; omega⟩
  rw [hfit] at happend
  simp only at happend
  subst happend
  simp only
  split
  · next hlong =>
    refine ⟨?_, ?_⟩
    · rw [List.flatten_append, List.flatten_singleton, List.flatten_cons, List.append_assoc,
        ← List.append_assoc (piece.take _), List.take_append_drop, List.flatten_append,
        List.flatten_cons]
    -- a line without a piece has all its room for the piece that is cut
    · have hroom : line = [] → line.flatten.length = 0 := by
        rintro rfl
        rfl
      have hline : line ≠ [] → 0 < line.length := List.length_pos_iff.mpr
      simp only [List.length_cons, List.length_append, List.flatten_cons, List.flatten_append,
        List.length_drop]
      by_cases hempty : line = []
      · have := hroom hempty
        omega
      · have := hline hempty
        omega
  · next hshort =>
    have hline : 0 < line.length := by
      refine List.length_pos_iff.mpr ?_
      rintro rfl
      exact hshort (lt_of_fitting (by rw [List.nil_append] at hfit; rw [hfit]))
    refine ⟨by simp, ?_⟩
    simp only [List.length_cons, List.length_append, List.flatten_append]
    omega

theorem ink_dropGap (line : List (List Char)) : ink (dropGap line).flatten = ink line.flatten := by
  rcases List.eq_nil_or_concat line with rfl | ⟨front, last, rfl⟩
  · rfl
  · unfold dropGap
    rw [List.concat_eq_append, List.getLast?_concat, Option.any_some, List.dropLast_concat]
    split
    · next hgap => simp [ink_gap hgap]
    · rfl

/-- With enough steps all that is seen of the pieces is in the lines. -/
theorem ink_fill {width : Nat} (hwidth : 0 < width) : ∀ (steps : Nat) (found : List (List Char)),
    effort found ≤ steps → ink (fill width steps found).flatten = ink found.flatten := by
  intro steps
  induction steps with
  | zero =>
    intro found hsteps
    have hlength : found.length = 0 := by
      unfold effort at hsteps
      omega
    rw [List.length_eq_zero_iff.mp hlength]
    rfl
  | succ steps ih =>
    intro found hsteps
    obtain ⟨start, hstart, hink, heffort⟩ : ∃ start,
        (if found.head?.any isGap then found.tail else found) = start ∧
          ink start.flatten = ink found.flatten ∧ effort start ≤ effort found := by
      refine ⟨_, rfl, ?_⟩
      cases found with
      | nil => exact ⟨rfl, Nat.le_refl _⟩
      | cons piece rest =>
        split
        · next hgap =>
          have hpiece : ink piece = [] := ink_gap hgap
          unfold effort
          simp only [List.tail_cons, List.flatten_cons, ink_append, hpiece, List.nil_append,
            List.length_cons, List.length_append, true_and]
          omega
        · exact ⟨rfl, Nat.le_refl _⟩
    unfold fill
    simp only [hstart]
    split
    · exact hink
    · next hsome =>
      obtain ⟨hflatten, hless⟩ := fillLine_spec hwidth hsome
      simp only [List.flatten_cons, ink_append]
      rw [ink_dropGap, ih _ (by omega), ← ink_append, hflatten, hink]

theorem effort_pieces (text : String) : effort (pieces text.toList) ≤ 2 * text.length := by
  have hflatten : (pieces text.toList).flatten = text.toList := List.flatten_splitBy _ _
  have hlength : (pieces text.toList).length ≤ (pieces text.toList).flatten.length := by
    have hpieces : ∀ n ∈ (pieces text.toList).map List.length, 1 ≤ n := by
      intro n hn
      obtain ⟨piece, hpiece, rfl⟩ := List.mem_map.mp hn
      exact List.length_pos_iff.mpr (List.ne_nil_of_mem_splitBy hpiece)
    have hsum := List.length_le_sum_of_one_le _ hpieces
    rwa [List.length_map, ← List.length_flatten] at hsum
  rw [hflatten, String.length_toList] at hlength
  unfold effort
  rw [hflatten, String.length_toList]
  omega

theorem ink_filled (width : Nat) (text : String) :
    ink (filled width text).flatten = ink text.toList := by
  unfold filled
  rw [ink_fill (by omega) _ _ (effort_pieces text)]
  exact congrArg ink (List.flatten_splitBy _ _)

/-! ## Help texts -/

theorem ink_lines (topic : Topic) (width position : Nat) :
    ink (topic.lines width position).flatten = ink (topic.heading ++ topic.meaning.toList) := by
  have hmeaning := ink_filled (width - position) topic.meaning
  have hindented : ∀ lines : List (List Char),
      ink (lines.map (spaces position ++ ·)).flatten = ink lines.flatten := by
    intro lines
    rw [ink_flatten_map (g := id), List.map_id]
    intro line
    rw [ink_append, ink_spaces, List.nil_append, id]
  unfold Topic.lines
  simp only
  generalize filled (width - position) topic.meaning = lines at hmeaning ⊢
  split
  · have hlines : ink (lines.headD []) ++ ink lines.tail.flatten = ink lines.flatten := by
      cases lines <;> simp
    simp only [List.flatten_cons, ink_append, ink_spaces, List.nil_append, hindented,
      List.append_assoc, hlines, hmeaning]
  · simp [hindented, ← hmeaning]

theorem ink_sectionLines (title : String) (width position : Nat) (topics : List Topic) :
    ink (sectionLines title width position topics).flatten = ink (sectionText title topics) := by
  unfold sectionLines sectionText
  split
  · rfl
  · rw [List.flatten_cons, ink_append, ink_append, List.flatMap_def, List.flatten_flatten,
      List.map_map, List.flatMap_def]
    congr 1
    exact ink_flatten_map (fun topic => ink_lines topic width position) topics

theorem ink_parts (manual : Manual) (width : Nat) :
    ink (manual.parts width).flatten.flatten = ink manual.helpText := by
  have hpurpose : ink (if manual.keepsLines then [manual.purpose.toList]
      else filled width manual.purpose).flatten = ink manual.purpose.toList := by
    split
    · simp
    · exact ink_filled width manual.purpose
  unfold Manual.parts Manual.helpText
  simp only [List.flatten_cons, List.flatten_append, ink_append, List.flatten_nil, List.append_nil,
    ink_usageLines, hpurpose, ink_sectionLines, List.flatMap_def, List.append_assoc]

/-- Empty lines between parts are not seen. -/
theorem flatten_intercalate_empty (parts : List (List (List Char))) :
    ([[]].intercalate parts).flatten = parts.flatten.flatten := by
  induction parts with
  | nil => rfl
  | cons part parts ih =>
    cases parts with
    | nil => rw [List.intercalate_singleton, List.flatten_singleton]
    | cons next parts =>
      rw [List.intercalate_cons_cons, List.flatten_append, List.flatten_append, ih,
        List.flatten_cons (L := next :: parts), List.flatten_append]
      simp

/-- The help text says the same for all numbers of columns. -/
theorem ink_help (manual : Manual) (columns : Nat) :
    ink (manual.help columns).toList = ink manual.helpText := by
  unfold Manual.help
  rw [ink_unlines, flatten_intercalate_empty, List.flatten_filter_not_isEmpty, ink_parts]

end BuildCommands.Arguments
