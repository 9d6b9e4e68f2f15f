import BuildCommands.CommandLine.Executable
import BuildCommands.Proofs.Segments
import Mathlib.Data.List.TakeWhile

/-!
# Executable paths in quotes

A path in quotes ends at the first active quote behind the one that opens it, which is where the
scan for tokens would leave the quoted run as well.  The cut of a command line keeps one flag, that
of a backslash that escapes the next character; it is set exactly where an odd run of backslashes
ends.

    splitExecutable commandLine is refused ↔ no later quote is active
    text = '"' :: interior ++ '"' :: (blank ++ rest)                (splitExecutable_opened)

The path is the interior without the backslash before each of its quotes.
-/

namespace BuildCommands

/-! ## Definitions -/

/-- The scan of a text that opens with a quote leaves the quoted run first at this quote. -/
structure Argument.ClosesFirst (cs : List Char) (n : Nat) : Prop where
  quote : cs[n]? = some '"'
  inside : ∀ k, 0 < k → k ≤ n → (ScanState.after (cs.take k)).inQuotes = true
  outside : (ScanState.after (cs.take (n + 1))).inQuotes = false

namespace CommandLine

open Argument (ActiveQuote ClosesFirst backslashRun unbroken)

/-- The characters of a text but for each backslash right before a quote. -/
def withoutEscapes (cs : List Char) : List Char :=
  (cs.zipIdx.filter fun p => ¬(p.1 = '\\' ∧ cs[p.2 + 1]? = some '"')).map Prod.fst

/-- A text that opens with a quote is cut into the interior of its quotes, white space, and the rest:
the quotes end at the first active one, and the path is the interior without its escapes. -/
structure QuotedCut (text interior blank : List Char) (split : Split) : Prop where
  whole : text = '"' :: interior ++ '"' :: (blank ++ split.rest.toList)
  isBlank : ∀ c ∈ blank, Text.isBlank c = true
  head_rest : ∀ c, split.rest.toList.head? = some c → Text.isBlank c = false
  active : ActiveQuote text (interior.length + 1)
  first : ∀ i, 0 < i → i ≤ interior.length → ¬ActiveQuote text i
  /-- The scan for tokens has read the opening quote and the interior, line breaks as spaces. -/
  scanned : (unbroken (String.ofList text)).take
      (unbroken (String.ofList ('"' :: interior))).length =
    unbroken (String.ofList ('"' :: interior))
  closesFirst : ClosesFirst (unbroken (String.ofList text))
    (unbroken (String.ofList ('"' :: interior))).length
  escaped : ∀ i, interior[i]? = some '"' → backslashRun (interior.take i) % 2 = 1
  path : split.path.toList = withoutEscapes interior

end CommandLine

namespace Text

/-! ## Line breaks -/

/-- A front of the rewritten text is a front rewritten. -/
theorem take_replaceLineBreaks (mark : Char) (cs : List Char) : ∀ k, ∃ j, (0 < k → 0 < j) ∧
    (replaceLineBreaks mark cs).take k = replaceLineBreaks mark (cs.take j) := by
  fun_induction replaceLineBreaks mark cs with
  | case1 => exact fun k => ⟨k, id, by rw [List.take_nil, replaceLineBreaks_nil]⟩
  | case2 rest ih =>
    intro k
    cases k with
    | zero => exact ⟨0, id, rfl⟩
    | succ k =>
      obtain ⟨j, -, hj⟩ := ih k
      refine ⟨j + 2, fun _ => Nat.succ_pos _, ?_⟩
      rw [List.take_succ_cons, hj, List.take_succ_cons, List.take_succ_cons, replaceLineBreaks]
  | case3 c rest hc ih =>
    intro k
    cases k with
    | zero => exact ⟨0, id, rfl⟩
    | succ k =>
      obtain ⟨j, -, hj⟩ := ih k
      refine ⟨j + 1, fun _ => Nat.succ_pos _, ?_⟩
      rw [List.take_succ_cons, hj, List.take_succ_cons, replaceLineBreaks]
      rintro tail rfl h
      cases rest with
      | nil => rw [List.take_nil] at h; cases h
      | cons d rest =>
        cases j with
        | zero => cases h
        | succ j =>
          obtain ⟨rfl, -⟩ := List.cons.inj h
          exact hc rest rfl rfl

end Text

namespace Argument

/-! ## The scan of a quoted text -/

/-- A line break moves the scan as a space does. -/
theorem foldl_replaceLineBreaks (cs : List Char) : ∀ s : ScanState,
    (Text.replaceLineBreaks ' ' cs).foldl ScanState.next s = cs.foldl ScanState.next s := by
  fun_induction Text.replaceLineBreaks ' ' cs with
  | case1 => exact fun s => rfl
  | case2 rest ih => exact fun s => ih _
  | case3 c rest hc ih =>
    intro s
    rw [List.foldl_cons, List.foldl_cons, ih]
    congr 1
    split
    · next h => rcases h with rfl | rfl <;> rfl
    · rfl

theorem after_replaceLineBreaks (cs : List Char) :
    ScanState.after (Text.replaceLineBreaks ' ' cs) = ScanState.after cs :=
  foldl_replaceLineBreaks cs .start

/-- Behind a quote and up to the next active one the quoted run is open. -/
theorem activeQuotes_take_of_opened {front : List Char} (hopen : ActiveQuote front 0)
    (hnone : ∀ i, 0 < i → ¬ActiveQuote front i) {j : Nat} (hj : 0 < j) :
    activeQuotes (front.take j) = 1 := by
  obtain ⟨j, rfl⟩ := Nat.exists_eq_succ_of_ne_zero (Nat.pos_iff_ne_zero.mp hj)
  induction j with
  | zero => rw [activeQuotes_take_succ, if_pos hopen, List.take_zero, activeQuotes_nil]
  | succ j ih =>
    rw [activeQuotes_take_succ, if_neg (hnone _ (Nat.succ_pos _)), ih (Nat.succ_pos _)]

/-- The first active quote behind the one that opens a text closes its quoted run, line breaks or
not. -/
theorem closesFirst_unbroken {front tail : List Char} (hopen : ActiveQuote front 0)
    (hnone : ∀ i, 0 < i → ¬ActiveQuote front i) (heven : backslashRun front % 2 = 0) :
    let scanned := Text.replaceLineBreaks ' ' (front ++ '"' :: tail)
    let n := (Text.replaceLineBreaks ' ' front).length
    scanned.take n = Text.replaceLineBreaks ' ' front ∧ ClosesFirst scanned n := by
  intro scanned n
  have hscanned : scanned = Text.replaceLineBreaks ' ' front ++
      '"' :: Text.replaceLineBreaks ' ' tail := by
    show Text.replaceLineBreaks ' ' (front ++ '"' :: tail) = _
    rw [Text.replaceLineBreaks_append (by decide), Text.replaceLineBreaks_cons (by decide) (by decide)]
  have hafter : ∀ j, 0 < j → (ScanState.after (front.take j)).inQuotes = true := by
    intro j hj
    rw [after_eq, activeQuotes_take_of_opened hopen hnone hj]
    rfl
  refine ⟨by rw [hscanned, List.take_left], ?_, ?_, ?_⟩
  · rw [hscanned, List.getElem?_append_right (Nat.le_refl _), Nat.sub_self, List.getElem?_cons_zero]
  · intro k hk hkn
    obtain ⟨j, hj, htake⟩ := Text.take_replaceLineBreaks ' ' front k
    rw [hscanned, List.take_append_of_le_length hkn, htake, after_replaceLineBreaks]
    exact hafter j (hj hk)
  · have htake : scanned.take (n + 1) = Text.replaceLineBreaks ' ' front ++ ['"'] := by
      rw [hscanned, List.take_length_add_append]
      rfl
    have hone : activeQuotes front = 1 := by
      have h := activeQuotes_take_of_opened hopen hnone (Nat.succ_pos front.length)
      rwa [List.take_of_length_le (Nat.le_succ _)] at h
    rw [htake, after_concat, after_replaceLineBreaks, after_eq, heven, hone]
    rfl

end Argument

namespace CommandLine

open Argument (ActiveQuote ClosesFirst backslashRun unbroken)

/-! ## Escapes -/

/-- Replacing each escaped quote by a quote drops the backslashes right before quotes. -/
theorem unescapeQuotes_eq (cs : List Char) : unescapeQuotes cs = withoutEscapes cs := by
  have hfrom : ∀ pre : List Char,
      ((cs.zipIdx pre.length).filter fun p =>
        ¬(p.1 = '\\' ∧ (pre ++ cs)[p.2 + 1]? = some '"')).map Prod.fst = unescapeQuotes cs := by
    fun_induction unescapeQuotes cs with
    | case1 => exact fun pre => rfl
    | case2 rest ih =>
      intro pre
      have h := ih (pre ++ ['\\', '"'])
      rw [List.length_append, List.append_assoc] at h
      rw [List.zipIdx_cons, List.zipIdx_cons, List.filter_cons_of_neg, List.filter_cons_of_pos,
        List.map_cons]
      · exact congrArg _ h
      · simp
      · simp
    | case3 c rest hc ih =>
      intro pre
      have h := ih (pre ++ [c])
      rw [List.length_append, List.append_assoc] at h
      rw [List.zipIdx_cons, List.filter_cons_of_pos, List.map_cons]
      · exact congrArg _ h
      · simp only [decide_eq_true_eq]
        rintro ⟨rfl, hquote⟩
        rw [List.getElem?_append_right (Nat.le_succ _), Nat.succ_eq_add_one,
          Nat.add_sub_cancel_left, List.getElem?_cons_succ, ← List.head?_eq_getElem?] at hquote
        obtain ⟨tail, rfl⟩ := List.head?_eq_some_iff.mp hquote
        exact hc tail rfl rfl
  exact (hfrom []).symm

/-! ## Scanning -/

/-- Past a character that is no active quote the scan goes on. -/
theorem scanQuoted_cons {pre : List Char} {c : Char}
    (h : ¬(c = '"' ∧ backslashRun pre % 2 = 0)) (interior rest : List Char) :
    scanQuoted (decide (backslashRun pre % 2 = 1)) interior (c :: rest) =
      scanQuoted (decide (backslashRun (pre ++ [c]) % 2 = 1)) (c :: interior) rest := by
  rw [Argument.backslashRun_concat, scanQuoted]
  rcases Nat.mod_two_eq_zero_or_one (backslashRun pre) with hrun | hrun
  · by_cases hc : c = '\\'
    · simp [hrun, hc, Argument.odd_succ]
    · have hquote : c ≠ '"' := fun he => h ⟨he, hrun⟩
      simp [hrun, hc, hquote]
  · by_cases hc : c = '\\'
    · simp [hrun, hc, Argument.odd_succ]
    · simp [hrun, hc]

/-- The scan stops at the first active quote, if there is one. -/
theorem scanQuoted_cases (rest : List Char) : ∀ pre interior : List Char,
    (scanQuoted (decide (backslashRun pre % 2 = 1)) interior rest = none ∧
      ∀ i, pre.length ≤ i → ¬ActiveQuote (pre ++ rest) i) ∨
    ∃ mid tail,
      scanQuoted (decide (backslashRun pre % 2 = 1)) interior rest =
        some (interior.reverse ++ mid, tail) ∧
      rest = mid ++ '"' :: tail ∧ ActiveQuote (pre ++ rest) (pre.length + mid.length) ∧
      ∀ i, pre.length ≤ i → i < pre.length + mid.length → ¬ActiveQuote (pre ++ rest) i := by
  induction rest with
  | nil =>
    intro pre interior
    refine Or.inl ⟨rfl, fun i hi hactive => ?_⟩
    have hquote := hactive.1
    rw [List.append_nil, List.getElem?_eq_none hi] at hquote
    cases hquote
  | cons c rest ih =>
    intro pre interior
    have hsplit : pre ++ c :: rest = (pre ++ [c]) ++ rest := by simp
    have hhere := Argument.activeQuote_length pre rest c
    by_cases hquote : c = '"' ∧ backslashRun pre % 2 = 0
    · refine Or.inr ⟨[], rest, ?_, by rw [hquote.1]; rfl, hhere.mpr hquote, fun i hi hlt => ?_⟩
      · simp [scanQuoted, hquote]
      · exact absurd hlt (Nat.not_lt_of_le hi)
    · have hlater : ∀ i, pre.length ≤ i → i ≠ pre.length → (pre ++ [c]).length ≤ i := by
        intro i hi hne
        rw [List.length_append, List.length_singleton]
        omega
      rw [scanQuoted_cons hquote]
      rcases ih (pre ++ [c]) (c :: interior) with ⟨hscan, hnone⟩ | ⟨mid, tail, hscan, rfl, hactive, hnone⟩
      · refine Or.inl ⟨hscan, fun i hi => ?_⟩
        by_cases hne : i = pre.length
        · subst hne
          rwa [hhere]
        · rw [hsplit]
          exact hnone i (hlater i hi hne)
      · rw [List.length_append, List.length_singleton, Nat.add_assoc, Nat.add_comm 1] at hactive
        refine Or.inr ⟨c :: mid, tail, ?_, rfl, ?_, fun i hi hlt => ?_⟩
        · rw [hscan]
          simp
        · rw [hsplit]
          exact hactive
        · by_cases hne : i = pre.length
          · subst hne
            rwa [hhere]
          · rw [hsplit]
            refine hnone i (hlater i hi hne) ?_
            rw [List.length_append, List.length_singleton]
            rw [List.length_cons] at hlt
            omega

/-! ## Cutting -/

/-- The run before a position does not see the quote that opens the text. -/
theorem backslashRun_take_opened (interior tail : List Char) {i : Nat} (hi : i ≤ interior.length) :
    backslashRun (('"' :: (interior ++ tail)).take (i + 1)) = backslashRun (interior.take i) := by
  rw [List.take_succ_cons, List.take_append_of_le_length hi]
  exact trailingRun_cons_neg (by decide) _

/-- A quote before the first active one is escaped. -/
theorem odd_backslashRun_of_quote {interior tail : List Char}
    (hnone : ∀ i, 0 < i → i ≤ interior.length → ¬ActiveQuote ('"' :: (interior ++ tail)) i)
    {i : Nat} (hquote : interior[i]? = some '"') : backslashRun (interior.take i) % 2 = 1 := by
  obtain ⟨hi, -⟩ := List.getElem?_eq_some_iff.mp hquote
  have hactive := hnone (i + 1) (Nat.succ_pos i) hi
  unfold ActiveQuote at hactive
  rw [backslashRun_take_opened interior tail (Nat.le_of_lt hi), List.getElem?_cons_succ,
    List.getElem?_append_left hi] at hactive
  have heven : ¬backslashRun (interior.take i) % 2 = 0 := fun h => hactive ⟨hquote, h⟩
  omega

/-- The first active quote behind the one that opens a text closes its quoted run. -/
theorem closesFirst_opened {interior tail : List Char}
    (hactive : ActiveQuote ('"' :: (interior ++ '"' :: tail)) (interior.length + 1))
    (hnone : ∀ i, 0 < i → i ≤ interior.length →
      ¬ActiveQuote ('"' :: (interior ++ '"' :: tail)) i) :
    let scanned := unbroken (String.ofList ('"' :: (interior ++ '"' :: tail)))
    let front := unbroken (String.ofList ('"' :: interior))
    scanned.take front.length = front ∧ ClosesFirst scanned front.length := by
  have hopen : ActiveQuote ('"' :: interior) 0 := ⟨rfl, rfl⟩
  have hinside : ∀ i, 0 < i → ¬ActiveQuote ('"' :: interior) i := by
    intro i hi
    rcases Nat.lt_or_ge i ('"' :: interior).length with hlt | hge
    · rw [← Argument.activeQuote_append _ ('"' :: tail) hlt]
      exact hnone i hi (Nat.le_of_lt_succ hlt)
    · rintro ⟨h, -⟩
      rw [List.getElem?_eq_none hge] at h
      cases h
  have heven : backslashRun ('"' :: interior) % 2 = 0 := by
    have h := hactive.2
    rwa [List.take_succ_cons, List.take_left] at h
  unfold unbroken
  rw [String.toList_ofList, String.toList_ofList]
  exact Argument.closesFirst_unbroken hopen hinside heven

/-- A command line that starts with a quote is refused exactly if no later quote is active.
Otherwise the first one ends the path, and it is the one at which the scan for tokens leaves the
quoted run.  All quotes before it are escaped, and the path is what stands before it without the
backslashes that escape them. -/
theorem splitExecutable_opened {commandLine : String} {cs : List Char}
    (htext : Text.dropBlank commandLine.toList = '"' :: cs) :
    ((∃ fault, splitExecutable commandLine = .error fault) ↔
        ∀ i, 0 < i → ¬ActiveQuote ('"' :: cs) i) ∧
      (∀ fault, splitExecutable commandLine = .error fault →
        fault = ⟨.unterminatedQuote, commandLine⟩) ∧
      ∀ split, splitExecutable commandLine = .ok split →
        ∃ interior blank, QuotedCut ('"' :: cs) interior blank split := by
  unfold splitExecutable
  rw [htext, splitTrimmed]
  rcases scanQuoted_cases cs ['"'] [] with ⟨hscan, hnone⟩ | ⟨interior, tail, hscan, rfl, hactive, hnone⟩
  · have hscan' : scanQuoted false [] cs = none := hscan
    rw [hscan']
    refine ⟨iff_of_true ⟨_, rfl⟩ hnone, fun fault h => (Except.error.inj h).symm, ?_⟩
    intro split h
    cases h
  have hscan' : scanQuoted false [] (interior ++ '"' :: tail) = some (interior, tail) := hscan
  have hplace : ['"'].length + interior.length = interior.length + 1 := Nat.add_comm _ _
  rw [hplace] at hactive hnone
  have hfirst : ∀ i, 0 < i → i ≤ interior.length →
      ¬ActiveQuote ('"' :: (interior ++ '"' :: tail)) i :=
    fun i hpos hle => hnone i hpos (Nat.lt_succ_of_le hle)
  rw [hscan']
  refine ⟨iff_of_false ?_ fun h => h _ (Nat.succ_pos _) hactive, ?_, ?_⟩
  · rintro ⟨fault, h⟩
    cases h
  · intro fault h
    cases h
  rintro split ⟨rfl⟩
  obtain ⟨hscanned, hcloses⟩ := closesFirst_opened hactive hfirst
  exact ⟨interior, tail.takeWhile Text.isBlank, {
    whole := by
      rw [String.toList_ofList, Text.dropBlank, List.takeWhile_append_dropWhile]
      rfl
    isBlank := fun c hc => List.mem_takeWhile_imp hc
    head_rest := by
      intro c hc
      rw [String.toList_ofList] at hc
      obtain ⟨rest, hrest⟩ := List.head?_eq_some_iff.mp hc
      exact Text.head_dropBlank hrest
    active := hactive
    first := hfirst
    scanned := hscanned
    closesFirst := hcloses
    escaped := fun i => odd_backslashRun_of_quote hfirst
    path := by rw [String.toList_ofList, unescapeQuotes_eq] }⟩

/-- An escaped quote does not end the path, and two backslashes before a quote do not escape it. -/
theorem splitExecutable_opened_escaped :
    Text.dropBlank " \"C:\\a\\\"b\\\\\"\t/c x".toList = "\"C:\\a\\\"b\\\\\"\t/c x".toList ∧
      splitExecutable " \"C:\\a\\\"b\\\\\"\t/c x" = .ok ⟨"C:\\a\"b\\\\", "/c x"⟩ ∧
      ∃ interior blank, QuotedCut "\"C:\\a\\\"b\\\\\"\t/c x".toList interior blank
        ⟨"C:\\a\"b\\\\", "/c x"⟩ := by
  have htext : Text.dropBlank " \"C:\\a\\\"b\\\\\"\t/c x".toList =
      '"' :: "C:\\a\\\"b\\\\\"\t/c x".toList := by decide
  have hsplit : splitExecutable " \"C:\\a\\\"b\\\\\"\t/c x" =
      .ok ⟨"C:\\a\"b\\\\", "/c x"⟩ := by decide +kernel
  obtain ⟨-, -, hcut⟩ := splitExecutable_opened htext
  exact ⟨htext, hsplit, hcut _ hsplit⟩

end CommandLine

end BuildCommands
