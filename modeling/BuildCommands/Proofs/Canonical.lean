import BuildCommands.Invocation
import BuildCommands.Proofs.QuotedPath
import BuildCommands.Proofs.Rejoin
import BuildCommands.Proofs.Resolve

/-!
# Canonical commands are fixed points

A canonical command is a command line.  Cut again it gives the resolved path and the text of the
tokens, that text gives the same tokens, and the resolved path is settled; so reading the command
comes to the same run, up to the path as written.  The path in quotes must be one that the cut reads
to its end: without a quote, and without a backslash that would escape the closing one.
-/

namespace BuildCommands

namespace CommandLine

open Argument (backslashRun)

/-! ## Cutting a canonical command -/

/-- A text without quotes that ends in an even run of backslashes is read up to the quote behind
it. -/
theorem scanQuoted_append {cs : List Char} (tail : List Char) (hq : '"' ∉ cs) :
    ∀ pre interior : List Char, backslashRun (pre ++ cs) % 2 = 0 →
      scanQuoted (decide (backslashRun pre % 2 = 1)) interior (cs ++ '"' :: tail) =
        some (interior.reverse ++ cs, tail) := by
  induction cs with
  | nil =>
    intro pre interior heven
    rw [List.append_nil] at heven
    simp [scanQuoted, heven]
  | cons c cs ih =>
    intro pre interior heven
    rw [List.mem_cons, not_or] at hq
    rw [List.append_cons] at heven
    rw [List.cons_append, scanQuoted_cons fun h => hq.1 h.1.symm, ih hq.2 _ _ heven]
    simp

theorem unescapeQuotes_of_not_mem {cs : List Char} (h : '"' ∉ cs) : unescapeQuotes cs = cs := by
  fun_induction unescapeQuotes cs with
  | case1 => rfl
  | case2 rest => simp at h
  | case3 c rest _ ih =>
    rw [List.mem_cons, not_or] at h
    rw [ih h.2]

/-- A command line that starts with a quote is cut where the scan of the quoted path ends. -/
theorem splitExecutable_eq_ok_iff {cs : List Char} {split : Split} :
    splitExecutable (String.ofList ('"' :: cs)) = .ok split ↔
      ∃ interior tail, scanQuoted false [] cs = some (interior, tail) ∧
        split = ⟨String.ofList (unescapeQuotes interior), String.ofList (Text.dropBlank tail)⟩ := by
  have hdrop : Text.dropBlank ('"' :: cs) = '"' :: cs := List.dropWhile_cons_of_neg (by decide)
  unfold splitExecutable
  rw [String.toList_ofList, hdrop, splitTrimmed]
  cases hscan : scanQuoted false [] cs with
  | none => simp
  | some cut =>
    obtain ⟨interior, tail⟩ := cut
    simp [eq_comm]

/-- A command line that starts with a path in quotes. -/
theorem splitExecutable_quoted {path : List Char} (tail : List Char) (hq : '"' ∉ path)
    (heven : backslashRun path % 2 = 0) :
    splitExecutable (String.ofList ('"' :: (path ++ '"' :: tail))) =
      .ok ⟨String.ofList path, String.ofList (Text.dropBlank tail)⟩ := by
  rw [splitExecutable_eq_ok_iff]
  exact ⟨path, tail, scanQuoted_append tail hq [] [] heven, by rw [unescapeQuotes_of_not_mem hq]⟩

/-- The argument text of a command line does not start with a blank. -/
theorem dropBlank_rest {commandLine : String} {split : Split}
    (h : splitExecutable commandLine = .ok split) :
    Text.dropBlank split.rest.toList = split.rest.toList := by
  unfold splitExecutable at h
  split at h
  · next path rest hs =>
    cases h
    rw [String.toList_ofList]
    unfold splitTrimmed at hs
    split at hs
    · cases hs
    · split at hs
      · cases hs
        exact Text.dropBlank_dropBlank _
      · cases hs
    · split at hs
      · cases hs
        exact Text.dropBlank_dropBlank _
      · cases hs
  · cases h

/-- The characters of a canonical command. -/
theorem canonical_eq (base path : String) (tokens : List String) :
    canonical base path tokens =
      String.ofList ('"' :: ((Path.resolve base path).toList ++
        '"' :: if tokens = [] then [] else ' ' :: (" ".intercalate tokens).toList)) := by
  rw [← String.toList_inj, String.toList_ofList, canonical]
  cases tokens with
  | nil => simp [String.intercalate_singleton]
  | cons token tokens => simp [String.intercalate_cons_cons]

/-- Behind the path of a canonical command stands the text of the tokens, after a blank. -/
theorem dropBlank_arguments {text : String} (htext : Text.dropBlank text.toList = text.toList) :
    String.ofList (Text.dropBlank (if Argument.tokenize text = [] then []
      else ' ' :: (" ".intercalate (Argument.tokenize text)).toList)) =
      " ".intercalate (Argument.tokenize text) := by
  cases h : text.toList with
  | nil =>
    have hempty : text = "" := by rw [← String.toList_inj, h]; rfl
    rw [hempty, Argument.tokenize_empty, if_pos rfl]
    rfl
  | cons c rest =>
    rw [h] at htext
    have hc := Text.head_dropBlank htext
    obtain ⟨hhead, hne⟩ := Argument.head?_intercalate_tokenize h hc
    rw [if_neg hne, Text.dropBlank, List.dropWhile_cons_of_pos (by decide)]
    generalize " ".intercalate (Argument.tokenize text) = joined at hhead ⊢
    cases hj : joined.toList with
    | nil =>
      rw [hj] at hhead
      cases hhead
    | cons d tail =>
      rw [hj, List.head?_cons, Option.some.injEq] at hhead
      rw [List.dropWhile_cons_of_neg (by simp [hhead, hc]), ← hj, String.ofList_toList]

/-- A text that does not end in a backslash ends in no run of them. -/
theorem even_backslashRun_of_getLast? {cs : List Char} (h : cs.getLast? ≠ some '\\') :
    backslashRun cs % 2 = 0 := by
  induction cs using List.reverseRecOn with
  | nil => rfl
  | append_singleton cs c _ =>
    rw [List.getLast?_concat] at h
    rw [Argument.backslashRun_concat, if_neg fun hc => h (congrArg some hc)]

/-- A canonical command with the tokens of a text is cut into the resolved path and the text of the
tokens. -/
theorem splitExecutable_canonical (base path : String) {text : String}
    (htext : Text.dropBlank text.toList = text.toList)
    (hq : '"' ∉ (Path.resolve base path).toList)
    (hlast : (Path.resolve base path).toList.getLast? ≠ some '\\') :
    splitExecutable (canonical base path (Argument.tokenize text)) =
      .ok ⟨Path.resolve base path, " ".intercalate (Argument.tokenize text)⟩ := by
  rw [canonical_eq, splitExecutable_quoted _ hq (even_backslashRun_of_getLast? hlast),
    String.ofList_toList, dropBlank_arguments htext]

end CommandLine

/-! ## Reading a canonical command -/

theorem exists_split_of_parse {base directory line : String} {kind : ToolKind}
    {invocation : Invocation} (h : Invocation.parse base kind directory line = .ok invocation) :
    ∃ split, CommandLine.splitExecutable line = .ok split ∧
      invocation = Invocation.ofSplit base kind directory split := by
  unfold Invocation.parse at h
  cases hsplit : CommandLine.splitExecutable line with
  | error fault =>
    rw [hsplit] at h
    cases h
  | ok split =>
    rw [hsplit] at h
    exact ⟨split, rfl, (Except.ok.inj h).symm⟩

namespace Invocation

/-- Reading the canonical command of a run comes to the same run, with the resolved path as the
executable. -/
theorem parse_command {base directory commandLine : String} {kind : ToolKind}
    {invocation : Invocation} (hbase : Path.IsAbsolute base.toList)
    (h : parse base kind directory commandLine = .ok invocation)
    (hq : '"' ∉ (Path.resolve base invocation.executable).toList)
    (hlast : (Path.resolve base invocation.executable).toList.getLast? ≠ some '\\') :
    parse base kind directory invocation.command =
      .ok { invocation with executable := Path.resolve base invocation.executable } := by
  unfold parse at h
  cases hs : CommandLine.splitExecutable commandLine with
  | error fault =>
    rw [hs] at h
    cases h
  | ok split =>
    rw [hs] at h
    cases h
    have hcut := CommandLine.splitExecutable_canonical base split.path
      (CommandLine.dropBlank_rest hs) hq hlast
    have hsettled : Path.resolve base (Path.resolve base split.path) = Path.resolve base split.path := by
      rw [Path.resolve, Path.resolve, String.toList_ofList, Path.resolveFrom_resolveFrom hbase]
    show (CommandLine.splitExecutable (CommandLine.canonical base split.path _)).map _ = _
    rw [hcut]
    simp only [Except.map, ofSplit, Argument.tokenize_intercalate, CommandLine.canonical, hsettled]

/-- A relative path on another separator and a quote that stays open behind a tab. -/
theorem parse_command_open_quote :
    ∃ invocation : Invocation,
      parse "C:\\b" .compile "p" "../vc/cl.EXE \t/c  \"a\tb.c" = .ok invocation ∧
      Path.IsAbsolute "C:\\b".toList ∧
      '"' ∉ (Path.resolve "C:\\b" invocation.executable).toList ∧
      (Path.resolve "C:\\b" invocation.executable).toList.getLast? ≠ some '\\' ∧
      parse "C:\\b" .compile "p" invocation.command =
        .ok { invocation with executable := Path.resolve "C:\\b" invocation.executable } := by
  have h : parse "C:\\b" .compile "p" "../vc/cl.EXE \t/c  \"a\tb.c" =
      .ok ⟨.compile, "../vc/cl.EXE", ["/c", "\"a\tb.c"], "\"C:\\vc\\cl.EXE\" /c \"a\tb.c", "p",
        ["a\tb.c"]⟩ := by decide +kernel
  have hbase : Path.IsAbsolute "C:\\b".toList := Or.inl (by decide)
  have hq : '"' ∉ (Path.resolve "C:\\b" "../vc/cl.EXE").toList := by decide +kernel
  have hlast : (Path.resolve "C:\\b" "../vc/cl.EXE").toList.getLast? ≠ some '\\' := by
    decide +kernel
  exact ⟨_, h, hbase, hq, hlast, parse_command hbase h hq hlast⟩

end Invocation

end BuildCommands
