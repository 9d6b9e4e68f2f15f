import BuildCommands.Proofs.Canonical

/-!
# Canonical commands with quotes in the path

A canonical command puts the resolved path in quotes as it is, and the cut of a command line takes
the backslash off every escaped quote.  So a path with a quote never comes back: an active quote ends
the path early, and an escaped one loses its backslash.  Nor does a path whose last backslash escapes
the closing quote.  Every other path does, and the tokens with it.

    the command of a run is cut into the resolved path ↔
      no quote in it and an even run of backslashes at its end    (splitExecutable_command_iff)
-/

namespace BuildCommands

namespace CommandLine

open Argument (ActiveQuote backslashRun)

/-! ## Escapes -/

/-- Taking the escapes off keeps the quotes. -/
theorem count_quote_unescapeQuotes (cs : List Char) :
    (unescapeQuotes cs).count '"' = cs.count '"' := by
  fun_induction unescapeQuotes cs with
  | case1 => rfl
  | case2 rest ih => simp [ih]
  | case3 c rest _ ih => rw [List.count_cons, List.count_cons, ih]

/-- A text that stays as it is has no escaped quote. -/
theorem not_escaped_of_unescapeQuotes_eq_self {cs : List Char} (h : unescapeQuotes cs = cs) :
    ∀ i, cs[i]? = some '\\' → cs[i + 1]? ≠ some '"' := by
  fun_induction unescapeQuotes cs with
  | case1 => simp
  | case2 rest => exact absurd (List.cons.inj h).1 (by decide)
  | case3 c rest hc ih =>
    intro i hi hquote
    cases i with
    | zero =>
      obtain ⟨tail, rfl⟩ := List.head?_eq_some_iff.mp (List.head?_eq_getElem? ▸ hquote)
      exact hc tail (Option.some.inj hi) rfl
    | succ i => exact ih (List.cons.inj h).2 i hi hquote

/-- An odd run of backslashes ends in one. -/
theorem exists_of_odd_backslashRun {cs : List Char} {i : Nat} (hi : i ≤ cs.length)
    (h : backslashRun (cs.take i) % 2 = 1) : ∃ j, i = j + 1 ∧ cs[j]? = some '\\' := by
  cases i with
  | zero => cases h
  | succ j =>
    have hj : j < cs.length := hi
    rw [List.take_succ_eq_append_getElem hj, Argument.backslashRun_concat] at h
    by_cases hc : cs[j] = '\\'
    · exact ⟨j, rfl, by rw [List.getElem?_eq_getElem hj, hc]⟩
    · rw [if_neg hc] at h
      cases h

/-! ## Cutting a path in quotes -/

/-- A front up to a quote that gives the path in quotes is the path: a longer or a shorter one has
another number of quotes. -/
theorem eq_of_unescapeQuotes {front path behind tail : List Char}
    (h : unescapeQuotes front = path) (hwhole : path ++ '"' :: tail = front ++ '"' :: behind) :
    front = path := by
  have hcount : front.count '"' = path.count '"' := by rw [← h, count_quote_unescapeQuotes]
  rcases List.append_eq_append_iff.mp hwhole with ⟨mid, hfront, htail⟩ | ⟨mid, hpath, hbehind⟩
  · cases mid with
    | nil => rw [hfront, List.append_nil]
    | cons c mid =>
      obtain ⟨rfl, -⟩ := List.cons.inj htail
      rw [hfront, List.count_append, List.count_cons_self] at hcount
      omega
  · cases mid with
    | nil => rw [hpath, List.append_nil]
    | cons c mid =>
      obtain ⟨rfl, -⟩ := List.cons.inj hbehind
      rw [hpath, List.count_append, List.count_cons_self] at hcount
      omega

/-- A path that is read back from its quotes has none in it, and its last backslashes leave the
closing quote active. -/
theorem of_scanQuoted_path {path tail front behind : List Char}
    (hscan : scanQuoted false [] (path ++ '"' :: tail) = some (front, behind))
    (h : unescapeQuotes front = path) : '"' ∉ path ∧ backslashRun path % 2 = 0 := by
  have hcases := scanQuoted_cases (path ++ '"' :: tail) ['"'] []
  rw [show scanQuoted (decide (backslashRun ['"'] % 2 = 1)) [] (path ++ '"' :: tail) =
    some (front, behind) from hscan] at hcases
  obtain ⟨hnone, -⟩ | ⟨mid, rest, hcut, hwhole, hactive, hnone⟩ := hcases
  · cases hnone
  obtain ⟨rfl, rfl⟩ : front = mid ∧ behind = rest := by simpa using hcut
  have hpath : front = path := eq_of_unescapeQuotes h hwhole
  subst hpath
  have hplace : ['"'].length + front.length = front.length + 1 := Nat.add_comm _ _
  rw [hplace] at hactive hnone
  have hfirst : ∀ i, 0 < i → i ≤ front.length → ¬ActiveQuote ('"' :: (front ++ '"' :: tail)) i :=
    fun i hpos hle => hnone i hpos (Nat.lt_succ_of_le hle)
  constructor
  · intro hquote
    obtain ⟨i, hi⟩ := List.mem_iff_getElem?.mp hquote
    obtain ⟨hlt, -⟩ := List.getElem?_eq_some_iff.mp hi
    have hodd := odd_backslashRun_of_quote hfirst hi
    obtain ⟨j, rfl, hj⟩ := exists_of_odd_backslashRun (Nat.le_of_lt hlt) hodd
    exact not_escaped_of_unescapeQuotes_eq_self h j hj hi
  · have heven : backslashRun (('"' :: (front ++ '"' :: tail)).take (front.length + 1)) % 2 = 0 :=
      hactive.2
    rwa [backslashRun_take_opened front _ (Nat.le_refl _), List.take_length] at heven

/-- A path in quotes comes back exactly if it has no quote and its last backslashes leave the closing
quote active. -/
theorem splitExecutable_path_iff (path tail : List Char) :
    (∃ split, splitExecutable (String.ofList ('"' :: (path ++ '"' :: tail))) = .ok split ∧
      split.path = String.ofList path) ↔ '"' ∉ path ∧ backslashRun path % 2 = 0 := by
  constructor
  · rintro ⟨split, hsplit, hpath⟩
    obtain ⟨front, behind, hscan, rfl⟩ := splitExecutable_eq_ok_iff.mp hsplit
    exact of_scanQuoted_path hscan (String.ofList_inj.mp hpath)
  · rintro ⟨hq, heven⟩
    exact ⟨_, splitExecutable_quoted tail hq heven, rfl⟩

end CommandLine

/-! ## Top theorem -/

namespace Invocation

open Argument (backslashRun)

/-- The canonical command of a run is cut into the resolved path exactly if that has no quote and ends
in an even run of backslashes, and then its argument text has the tokens of the run. -/
theorem splitExecutable_command_iff {base directory commandLine : String} {kind : ToolKind}
    {invocation : Invocation} (h : parse base kind directory commandLine = .ok invocation) :
    ((∃ split, CommandLine.splitExecutable invocation.command = .ok split ∧
        split.path = Path.resolve base invocation.executable) ↔
      '"' ∉ (Path.resolve base invocation.executable).toList ∧
        backslashRun (Path.resolve base invocation.executable).toList % 2 = 0) ∧
    ∀ split, CommandLine.splitExecutable invocation.command = .ok split →
      split.path = Path.resolve base invocation.executable →
      Argument.tokenize split.rest = invocation.tokens := by
  obtain ⟨written, hwritten, rfl⟩ := exists_split_of_parse h
  have hcommand : (ofSplit base kind directory written).command =
      CommandLine.canonical base written.path (Argument.tokenize written.rest) := rfl
  have hiff := CommandLine.splitExecutable_path_iff (Path.resolve base written.path).toList
    (if Argument.tokenize written.rest = [] then []
      else ' ' :: (" ".intercalate (Argument.tokenize written.rest)).toList)
  rw [String.ofList_toList, ← CommandLine.canonical_eq, ← hcommand] at hiff
  refine ⟨hiff, fun split hsplit hpath => ?_⟩
  obtain ⟨hq, heven⟩ := hiff.mp ⟨split, hsplit, hpath⟩
  rw [hcommand, CommandLine.canonical_eq, CommandLine.splitExecutable_quoted _ hq heven,
    CommandLine.dropBlank_arguments (CommandLine.dropBlank_rest hwritten)] at hsplit
  cases hsplit
  exact Argument.tokenize_intercalate written.rest

/-- The component with the quote is taken back, so the resolved path has none. -/
theorem splitExecutable_command_iff_dropped :
    ∃ invocation : Invocation,
      parse "/b" .compile "p" "\"x\\\"y/../cl.exe\"  /c\ta.c" = .ok invocation ∧
      invocation.executable = "x\"y/../cl.exe" ∧
      ∃ split, CommandLine.splitExecutable invocation.command = .ok split ∧
        split.path = Path.resolve "/b" invocation.executable ∧
        Argument.tokenize split.rest = ["/c", "a.c"] := by
  have hparse : parse "/b" .compile "p" "\"x\\\"y/../cl.exe\"  /c\ta.c" =
      .ok ⟨.compile, "x\"y/../cl.exe", ["/c", "a.c"], "\"/b/cl.exe\" /c a.c", "p", ["a.c"]⟩ := by
    decide +kernel
  have hpath : '"' ∉ (Path.resolve "/b" "x\"y/../cl.exe").toList ∧
      backslashRun (Path.resolve "/b" "x\"y/../cl.exe").toList % 2 = 0 := by decide +kernel
  obtain ⟨hiff, htokens⟩ := splitExecutable_command_iff hparse
  obtain ⟨split, hsplit, hsame⟩ := hiff.mpr hpath
  exact ⟨_, hparse, rfl, split, hsplit, hsame, htokens split hsplit hsame⟩

/-- The quote of this path ends the path of its own canonical command. -/
theorem quoted_path_cut_short :
    ∃ invocation : Invocation,
      Path.IsAbsolute "/b".toList ∧
      parse "/b" .compile "p" "\"C:\\odd\\\"name\\cl.exe\" /c a.c" = .ok invocation ∧
      invocation.executable = "C:\\odd\"name\\cl.exe" ∧
      Path.resolve "/b" invocation.executable = "C:\\odd\"name\\cl.exe" ∧
      invocation.tokens = ["/c", "a.c"] ∧
      CommandLine.splitExecutable invocation.command =
        .ok ⟨"C:\\odd", "name\\cl.exe\" /c a.c"⟩ ∧
      Argument.tokenize "name\\cl.exe\" /c a.c" = ["name\\cl.exe\" /c a.c"] := by
  have hparse : parse "/b" .compile "p" "\"C:\\odd\\\"name\\cl.exe\" /c a.c" =
      .ok ⟨.compile, "C:\\odd\"name\\cl.exe", ["/c", "a.c"],
        "\"C:\\odd\"name\\cl.exe\" /c a.c", "p", ["a.c"]⟩ := by decide +kernel
  exact ⟨_, by decide, hparse, rfl, by decide +kernel, rfl, by decide +kernel, by decide +kernel⟩

end Invocation

end BuildCommands
