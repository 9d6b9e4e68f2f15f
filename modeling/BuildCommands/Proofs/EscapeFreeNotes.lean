import BuildCommands.Proofs.Canonical
import BuildCommands.Proofs.EscapeCodes
import BuildCommands.Proofs.Parameters
import BuildCommands.Proofs.Replay

/-!
# Notes without escapes

Whatever is noted on an event is cut out of the event's texts, or is a path made from them and from
the base directory.  Cutting adds no character, and a path operation adds separators and dots only.
So a session notes nothing with escapes unless an event or the base directory has some.

    resolveFrom base path          holds a foreign character only if `base` or `path` does
                                                              (IsForeign.not_mem_resolveFrom)
    splitTrimmed cs = .ok (p, r)   `p` and `r` are cut out of `cs`          (splitTrimmed_subset)
    (event.outcome base).notes     are free of escapes if `event` and `base` are (notes_escapeFree)
-/

namespace BuildCommands

/-! ## Paths -/

namespace Path

/-- No operation on paths puts the character into a path. -/
structure IsForeign (x : Char) : Prop where
  slash : x ≠ '/'
  backslash : x ≠ '\\'
  dot : x ≠ '.'

theorem isForeign_escape : IsForeign '\x1b' := ⟨by decide, by decide, by decide⟩

section

variable {x : Char}

theorem not_mem_reducedText {s : Char} (hs : x ≠ s) {cs : List Char} (h : x ∉ cs)
    (rooted : Bool) : x ∉ reducedText rooted s cs := by
  intro hmem
  rcases mem_reducedText rooted s cs hmem with rfl | hmem
  · exact hs rfl
  · exact h hmem

theorem not_mem_splitDrive {path : List Char} (h : x ∉ path) :
    x ∉ (Windows.splitDrive path).1 ∧ x ∉ (Windows.splitDrive path).2 :=
  ⟨fun hmem => h (List.mem_of_mem_take hmem), fun hmem => h (List.mem_of_mem_drop hmem)⟩

variable (hx : IsForeign x)
include hx

theorem IsForeign.not_mem_here : x ∉ here := mt List.mem_singleton.mp hx.dot

theorem IsForeign.not_mem_posix_normalize {path : List Char} (h : x ∉ path) :
    x ∉ Posix.normalize path := by
  have hlead : x ∉ Posix.leadingSlashes path := by
    have hslash := hx.slash
    rcases Posix.leadingSlashes_cases path with ⟨heq, -⟩ | ⟨heq | heq, -⟩
    all_goals
      rw [heq]
      simp [hslash]
  rw [Posix.normalize_eq]
  split
  · exact hx.not_mem_here
  · rw [List.mem_append, not_or]
    exact ⟨hlead, not_mem_reducedText hx.slash h _⟩

theorem IsForeign.not_mem_posix_join {directory path : List Char} (hd : x ∉ directory)
    (h : x ∉ path) : x ∉ Posix.join directory path := by
  have hslash := hx.slash
  unfold Posix.join
  split
  · exact h
  split
  · simp [hd, h]
  · simp [hd, h, hslash]

theorem IsForeign.not_mem_windows_normalize {path : List Char} (h : x ∉ path) :
    x ∉ Windows.normalize path := by
  have hbackslashed : x ∉ Windows.backslashed path := by
    intro hmem
    obtain ⟨c, hc, heq⟩ := List.mem_map.mp hmem
    split at heq
    · exact hx.backslash heq.symm
    · exact h (heq ▸ hc)
  obtain ⟨hdrive, hback⟩ := not_mem_splitDrive hbackslashed
  have hfront : x ∉ Windows.front path := by
    unfold Windows.front
    split
    · rw [List.mem_append, not_or]
      exact ⟨hdrive, mt List.mem_singleton.mp hx.backslash⟩
    · exact hdrive
  rw [Windows.normalize_front]
  split
  · exact hx.not_mem_here
  · rw [List.mem_append, not_or]
    exact ⟨hfront, not_mem_reducedText hx.backslash hback _⟩

theorem IsForeign.not_mem_attach {drive rest : List Char} (hd : x ∉ drive) (h : x ∉ rest) :
    x ∉ Windows.attach drive rest := by
  have hbackslash := hx.backslash
  unfold Windows.attach
  split
  · simp [hd, h, hbackslash]
  · simp [hd, h]

theorem IsForeign.not_mem_windows_join {directory path : List Char} (hd : x ∉ directory)
    (h : x ∉ path) : x ∉ Windows.join directory path := by
  obtain ⟨hdrive, hrest⟩ := not_mem_splitDrive hd
  obtain ⟨hpathDrive, hpathRest⟩ := not_mem_splitDrive h
  have hkept : x ∉ (if (Windows.splitDrive path).1.isEmpty then (Windows.splitDrive directory).1
      else (Windows.splitDrive path).1) := by
    split
    · exact hdrive
    · exact hpathDrive
  unfold Windows.join
  simp only
  split
  · exact hx.not_mem_attach hkept hpathRest
  split
  · exact hx.not_mem_attach hpathDrive hpathRest
  · refine hx.not_mem_attach hkept ?_
    have hbackslash := hx.backslash
    split
    · simp [hrest, hpathRest, hbackslash]
    · simp [hrest, hpathRest]

/-- A resolved path holds, beside separators and dots, characters of the base and of the path. -/
theorem IsForeign.not_mem_resolveFrom {base path : List Char} (hb : x ∉ base) (h : x ∉ path) :
    x ∉ resolveFrom base path := by
  unfold resolveFrom
  split
  · exact hx.not_mem_windows_normalize h
  split
  · exact hx.not_mem_posix_normalize h
  split
  · exact hx.not_mem_windows_normalize (hx.not_mem_windows_join hb h)
  · exact hx.not_mem_posix_normalize (hx.not_mem_posix_join hb h)

end

end Path

/-! ## Cutting a command line -/

namespace CommandLine

theorem append_of_scanQuoted {cs front tail : List Char} : ∀ {escaped : Bool}
    {interior : List Char}, scanQuoted escaped interior cs = some (front, tail) →
      interior.reverse ++ cs = front ++ '"' :: tail := by
  induction cs with
  | nil => exact nofun
  | cons c rest ih =>
    intro escaped interior h
    have hstep : ∀ {escaped : Bool}, scanQuoted escaped (c :: interior) rest = some (front, tail) →
        interior.reverse ++ c :: rest = front ++ '"' :: tail := by
      intro escaped h
      rw [← ih h, List.reverse_cons, List.append_assoc]
      rfl
    unfold scanQuoted at h
    split at h
    · exact hstep h
    split at h
    · exact hstep h
    split at h
    · next hquote =>
      cases h
      rw [hquote]
    · exact hstep h

theorem unescapeQuotes_sublist (cs : List Char) : (unescapeQuotes cs).Sublist cs := by
  fun_induction unescapeQuotes cs with
  | case1 => exact List.Sublist.refl _
  | case2 rest ih => exact (ih.cons_cons _).cons _
  | case3 c rest _ ih => exact ih.cons_cons _

/-- The path and the argument text are cut out of the command line. -/
theorem splitTrimmed_subset {cs path rest : List Char} (h : splitTrimmed cs = .ok (path, rest)) :
    path ⊆ cs ∧ rest ⊆ cs := by
  unfold splitTrimmed at h
  split at h
  · cases h
  · next quoted =>
    split at h
    · next interior tail hscan =>
      have hcut := append_of_scanQuoted hscan
      cases h
      rw [List.reverse_nil, List.nil_append] at hcut
      refine ⟨fun x hx => List.mem_cons_of_mem _ ?_, fun x hx => List.mem_cons_of_mem _ ?_⟩
      · rw [hcut]
        exact List.mem_append_left _ ((unescapeQuotes_sublist _).subset hx)
      · rw [hcut]
        exact List.mem_append_right _
          (List.mem_cons_of_mem _ (List.dropWhile_subset _ hx))
    · cases h
  · split at h
    · next n hn =>
      cases h
      exact ⟨List.take_subset _ _, fun x hx =>
        List.drop_subset _ _ (List.dropWhile_subset _ hx)⟩
    · cases h

theorem splitExecutable_escapeFree {line : String} {split : Split} (h : EscapeFree line)
    (hsplit : splitExecutable line = .ok split) :
    EscapeFree split.path ∧ EscapeFree split.rest := by
  unfold splitExecutable at hsplit
  split at hsplit
  · next path rest heq =>
    cases hsplit
    obtain ⟨hpath, hrest⟩ := splitTrimmed_subset heq
    have htrimmed : '\x1b' ∉ Text.dropBlank line.toList :=
      fun hmem => h (List.dropWhile_subset _ hmem)
    exact ⟨escapeFree_ofList.mpr (mt (@hpath _) htrimmed),
      escapeFree_ofList.mpr (mt (@hrest _) htrimmed)⟩
  · cases hsplit

theorem message_escapeFree {line : String} {fault : Malformed} (h : EscapeFree line)
    (hsplit : splitExecutable line = .error fault) : EscapeFree fault.message := by
  unfold splitExecutable at hsplit
  split at hsplit
  · cases hsplit
  · next reason _ =>
    cases hsplit
    cases reason with
    | empty => exact (by decide : EscapeFree "Empty command line")
    | unterminatedQuote =>
      show EscapeFree ("Unterminated quoted executable path in: " ++ line)
      simp +decide [h]
    | noExecutable =>
      show EscapeFree ("Unexpected lack of executable in: " ++ line)
      simp +decide [h]

theorem canonical_escapeFree {base path : String} {tokens : List String} (hb : EscapeFree base)
    (hp : EscapeFree path) (ht : ∀ token ∈ tokens, EscapeFree token) :
    EscapeFree (canonical base path tokens) := by
  have hpath : EscapeFree (Path.resolve base path) :=
    escapeFree_ofList.mpr (Path.isForeign_escape.not_mem_resolveFrom hb hp)
  unfold canonical
  refine escapeFree_intercalate (by decide) (List.forall_mem_cons.mpr ⟨?_, ht⟩)
  simp +decide [hpath]

end CommandLine

theorem mem_replaceLineBreaks {mark x : Char} {cs : List Char}
    (h : x ∈ Text.replaceLineBreaks mark cs) : x = mark ∨ x ∈ cs := by
  fun_induction Text.replaceLineBreaks mark cs with
  | case1 => cases h
  | case2 rest ih =>
    rcases List.mem_cons.mp h with h | h
    · exact Or.inl h
    · exact (ih h).imp_right fun h => List.mem_cons_of_mem _ (List.mem_cons_of_mem _ h)
  | case3 c rest _ ih =>
    rcases List.mem_cons.mp h with h | h
    · split at h
      · exact Or.inl h
      · exact Or.inr (h ▸ List.mem_cons_self)
    · exact (ih h).imp_right (List.mem_cons_of_mem _)

theorem Argument.tokenize_escapeFree {text : String} (h : EscapeFree text) :
    ∀ token ∈ tokenize text, EscapeFree token := by
  intro token htoken
  obtain ⟨cs, hcs, rfl⟩ := List.mem_map.mp htoken
  rw [escapeFree_ofList]
  intro hmem
  rcases mem_replaceLineBreaks (mem_of_mem_tokensFrom hcs hmem) with hspace | hmem
  · exact absurd hspace (by decide)
  · exact h hmem

/-! ## Notes on an event -/

/-- The texts of the event are free of escapes. -/
structure BuildEvent.EscapeFree (event : BuildEvent) : Prop where
  task : BuildCommands.EscapeFree event.task
  commandLine : BuildCommands.EscapeFree event.commandLine
  projectFile : BuildCommands.EscapeFree event.projectFile

/-- An option that should name a source file and does not is one of two. -/
theorem dangling?_cases {table : OptionTable} {kind : ToolKind} {tokens : List String} {name : String}
    (h : name ∈ (visits table kind tokens).filterMap Visit.dangling?) : name = "Tc" ∨ name = "Tp" := by
  obtain ⟨visit, hvisit, hdangling⟩ := List.mem_filterMap.mp h
  have hrole := role_of_mem_visits visit hvisit
  unfold Visit.dangling? at hdangling
  split at hdangling
  · next found hsource _ =>
    cases hdangling
    rw [hsource] at hrole
    cases hoption : optionName? visit.token with
    | none =>
      rw [roleOf_of_plain hoption] at hrole
      split at hrole <;> cases hrole
    | some option =>
      rw [roleOf_of_option hoption, compilerRole_eq] at hrole
      split_ifs at hrole with _ _ hname
      cases hrole
      exact hname
  · cases hdangling

/-- The remarks on a run show its files in quotes and its tokens and executable as written. -/
theorem remarks_escapeFree {base directory line : String} {kind : ToolKind} {invocation : Invocation}
    (h : EscapeFree line) (hparse : Invocation.parse base kind directory line = .ok invocation) :
    ∀ remark ∈ invocation.remarks line, EscapeFree remark := by
  obtain ⟨split, hsplit, rfl⟩ := exists_split_of_parse hparse
  obtain ⟨hpath, hrest⟩ := CommandLine.splitExecutable_escapeFree h hsplit
  intro remark hremark
  unfold Invocation.remarks at hremark
  rw [hsplit] at hremark
  rcases List.mem_append.mp hremark with hremark | hremark
  · rcases List.mem_append.mp hremark with hremark | hremark
    · obtain ⟨token, htoken, rfl⟩ := List.mem_map.mp hremark
      have hfree : EscapeFree token := by
        refine Argument.tokenize_escapeFree hrest token ?_
        have hopen : Argument.unterminated? split.rest = some token := Option.mem_toList.mp htoken
        unfold Argument.unterminated? at hopen
        split at hopen
        · exact List.mem_of_getLast? hopen
        · cases hopen
      simp +decide [hfree]
    · obtain ⟨name, hname, rfl⟩ := List.mem_map.mp hremark
      have hfree : EscapeFree name := by
        rcases dangling?_cases hname with rfl | rfl <;> decide
      simp +decide [hfree]
  · cases List.mem_singleton.mp hremark
    have hname : ∀ kind : ToolKind, EscapeFree kind.name := by
      intro kind
      cases kind <;> decide
    simp +decide [Invocation.ofSplit, hname, hpath]

theorem error_of_parse {base directory line : String} {kind : ToolKind}
    {fault : CommandLine.Malformed} (h : Invocation.parse base kind directory line = .error fault) :
    CommandLine.splitExecutable line = .error fault := by
  unfold Invocation.parse at h
  cases hsplit : CommandLine.splitExecutable line with
  | error found =>
    rw [hsplit] at h
    cases h
    rfl
  | ok split =>
    rw [hsplit] at h
    cases h

/-- What is noted on an event is free of escapes if its texts and the base directory are. -/
theorem notes_escapeFree {base : String} {event : BuildEvent} (hb : EscapeFree base)
    (h : event.EscapeFree) : ∀ note ∈ (event.outcome base).notes event, EscapeFree note.text := by
  obtain ⟨htask, hline, hproject⟩ := h
  unfold BuildEvent.outcome
  split
  · refine List.forall_mem_singleton.mpr ?_
    show EscapeFree ("Ignoring task " ++ event.task)
    simp +decide [htask]
  split
  · next fault hparse =>
    have hfault : EscapeFree fault.message :=
      CommandLine.message_escapeFree hline (error_of_parse hparse)
    refine List.forall_mem_singleton.mpr ?_
    show EscapeFree (s!"Skipping {event.task} task of {event.projectFile}: " ++ fault.message)
    simp +decide [htask, hproject, hfault]
  · next invocation hparse =>
    intro note hnote
    rcases List.mem_append.mp hnote with hnote | hnote
    · obtain ⟨remark, hremark, rfl⟩ := List.mem_map.mp hnote
      exact remarks_escapeFree hline hparse remark hremark
    · obtain ⟨split, hsplit, rfl⟩ := exists_split_of_parse hparse
      obtain ⟨hpath, hrest⟩ := CommandLine.splitExecutable_escapeFree hline hsplit
      have hcommand := CommandLine.canonical_escapeFree hb hpath (Argument.tokenize_escapeFree hrest)
      split at hnote
      · cases List.mem_singleton.mp hnote
        simp +decide [Invocation.ofSplit, hcommand]
      · cases hnote

/-- A session over events without escapes has noted none. -/
theorem replay_escapeFree {base : String} {events : List BuildEvent} (hb : EscapeFree base)
    (h : ∀ event ∈ events, event.EscapeFree) :
    ∀ note ∈ ((Session.start base).replay events).log, EscapeFree note.text := by
  intro note hnote
  have hlog : note ∈ events.flatMap fun event => (event.outcome base).notes event := by
    simpa [Session.replay, Session.start] using hnote
  obtain ⟨event, hevent, hnote⟩ := List.mem_flatMap.mp hlog
  exact notes_escapeFree hb (h event hevent) note hnote

end BuildCommands
