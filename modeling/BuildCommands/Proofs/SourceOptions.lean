import BuildCommands.Invocation
import BuildCommands.Proofs.Parameters

/-!
# Source options

A compiler's `/Tc` and `/Tp` name a source file in the same token or in the next one.  Wherever the
walk comes to such an option, both ways of writing it are classified alike, whatever the file looks
like: it is read as no option and no response file, and the walk goes on behind it at the same token.

    IsVisited (pre ++ rest) pre.length → visits (pre ++ rest) = visits pre ++ visits rest
                                                                          (visits_append)
    classify (pre ++ "/Tcfile" :: suffix) = classify (pre ++ "/Tc" :: file :: suffix)
                                                                          (classify_attached)
-/

namespace BuildCommands

/-! ## Definitions -/

/-- The walk comes to the position: it is that of no parameter, and no cut stands before it. -/
def IsVisited (table : OptionTable) (kind : ToolKind) (tokens : List String) (i : Nat) : Prop :=
  ¬IsParameter table kind tokens i ∧ ∀ j < i, ¬IsCut table kind tokens j

instance (table : OptionTable) (kind : ToolKind) (tokens : List String) (i : Nat) :
    Decidable (IsVisited table kind tokens i) :=
  inferInstanceAs (Decidable (_ ∧ _))

/-- The option that names a source file, from its mark and its second letter. -/
def sourceOption (mark letter : Char) : String := String.ofList [mark, 'T', letter]

/-! ## The walk over two parts -/

section

variable {table : OptionTable} {kind : ToolKind} {pre rest : List String}

/-- Behind a token that takes nothing the positions count anew. -/
theorem isCut_cons {token : String} (h : consumes table kind token = false) (i : Nat) :
    IsCut table kind (token :: rest) (i + 1) ↔ IsCut table kind rest i := by
  unfold IsCut
  rw [isParameter_cons h, List.getElem?_cons_succ]

/-- Behind a token and its parameter the positions count anew. -/
theorem isCut_cons_cons {token next : String} (h : consumes table kind token = true) (i : Nat) :
    IsCut table kind (token :: next :: rest) (i + 2) ↔ IsCut table kind rest i := by
  unfold IsCut
  rw [isParameter_cons_cons h, List.getElem?_cons_succ, List.getElem?_cons_succ]

/-- Whether there is a cut at a position depends on the tokens up to it. -/
theorem isCut_append {i : Nat} (h : i < pre.length) :
    IsCut table kind (pre ++ rest) i ↔ IsCut table kind pre i := by
  unfold IsCut IsParameter
  rw [List.take_append_of_le_length (Nat.le_of_lt h), List.getElem?_append_left h]

/-- Whether the walk comes to a position depends on the tokens before it. -/
theorem isVisited_append_iff :
    IsVisited table kind (pre ++ rest) pre.length ↔
      trailingRun (consumes table kind) pre % 2 = 0 ∧
        ∀ i < pre.length, ¬IsCut table kind pre i := by
  unfold IsVisited
  rw [isParameter_append]
  constructor
  · rintro ⟨heven, huncut⟩
    refine ⟨by omega, fun i hi hcut => huncut i hi ?_⟩
    exact (isCut_append hi).mpr hcut
  · rintro ⟨heven, huncut⟩
    refine ⟨by omega, fun i hi hcut => huncut i hi ?_⟩
    exact (isCut_append hi).mp hcut

/-- A walk that comes to the end of some tokens goes on with the rest as if it began there. -/
theorem visits_append_of_even (rest pre : List String) :
    trailingRun (consumes table kind) pre % 2 = 0 → (∀ i < pre.length, ¬IsCut table kind pre i) →
    visits table kind (pre ++ rest) = visits table kind pre ++ visits table kind rest := by
  induction pre using visits.induct table kind with
  | case1 =>
    intro _ _
    rfl
  | case2 token role htakes =>
    -- the last token takes one more, so the walk is not at the end
    intro heven _
    have hc : consumes table kind token = true := takesNext_roleOf.symm.trans htakes
    simp [trailingRun, hc] at heven
  | case3 token role htakes next more ih =>
    intro heven huncut
    have hc : consumes table kind token = true := takesNext_roleOf.symm.trans htakes
    rw [trailingRun_cons_cons hc] at heven
    have hmore := ih heven fun i hi hcut =>
      huncut (i + 2) (by simpa using hi) ((isCut_cons_cons hc i).mpr hcut)
    rw [List.cons_append, List.cons_append, visits_consuming hc, visits_consuming hc, hmore,
      List.cons_append]
  | case4 token more role htakes hlink =>
    intro _ huncut
    have hcut : IsCut table kind ([] ++ token :: more) 0 := (isCut_append_iff rfl).mpr hlink
    exact absurd hcut (huncut 0 (by simp))
  | case5 token more role htakes hlink ih =>
    intro heven huncut
    have hc : consumes table kind token = false :=
      takesNext_roleOf.symm.trans (eq_false_of_ne_true htakes)
    rw [trailingRun_cons_neg hc] at heven
    have hmore := ih heven fun i hi hcut =>
      huncut (i + 1) (by simpa using hi) ((isCut_cons hc i).mpr hcut)
    rw [List.cons_append, visits_other hc hlink, visits_other hc hlink, hmore, List.cons_append]

/-- At a position that the walk comes to, what it does later depends on the tokens from there on. -/
theorem IsVisited.visits_append (h : IsVisited table kind (pre ++ rest) pre.length)
    (rest : List String) :
    visits table kind (pre ++ rest) = visits table kind pre ++ visits table kind rest := by
  obtain ⟨heven, huncut⟩ := isVisited_append_iff.mp h
  exact visits_append_of_even rest pre heven huncut

end

/-! ## The option and its file -/

section

variable {mark letter : Char} {file : String}

theorem toList_sourceOption (mark letter : Char) :
    (sourceOption mark letter).toList = [mark, 'T', letter] :=
  String.toList_ofList

/-- The option's name is its letters and what is attached to them. -/
theorem optionName?_sourceOption (hmark : mark = '/' ∨ mark = '-') (file : String) :
    optionName? (sourceOption mark letter ++ file) =
      some (String.ofList ('T' :: letter :: file.toList)) := by
  refine optionName?_eq_some_iff.mpr ⟨mark, hmark, ?_⟩
  rw [String.toList_append, toList_sourceOption, String.toList_ofList]
  rfl

/-- No option of the table begins like one that names a source. -/
theorem not_mem_names_compiler (cs : List Char) :
    String.ofList ('T' :: cs) ∉ OptionTable.compiler.names := by
  intro h
  have hnames : ∀ name ∈ OptionTable.compiler.names, name.toList.head? ≠ some 'T' := by decide
  exact hnames _ h (by rw [String.toList_ofList, List.head?_cons])

theorem roleOf_sourceOption (hmark : mark = '/' ∨ mark = '-') (file : String) :
    roleOf .compiler .compile (sourceOption mark letter ++ file) =
      compilerRole (String.ofList ('T' :: letter :: file.toList)) := by
  rw [roleOf_of_option (optionName?_sourceOption hmark file), if_neg (not_mem_names_compiler _),
    if_pos rfl]

/-- The option alone takes the next token as a source file. -/
theorem roleOf_separate (hmark : mark = '/' ∨ mark = '-') (hletter : letter = 'c' ∨ letter = 'p') :
    roleOf .compiler .compile (sourceOption mark letter) =
      .sourceOption (String.ofList ['T', letter]) := by
  rw [← String.append_empty (s := sourceOption mark letter), roleOf_sourceOption hmark]
  rcases hletter with rfl | rfl <;> rfl

/-- The option with a file attached names it as it is written. -/
theorem roleOf_attached (hmark : mark = '/' ∨ mark = '-') (hletter : letter = 'c' ∨ letter = 'p')
    (hfile : file ≠ "") :
    roleOf .compiler .compile (sourceOption mark letter ++ file) = .attachedSource file := by
  rw [roleOf_sourceOption hmark]
  obtain ⟨c, cs, hcs⟩ : ∃ c cs, file.toList = c :: cs := by
    refine List.exists_cons_of_ne_nil fun h => hfile ?_
    rw [← String.toList_inj, h]
    rfl
  have hback : String.ofList (c :: cs) = file := by rw [← hcs, String.ofList_toList]
  unfold compilerRole
  rw [String.toList_ofList, hcs]
  rcases hletter with rfl | rfl <;> exact congrArg Role.attachedSource hback

/-- An option that names a source is no link switch. -/
theorem isLinkSwitch_sourceOption (mark letter : Char) (file : String) :
    isLinkSwitch (sourceOption mark letter ++ file) = false := by
  unfold isLinkSwitch
  rw [String.toList_append, toList_sourceOption]
  show (Text.lowerCase ('T' :: letter :: file.toList) == ['l', 'i', 'n', 'k']) = false
  have hfirst : Text.lowerCase ('T' :: letter :: file.toList) =
      't' :: Text.lowerFrom ['T'] (letter :: file.toList) := rfl
  rw [hfirst, beq_eq_false_iff_ne]
  exact fun h => absurd (List.head_eq_of_cons_eq h) (by decide)

end

/-! ## Two ways to name a source -/

/-- Where the walk comes to an option that names a source, the file may be attached to it or be the
next token: the run is of the same kind, the classification is the same, and the file is one of the
sources unless its value is empty. -/
theorem classify_attached {pre suffix : List String} {mark letter : Char} {file : String}
    (hmark : mark = '/' ∨ mark = '-') (hletter : letter = 'c' ∨ letter = 'p') (hfile : file ≠ "")
    (hlink : isLinkSwitch file = false)
    (hvisited : IsVisited .compiler .compile
      (pre ++ sourceOption mark letter :: file :: suffix) pre.length) :
    ToolKind.compile.recordedAs (pre ++ (sourceOption mark letter ++ file) :: suffix) =
        ToolKind.compile.recordedAs (pre ++ sourceOption mark letter :: file :: suffix) ∧
      classify .compiler .compile (pre ++ (sourceOption mark letter ++ file) :: suffix) =
        classify .compiler .compile (pre ++ sourceOption mark letter :: file :: suffix) ∧
      (classify .compiler .compile
          (pre ++ (sourceOption mark letter ++ file) :: suffix)).files .compile =
        (classify .compiler .compile
          (pre ++ sourceOption mark letter :: file :: suffix)).files .compile ∧
      (Argument.value file ≠ "" → Argument.value file ∈ (classify .compiler .compile
        (pre ++ sourceOption mark letter :: file :: suffix)).files .compile) := by
  have hseparate : visits .compiler .compile (pre ++ sourceOption mark letter :: file :: suffix) =
      visits .compiler .compile pre ++
        ⟨sourceOption mark letter, .sourceOption (String.ofList ['T', letter]), some file⟩ ::
          visits .compiler .compile suffix := by
    have hrole := roleOf_separate hmark hletter
    rw [hvisited.visits_append, visits_consuming (takesNext_roleOf.symm.trans (by rw [hrole]; rfl)),
      hrole]
  have hattached : visits .compiler .compile (pre ++ (sourceOption mark letter ++ file) :: suffix) =
      visits .compiler .compile pre ++
        ⟨sourceOption mark letter ++ file, .attachedSource file, none⟩ ::
          visits .compiler .compile suffix := by
    have hrole := roleOf_attached hmark hletter hfile
    rw [hvisited.visits_append, visits_other (takesNext_roleOf.symm.trans (by rw [hrole]; rfl))
      (by rw [hrole]; simp), hrole]
  have hclassify : classify .compiler .compile (pre ++ (sourceOption mark letter ++ file) :: suffix) =
      classify .compiler .compile (pre ++ sourceOption mark letter :: file :: suffix) := by
    unfold classify Classification.ofVisits
    rw [hseparate, hattached]
    simp [Visit.candidate?, Visit.source?]
  have hkind : handsToLinker (pre ++ (sourceOption mark letter ++ file) :: suffix) =
      handsToLinker (pre ++ sourceOption mark letter :: file :: suffix) := by
    have hoption := isLinkSwitch_sourceOption mark letter ""
    rw [String.append_empty] at hoption
    simp [handsToLinker, isLinkSwitch_sourceOption, hoption, hlink]
  refine ⟨?_, hclassify, by rw [hclassify], fun hvalue => ?_⟩
  · unfold ToolKind.recordedAs
    rw [hkind]
  · have hsource : Argument.value file ∈ (classify .compiler .compile
        (pre ++ sourceOption mark letter :: file :: suffix)).sources := by
      unfold classify
      rw [hseparate]
      refine List.mem_filterMap.mpr ⟨_, List.mem_append_right _ List.mem_cons_self, rfl⟩
    unfold Classification.files
    rw [if_pos rfl]
    exact List.mem_append_left _ (List.mem_filter.mpr ⟨hsource, by simpa using hvalue⟩)

/-- The file looks like an option with a parameter, and stands behind an option whose parameter looks
like one that names a source. -/
theorem classify_attached_option :
    isLinkSwitch "/I" = false ∧
      IsVisited .compiler .compile ["/D", "/Tc", "-Tp", "/I", "b.cpp"] 2 ∧
      ToolKind.compile.recordedAs ["/D", "/Tc", "-Tp/I", "b.cpp"] =
        ToolKind.compile.recordedAs ["/D", "/Tc", "-Tp", "/I", "b.cpp"] ∧
      classify .compiler .compile ["/D", "/Tc", "-Tp/I", "b.cpp"] =
        classify .compiler .compile ["/D", "/Tc", "-Tp", "/I", "b.cpp"] ∧
      "/I" ∈ (classify .compiler .compile ["/D", "/Tc", "-Tp", "/I", "b.cpp"]).files .compile := by
  have hlink : isLinkSwitch "/I" = false := by decide
  have hvisited : IsVisited .compiler .compile ["/D", "/Tc", "-Tp", "/I", "b.cpp"] 2 := by decide
  obtain ⟨hkind, hclassify, -, hmem⟩ := @classify_attached ["/D", "/Tc"] ["b.cpp"] '-' 'p' "/I"
    (Or.inr rfl) (Or.inr rfl) (by decide) hlink hvisited
  exact ⟨hlink, hvisited, hkind, hclassify, hmem (by decide)⟩

end BuildCommands
