import BuildCommands.Invocation.Classification
import BuildCommands.Proofs.Lists
import Mathlib.Data.List.TakeWhile

/-!
# Parameters by position

The walk over the tokens jumps over what an option takes and stops at a compiler's `/link`.  Here
is where it comes to, said of the list of tokens alone: a token is a parameter when an odd run of
consuming options ends right before it, and the tokens from the first `/link` on that is no
parameter belong to the linker.

    visits tokens without the switch = freeTokens tokens, each with what it takes
                                                                       (filter_visits)
    classify reads candidates, sources and the mode off the free tokens
                                                                       (classify_eq_freeTokens)
-/

namespace BuildCommands

section Definitions

variable (table : OptionTable) (kind : ToolKind)

/-- An option of the table, or a compiler's `/Tc` or `/Tp`. -/
def consumes (token : String) : Bool :=
  (optionName? token).any fun name =>
    table.names.contains name || kind == .compile && (name == "Tc" || name == "Tp")

/-- An odd run of consuming options ends right before the position. -/
def IsParameter (tokens : List String) (i : Nat) : Prop :=
  trailingRun (consumes table kind) (tokens.take i) % 2 = 1

instance (tokens : List String) (i : Nat) : Decidable (IsParameter table kind tokens i) :=
  inferInstanceAs (Decidable (_ = _))

/-- The name of an option that the table does not list. -/
def unlistedName? (token : String) : Option String :=
  (optionName? token).filter fun name => !table.names.contains name

/-- A compiler's `/link` that is no parameter. -/
def IsCut (tokens : List String) (i : Nat) : Prop :=
  kind = .compile ∧ ¬IsParameter table kind tokens i ∧
    tokens[i]?.bind (unlistedName? table) = some "link"

instance (tokens : List String) (i : Nat) : Decidable (IsCut table kind tokens i) :=
  inferInstanceAs (Decidable (_ ∧ _ ∧ _))

/-- Of some tokens with their positions, those before the first cut that are no parameters. -/
def freeAmong (tokens : List String) (places : List (String × Nat)) : List (String × Nat) :=
  (places.takeWhile fun p => ¬IsCut table kind tokens p.2).filter
    fun p => ¬IsParameter table kind tokens p.2

/-- The tokens before the first cut that are no parameters, with their positions. -/
def freeTokens (tokens : List String) : List (String × Nat) :=
  freeAmong table kind tokens tokens.zipIdx

/-- The token begins like neither an option nor a response file. -/
def isPlain (token : String) : Bool := token.toList.head?.all fun c => c ∉ ['/', '-', '@']

/-- The value of the source file that a free token names, before the given token. -/
def namedSource? (token : String) (next : Option String) : Option String :=
  match unlistedName? table token with
  | none => none
  | some name =>
    if kind ≠ .compile then none
    else if name = "Tc" ∨ name = "Tp" then next.map Argument.value
    else if "Tc".toList <+: name.toList ∨ "Tp".toList <+: name.toList then
      some (Argument.value (String.ofList (name.toList.drop 2)))
    else none

/-- What the walk keeps of a free token. -/
def visitAt (tokens : List String) (p : String × Nat) : Visit where
  token := p.1
  role := roleOf table kind p.1
  taken := if consumes table kind p.1 then tokens[p.2 + 1]? else none

end Definitions

/-! ## Roles -/

/-- The rules for a compiler's option in the order in which they are tried. -/
theorem compilerRole_eq (name : String) :
    compilerRole name =
      if name = "Tc" ∨ name = "Tp" then .sourceOption name
      else if "Tc".toList <+: name.toList ∨ "Tp".toList <+: name.toList then
        .attachedSource (String.ofList (name.toList.drop 2))
      else if name = "TC" ∨ name = "TP" then .allSources
      else if name = "link" then .linkSwitch
      else .ignored := by
  obtain ⟨cs, rfl⟩ : ∃ cs, name = String.ofList cs := ⟨name.toList, by simp⟩
  unfold compilerRole
  simp only [String.toList_ofList, ← String.toList_inj]
  split
  case h_8 hc hp _ _ _ =>
    have hnot : ¬("Tc".toList <+: cs ∨ "Tp".toList <+: cs) := by
      rintro (⟨file, rfl⟩ | ⟨file, rfl⟩)
      · exact hc file rfl
      · exact hp file rfl
    rw [if_neg hnot]
    simp_all
  all_goals simp_all

section

variable {table : OptionTable} {kind : ToolKind} {token : String}

theorem optionName?_eq_none_iff :
    optionName? token = none ↔ ∀ c ∈ token.toList.head?, c ≠ '/' ∧ c ≠ '-' := by
  unfold optionName?
  split
  case h_3 hs hd =>
    cases hcs : token.toList with
    | nil => simp
    | cons c cs =>
      have h1 : c ≠ '/' := by
        rintro rfl
        exact hs cs hcs
      have h2 : c ≠ '-' := by
        rintro rfl
        exact hd cs hcs
      simp [h1, h2]
  all_goals simp_all

/-- An option is a slash or a dash and the name. -/
theorem optionName?_eq_some_iff {name : String} :
    optionName? token = some name ↔
      ∃ mark, (mark = '/' ∨ mark = '-') ∧ token.toList = mark :: name.toList := by
  constructor
  · intro h
    unfold optionName? at h
    split at h
    next cs hcs => exact ⟨'/', by simp, by cases h; simpa using hcs⟩
    next cs hcs => exact ⟨'-', by simp, by cases h; simpa using hcs⟩
    next => cases h
  · rintro ⟨mark, rfl | rfl, hs⟩
    · simp [optionName?, hs]
    · simp [optionName?, hs]

/-- The role of a token that is no option. -/
theorem roleOf_of_plain (h : optionName? token = none) :
    roleOf table kind token = if isPlain token then .candidate else .ignored := by
  have hc := optionName?_eq_none_iff.mp h
  unfold roleOf isPlain
  rw [h]
  cases hcs : token.toList.head? with
  | none => simp
  | some c =>
    rw [hcs] at hc
    by_cases ha : c = '@'
    · simp [ha]
    · simp [ha, hc c rfl]

theorem isPlain_of_option {name : String} (h : optionName? token = some name) :
    isPlain token = false := by
  unfold optionName? at h
  unfold isPlain
  split at h
  next _ hcs => simp [hcs]
  next _ hcs => simp [hcs]
  next => cases h

/-- The role of an option. -/
theorem roleOf_of_option {name : String} (h : optionName? token = some name) :
    roleOf table kind token =
      if name ∈ table.names then .parameterOption
      else if kind = .compile then compilerRole name else .ignored := by
  unfold roleOf OptionTable.takesParameter
  rw [h]
  cases kind with
  | compile => simp
  | link => simp

theorem unlistedName?_of_plain (h : optionName? token = none) :
    unlistedName? table token = none := by
  unfold unlistedName?
  rw [h]
  rfl

theorem unlistedName?_of_option {name : String} (h : optionName? token = some name) :
    unlistedName? table token = if name ∈ table.names then none else some name := by
  unfold unlistedName?
  rw [h, Option.filter_some]
  simp

theorem consumes_of_option {name : String} (h : optionName? token = some name) :
    consumes table kind token =
      (decide (name ∈ table.names) ||
        decide (kind = .compile ∧ (name = "Tc" ∨ name = "Tp"))) := by
  unfold consumes
  rw [h]
  cases kind <;> simp [beq_eq_decide]

/-- The options that take the next token are the consuming ones. -/
theorem takesNext_roleOf : (roleOf table kind token).takesNext = consumes table kind token := by
  cases h : optionName? token with
  | none =>
    rw [roleOf_of_plain h]
    unfold consumes
    rw [h]
    split <;> rfl
  | some name =>
    rw [roleOf_of_option h, consumes_of_option h]
    by_cases hn : name ∈ table.names
    · simp [hn, Role.takesNext]
    cases kind with
    | link => simp [hn, Role.takesNext]
    | compile =>
      rw [if_neg hn, if_pos rfl, compilerRole_eq]
      split_ifs with h1 h2 h3 h4 <;> simp [hn, h1, Role.takesNext]

theorem roleOf_eq_candidate_iff : roleOf table kind token = .candidate ↔ isPlain token = true := by
  cases h : optionName? token with
  | none =>
    rw [roleOf_of_plain h]
    split
    next hp => simp [hp]
    next hp => simp [hp]
  | some name =>
    rw [roleOf_of_option h, isPlain_of_option h, compilerRole_eq]
    split_ifs <;> simp

/-- A role that only a compiler's option outside the table has. -/
theorem roleOf_eq_iff {role : Role} (hc : role ≠ .candidate) (hi : role ≠ .ignored)
    (hp : role ≠ .parameterOption) :
    roleOf table kind token = role ↔
      kind = .compile ∧ ∃ name, unlistedName? table token = some name ∧
        compilerRole name = role := by
  cases h : optionName? token with
  | none =>
    rw [roleOf_of_plain h, unlistedName?_of_plain h]
    split
    next => simp [hc.symm]
    next => simp [hi.symm]
  | some name =>
    rw [roleOf_of_option h, unlistedName?_of_option h]
    by_cases hn : name ∈ table.names
    · simp [hn, hp.symm]
    cases kind with
    | link => simp [hn, hi.symm]
    | compile => simp [hn]

theorem compilerRole_eq_linkSwitch_iff {name : String} :
    compilerRole name = .linkSwitch ↔ name = "link" := by
  constructor
  · intro h
    rw [compilerRole_eq] at h
    split_ifs at h with _ _ _ h4
    exact h4
  · rintro rfl
    rfl

theorem compilerRole_eq_allSources_iff {name : String} :
    compilerRole name = .allSources ↔ name = "TC" ∨ name = "TP" := by
  constructor
  · intro h
    rw [compilerRole_eq] at h
    split_ifs at h with _ _ h3
    exact h3
  · rintro (rfl | rfl)
    · rfl
    · rfl

theorem roleOf_eq_linkSwitch_iff :
    roleOf table kind token = .linkSwitch ↔
      kind = .compile ∧ unlistedName? table token = some "link" := by
  rw [roleOf_eq_iff (by decide) (by decide) (by decide)]
  simp only [compilerRole_eq_linkSwitch_iff, exists_eq_right]

theorem roleOf_eq_allSources_iff :
    roleOf table kind token = .allSources ↔
      kind = .compile ∧
        (unlistedName? table token = some "TC" ∨ unlistedName? table token = some "TP") := by
  rw [roleOf_eq_iff (by decide) (by decide) (by decide)]
  simp only [compilerRole_eq_allSources_iff]
  constructor
  · rintro ⟨hk, name, hname, rfl | rfl⟩
    · exact ⟨hk, Or.inl hname⟩
    · exact ⟨hk, Or.inr hname⟩
  · rintro ⟨hk, hname | hname⟩
    · exact ⟨hk, "TC", hname, Or.inl rfl⟩
    · exact ⟨hk, "TP", hname, Or.inr rfl⟩

theorem source?_visitAt (tokens : List String) (p : String × Nat) :
    (visitAt table kind tokens p).source? =
      namedSource? table kind p.1 tokens[p.2 + 1]? := by
  unfold Visit.source? visitAt namedSource?
  dsimp only
  cases h : optionName? p.1 with
  | none =>
    rw [roleOf_of_plain h, unlistedName?_of_plain h]
    split_ifs <;> rfl
  | some name =>
    rw [roleOf_of_option h, unlistedName?_of_option h]
    by_cases hn : name ∈ table.names
    · simp [hn]
    cases kind with
    | link => simp [hn]
    | compile =>
      rw [if_neg hn, if_neg hn, if_pos rfl, compilerRole_eq, consumes_of_option h]
      split_ifs <;> simp_all

end

/-! ## The walk -/

section

variable {table : OptionTable} {kind : ToolKind} {tokens : List String}

theorem isParameter_append (pre rest : List String) :
    IsParameter table kind (pre ++ rest) pre.length ↔
      trailingRun (consumes table kind) pre % 2 = 1 := by
  unfold IsParameter
  rw [List.take_left]

theorem not_isParameter_zero (tokens : List String) : ¬IsParameter table kind tokens 0 := by
  unfold IsParameter
  simp [trailingRun]

/-- Behind a token that takes nothing the positions count anew. -/
theorem isParameter_cons {token : String} {rest : List String}
    (h : consumes table kind token = false) (i : Nat) :
    IsParameter table kind (token :: rest) (i + 1) ↔ IsParameter table kind rest i := by
  unfold IsParameter
  rw [List.take_succ_cons, trailingRun_cons_neg h]

/-- Behind a token and its parameter the positions count anew. -/
theorem isParameter_cons_cons {token next : String} {rest : List String}
    (h : consumes table kind token = true) (i : Nat) :
    IsParameter table kind (token :: next :: rest) (i + 2) ↔ IsParameter table kind rest i := by
  unfold IsParameter
  rw [List.take_succ_cons, List.take_succ_cons, trailingRun_cons_cons h]

theorem IsParameter.not_isCut {i : Nat} (h : IsParameter table kind tokens i) :
    ¬IsCut table kind tokens i := fun hcut => hcut.2.1 h

theorem freeAmong_cons_free {p : String × Nat} {places : List (String × Nat)}
    (hcut : ¬IsCut table kind tokens p.2) (hp : ¬IsParameter table kind tokens p.2) :
    freeAmong table kind tokens (p :: places) = p :: freeAmong table kind tokens places := by
  unfold freeAmong
  rw [List.takeWhile_cons_of_pos (by simpa using hcut), List.filter_cons_of_pos (by simpa using hp)]

theorem freeAmong_cons_parameter {p : String × Nat} {places : List (String × Nat)}
    (hp : IsParameter table kind tokens p.2) :
    freeAmong table kind tokens (p :: places) = freeAmong table kind tokens places := by
  unfold freeAmong
  rw [List.takeWhile_cons_of_pos (by simpa using hp.not_isCut),
    List.filter_cons_of_neg (by simpa using hp)]

theorem freeAmong_cons_cut {p : String × Nat} {places : List (String × Nat)}
    (hcut : IsCut table kind tokens p.2) : freeAmong table kind tokens (p :: places) = [] := by
  unfold freeAmong
  rw [List.takeWhile_cons_of_neg (by simpa using hcut), List.filter_nil]

section

variable {pre rest : List String} {token next : String}

/-- At a free token the cut is where the walk stops. -/
theorem isCut_append_iff (heven : trailingRun (consumes table kind) pre % 2 = 0) :
    IsCut table kind (pre ++ token :: rest) pre.length ↔ roleOf table kind token = .linkSwitch := by
  have hfree : ¬IsParameter table kind (pre ++ token :: rest) pre.length := by
    rw [isParameter_append]
    omega
  rw [roleOf_eq_linkSwitch_iff]
  unfold IsCut
  rw [List.getElem?_append_right (Nat.le_refl _), Nat.sub_self, List.getElem?_cons_zero]
  simp only [hfree, not_false_eq_true, true_and, Option.bind_some]

theorem freeAmong_append (heven : trailingRun (consumes table kind) pre % 2 = 0)
    (hlink : roleOf table kind token ≠ .linkSwitch) :
    freeAmong table kind (pre ++ token :: rest) ((token :: rest).zipIdx pre.length) =
      (token, pre.length) ::
        freeAmong table kind (pre ++ token :: rest) (rest.zipIdx (pre.length + 1)) := by
  rw [List.zipIdx_cons]
  apply freeAmong_cons_free
  · show ¬IsCut table kind (pre ++ token :: rest) pre.length
    rw [isCut_append_iff heven]
    exact hlink
  · show ¬IsParameter table kind (pre ++ token :: rest) pre.length
    rw [isParameter_append]
    omega

/-- The token behind a consuming one that is no parameter is one. -/
theorem freeAmong_append_parameter (heven : trailingRun (consumes table kind) pre % 2 = 0)
    (htakes : consumes table kind token = true) :
    freeAmong table kind (pre ++ token :: next :: rest)
        ((next :: rest).zipIdx (pre.length + 1)) =
      freeAmong table kind (pre ++ token :: next :: rest) (rest.zipIdx (pre.length + 2)) := by
  rw [List.zipIdx_cons]
  apply freeAmong_cons_parameter
  show IsParameter table kind (pre ++ token :: next :: rest) (pre.length + 1)
  have hodd : trailingRun (consumes table kind) (pre ++ [token]) % 2 = 1 := by
    rw [trailingRun_concat, if_pos htakes]
    omega
  rw [← isParameter_append (pre ++ [token]) (next :: rest), List.append_assoc] at hodd
  simpa using hodd

/-- Behind a consuming token and its parameter the walk stands on a free one again. -/
theorem trailingRun_taken (heven : trailingRun (consumes table kind) pre % 2 = 0)
    (htakes : consumes table kind token = true) :
    trailingRun (consumes table kind) (pre ++ [token] ++ [next]) % 2 = 0 := by
  rw [trailingRun_concat, trailingRun_concat, if_pos htakes]
  split
  · omega
  · rfl

end

section

variable {rest : List String} {token next : String}

theorem not_linkSwitch_of_consumes (h : consumes table kind token = true) :
    roleOf table kind token ≠ .linkSwitch := by
  intro hlink
  rw [← takesNext_roleOf, hlink] at h
  cases h

/-- A visit notes the role that its token has by itself. -/
theorem role_of_mem_visits {tokens : List String} :
    ∀ visit ∈ visits table kind tokens, visit.role = roleOf table kind visit.token := by
  fun_induction visits table kind tokens with
  | case1 => exact nofun
  | case2 => exact List.forall_mem_singleton.mpr rfl
  | case3 token role _ next rest ih => exact List.forall_mem_cons.mpr ⟨rfl, ih⟩
  | case4 => exact List.forall_mem_singleton.mpr rfl
  | case5 token rest role _ _ ih => exact List.forall_mem_cons.mpr ⟨rfl, ih⟩

theorem visits_consuming (h : consumes table kind token = true) :
    visits table kind (token :: next :: rest) =
      ⟨token, roleOf table kind token, some next⟩ :: visits table kind rest := by
  rw [← takesNext_roleOf] at h
  rw [visits]
  exact if_pos h

theorem visits_consuming_last (h : consumes table kind token = true) :
    visits table kind [token] = [⟨token, roleOf table kind token, none⟩] := by
  rw [← takesNext_roleOf] at h
  rw [visits]
  exact if_pos h

theorem visits_linkSwitch (h : roleOf table kind token = .linkSwitch) :
    visits table kind (token :: rest) = [⟨token, .linkSwitch, none⟩] := by
  cases rest <;> simp [visits, h, Role.takesNext]

theorem visits_other (h : consumes table kind token = false)
    (hlink : roleOf table kind token ≠ .linkSwitch) :
    visits table kind (token :: rest) =
      ⟨token, roleOf table kind token, none⟩ :: visits table kind rest := by
  rw [← takesNext_roleOf] at h
  cases rest <;> simp [visits, h, hlink]

end

/-- The walk over the rest of some tokens, if it stands on a free one, comes to the free tokens of
the rest. -/
theorem filter_visits_append (rest : List String) : ∀ pre : List String,
    trailingRun (consumes table kind) pre % 2 = 0 →
      (visits table kind rest).filter (·.role ≠ .linkSwitch) =
        (freeAmong table kind (pre ++ rest) (rest.zipIdx pre.length)).map
          (visitAt table kind (pre ++ rest)) := by
  -- each step of the walk goes from one free position to the next, over one token or two
  induction rest using visits.induct table kind with
  | case1 =>
    intro pre _
    rfl
  | case2 token role htakes =>
    intro pre heven
    have hc : consumes table kind token = true := takesNext_roleOf.symm.trans htakes
    have hlink := not_linkSwitch_of_consumes hc
    rw [visits_consuming_last hc, freeAmong_append heven hlink]
    simp [hlink, visitAt, hc, freeAmong]
  | case3 token role htakes next rest ih =>
    intro pre heven
    have hc : consumes table kind token = true := takesNext_roleOf.symm.trans htakes
    have hlink := not_linkSwitch_of_consumes hc
    have hrest := ih (pre ++ [token] ++ [next]) (trailingRun_taken heven hc)
    simp only [List.append_assoc, List.length_append, List.cons_append, List.nil_append] at hrest
    rw [visits_consuming hc, freeAmong_append heven hlink, freeAmong_append_parameter heven hc,
      List.filter_cons_of_pos (by simpa using hlink), hrest, List.map_cons]
    simp [visitAt, hc]
  | case4 token rest role htakes hlink =>
    intro pre heven
    rw [List.zipIdx_cons, freeAmong_cons_cut ((isCut_append_iff heven).mpr hlink),
      visits_linkSwitch hlink]
    rfl
  | case5 token rest role htakes hlink ih =>
    intro pre heven
    have hc : consumes table kind token = false :=
      takesNext_roleOf.symm.trans (eq_false_of_ne_true htakes)
    have hrest := ih (pre ++ [token]) (by
      rw [trailingRun_concat, hc]
      rfl)
    simp only [List.append_assoc, List.length_append, List.singleton_append,
      List.length_singleton] at hrest
    rw [visits_other hc hlink, freeAmong_append heven hlink,
      List.filter_cons_of_pos (by simpa using hlink), hrest, List.map_cons]
    simp [visitAt, hc]

/-- But for the switch, the walk comes to the free tokens. -/
theorem filter_visits (tokens : List String) :
    (visits table kind tokens).filter (·.role ≠ .linkSwitch) =
      (freeTokens table kind tokens).map (visitAt table kind tokens) :=
  filter_visits_append tokens [] rfl

end

/-! ## The classification -/

/-- Nothing is read off the switch. -/
theorem ofVisits_filter (visits : List Visit) :
    Classification.ofVisits (visits.filter (·.role ≠ .linkSwitch)) = .ofVisits visits := by
  unfold Classification.ofVisits
  rw [Classification.mk.injEq, List.filterMap_filter, List.filterMap_filter, List.any_filter]
  refine ⟨?_, ?_, ?_⟩
  · congr 1
    funext visit
    by_cases h : visit.role = .linkSwitch
    · simp [Visit.candidate?, h]
    · simp [h]
  · congr 1
    funext visit
    by_cases h : visit.role = .linkSwitch
    · simp [Visit.source?, h]
    · simp [h]
  · congr 1
    funext visit
    by_cases h : visit.role = .linkSwitch
    · simp [h]
    · simp [h]

/-- A classification lists the plain ones of the free tokens and the source files that free tokens
name, both in order, and has the mode that a free `/TC` or `/TP` sets for a compiler. -/
theorem classify_eq_freeTokens (table : OptionTable) (kind : ToolKind) (tokens : List String) :
    (classify table kind tokens).candidates =
        ((freeTokens table kind tokens).map Prod.fst).filter isPlain ∧
      (classify table kind tokens).sources =
        (freeTokens table kind tokens).filterMap
          (fun p => namedSource? table kind p.1 tokens[p.2 + 1]?) ∧
      ((classify table kind tokens).allSources = true ↔
        kind = .compile ∧ ∃ p ∈ freeTokens table kind tokens,
          unlistedName? table p.1 = some "TC" ∨ unlistedName? table p.1 = some "TP") := by
  have hc : classify table kind tokens =
      .ofVisits ((freeTokens table kind tokens).map (visitAt table kind tokens)) := by
    rw [← filter_visits, ofVisits_filter]
    rfl
  rw [hc]
  refine ⟨?_, ?_, ?_⟩
  · show List.filterMap Visit.candidate? (List.map _ _) = _
    rw [List.filterMap_map, List.filter_map, ← List.filterMap_eq_filter, List.map_filterMap]
    congr 1
    funext p
    show (visitAt table kind tokens p).candidate? = _
    unfold Visit.candidate? visitAt
    simp only [roleOf_eq_candidate_iff]
    cases h : isPlain p.1 <;> simp [Option.guard, h]
  · show List.filterMap Visit.source? (List.map _ _) = _
    rw [List.filterMap_map]
    congr 1
    funext p
    exact source?_visitAt tokens p
  · show List.any (List.map _ _) _ = true ↔ _
    rw [List.any_map, List.any_eq_true]
    constructor
    · rintro ⟨p, hp, hall⟩
      obtain ⟨hk, hname⟩ := roleOf_eq_allSources_iff.mp (of_decide_eq_true hall)
      exact ⟨hk, p, hp, hname⟩
    · rintro ⟨hk, p, hp, hname⟩
      exact ⟨p, hp, decide_eq_true (roleOf_eq_allSources_iff.mpr ⟨hk, hname⟩)⟩

/-- The third option names the switch as its source file, so there is no cut. -/
example : freeTokens .compiler .compile ["/I", "/I", "/Tc", "/link", "x.c"] =
    [("/I", 0), ("/Tc", 2), ("x.c", 4)] := by
  decide

end BuildCommands
