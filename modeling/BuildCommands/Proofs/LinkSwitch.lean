import BuildCommands.Proofs.Canonical
import BuildCommands.Proofs.Parameters
import BuildCommands.Proofs.Replay

/-!
# Link switches

Two rules know a link switch.  The rule for the kind looks at every token, in any letter case and
behind any first character; the rule that ends the walk looks at the tokens that the walk comes to
and wants the exact name.  The first covers the second: a run that is recorded as a compiler's is
walked to its end, and a compiler's run with an exact switch anywhere is read by the linker's rules
from its first token to its last.

    no link switch → the visits take up every token                (flatMap_tokens_visits)
    no link switch → visits = visitsThrough                        (visitsThrough_eq)
    files of a link run = plain tokens that are no parameters, by extension   (files_link)
-/

namespace BuildCommands

/-! ## Definitions -/

/-- The tokens that a visit takes up. -/
def Visit.tokens (visit : Visit) : List String := visit.token :: visit.taken.toList

/-- The role of a token where the rule for the switch is left out: the switch is one more option of
no concern. -/
def Role.unlinked : Role → Role
  | .linkSwitch => .ignored
  | role => role

/-- The walk over the tokens where the rule for the switch is left out. -/
def visitsThrough (table : OptionTable) (kind : ToolKind) : List String → List Visit
  | [] => []
  | token :: rest =>
    let role := (roleOf table kind token).unlinked
    if role.takesNext then
      match rest with
      | [] => [⟨token, role, none⟩]
      | next :: rest => ⟨token, role, some next⟩ :: visitsThrough table kind rest
    else ⟨token, role, none⟩ :: visitsThrough table kind rest

/-- The plain tokens that are no parameters. -/
def plainTokens (table : OptionTable) (kind : ToolKind) (tokens : List String) : List String :=
  ((tokens.zipIdx.filter fun p => ¬IsParameter table kind tokens p.2).map Prod.fst).filter isPlain

/-! ## Switches -/

section

variable {table : OptionTable} {kind : ToolKind} {tokens : List String} {token : String}

/-- An option that is named `link` is a link switch to the rule for the kind. -/
theorem isLinkSwitch_of_name (h : optionName? token = some "link") : isLinkSwitch token = true := by
  obtain ⟨mark, -, htoken⟩ := optionName?_eq_some_iff.mp h
  unfold isLinkSwitch
  rw [htoken]
  show (Text.lowerCase "link".toList == ['l', 'i', 'n', 'k']) = true
  decide

/-- The switch that ends the walk is an option that is named `link`. -/
theorem optionName?_of_linkSwitch (h : roleOf table kind token = .linkSwitch) :
    optionName? token = some "link" :=
  (Option.filter_eq_some_iff.mp (roleOf_eq_linkSwitch_iff.mp h).2).1

theorem token_mem_of_mem_visits : ∀ visit ∈ visits table kind tokens, visit.token ∈ tokens := by
  fun_induction visits table kind tokens with
  | case1 => exact List.forall_mem_nil _
  | case2 => exact List.forall_mem_singleton.mpr List.mem_cons_self
  | case3 token role _ next rest ih =>
    refine List.forall_mem_cons.mpr ⟨List.mem_cons_self, fun visit hvisit => ?_⟩
    exact List.mem_cons_of_mem _ (List.mem_cons_of_mem _ (ih visit hvisit))
  | case4 => exact List.forall_mem_singleton.mpr List.mem_cons_self
  | case5 token rest role _ _ ih =>
    refine List.forall_mem_cons.mpr ⟨List.mem_cons_self, fun visit hvisit => ?_⟩
    exact List.mem_cons_of_mem _ (ih visit hvisit)

/-- Among tokens that do not hand over to the linker the walk comes to no switch. -/
theorem not_linkSwitch_of_mem_visits (h : handsToLinker tokens = false) :
    ∀ visit ∈ visits table kind tokens, visit.role ≠ .linkSwitch := by
  intro visit hvisit hrole
  rw [role_of_mem_visits visit hvisit] at hrole
  have hswitch := isLinkSwitch_of_name (optionName?_of_linkSwitch hrole)
  have hany : handsToLinker tokens = true :=
    List.any_eq_true.mpr ⟨visit.token, token_mem_of_mem_visits visit hvisit, hswitch⟩
  rw [h] at hany
  cases hany

/-- A walk that comes to no switch visits every token or takes it as a parameter. -/
theorem flatMap_tokens_visits : (∀ visit ∈ visits table kind tokens, visit.role ≠ .linkSwitch) →
    (visits table kind tokens).flatMap Visit.tokens = tokens := by
  fun_induction visits table kind tokens with
  | case1 => exact fun _ => rfl
  | case2 => exact fun _ => rfl
  | case3 token role _ next rest ih =>
    intro h
    rw [List.flatMap_cons, ih (List.forall_mem_cons.mp h).2]
    rfl
  | case4 token rest role _ hlink =>
    intro h
    exact absurd hlink (h _ List.mem_cons_self)
  | case5 token rest role _ _ ih =>
    intro h
    rw [List.flatMap_cons, ih (List.forall_mem_cons.mp h).2]
    rfl

theorem Role.unlinked_of_ne {role : Role} (h : role ≠ .linkSwitch) : role.unlinked = role := by
  cases role <;> first | rfl | exact absurd rfl h

/-- A walk that comes to no switch is the same without the rule for it. -/
theorem visitsThrough_eq : (∀ visit ∈ visits table kind tokens, visit.role ≠ .linkSwitch) →
    visitsThrough table kind tokens = visits table kind tokens := by
  fun_induction visits table kind tokens with
  | case1 => exact fun _ => rfl
  | case2 token role htakes =>
    intro h
    have hrole : (roleOf table kind token).unlinked = role :=
      Role.unlinked_of_ne (h _ List.mem_cons_self)
    rw [visitsThrough]
    simp only [hrole, htakes, if_true]
  | case3 token role htakes next rest ih =>
    intro h
    obtain ⟨hfirst, hrest⟩ := List.forall_mem_cons.mp h
    have hrole : (roleOf table kind token).unlinked = role := Role.unlinked_of_ne hfirst
    rw [visitsThrough]
    simp only [hrole, htakes, if_true, ih hrest]
  | case4 token rest role _ hlink =>
    intro h
    exact absurd hlink (h _ List.mem_cons_self)
  | case5 token rest role htakes _ ih =>
    intro h
    obtain ⟨hfirst, hrest⟩ := List.forall_mem_cons.mp h
    have hrole : (roleOf table kind token).unlinked = role := Role.unlinked_of_ne hfirst
    rw [visitsThrough.eq_def]
    simp only [hrole, htakes, ih hrest]
    rfl

end

/-! ## Kinds -/

theorem ToolKind.recordedAs_eq_compile_iff {kind : ToolKind} {tokens : List String} :
    kind.recordedAs tokens = .compile ↔ kind = .compile ∧ handsToLinker tokens = false := by
  cases kind <;> cases h : handsToLinker tokens <;> simp [recordedAs, h]

theorem ToolKind.recordedAs_of_switch {kind : ToolKind} {tokens : List String}
    (h : ∃ token ∈ tokens, optionName? token = some "link") : kind.recordedAs tokens = .link := by
  obtain ⟨token, hmem, hname⟩ := h
  have hany : handsToLinker tokens = true :=
    List.any_eq_true.mpr ⟨token, hmem, isLinkSwitch_of_name hname⟩
  cases kind <;> simp [recordedAs, hany]

/-! ## Files -/

/-- The extensions of a linker's files. -/
theorem reads_link_iff (name : String) :
    ToolKind.link.reads name = true ↔ fileExtension? name ∈ [some "obj", some "lib", some "dll"] := by
  unfold ToolKind.reads
  cases fileExtension? name with
  | none => simp
  | some extension => simp [ToolKind.extensions]

/-- The files of a link run are the values of its plain tokens with a linker's extension. -/
theorem files_link (table : OptionTable) (tokens : List String) :
    (classify table .link tokens).files .link =
      ((plainTokens table .link tokens).map Argument.value).filter
        fun name => fileExtension? name ∈ [some "obj", some "lib", some "dll"] := by
  have hfree : freeTokens table .link tokens =
      tokens.zipIdx.filter fun p => ¬IsParameter table .link tokens p.2 := by
    unfold freeTokens freeAmong
    rw [List.takeWhile_eq_self_iff.mpr]
    intro p _
    simp [IsCut]
  unfold Classification.files
  rw [if_neg (by decide), List.nil_append, (classify_eq_freeTokens table .link tokens).1, hfree]
  refine List.filter_congr fun name _ => ?_
  unfold Classification.accepts
  rw [Bool.eq_iff_iff, decide_eq_true_iff, ← reads_link_iff]
  have hempty : ToolKind.link.reads "" = false := by decide
  by_cases hname : name = ""
  · simp [hname, hempty]
  · simp [hname]

/-! ## Runs -/

namespace Session

/-- A session under way records a link run with its files and no compile record. -/
theorem handle_link {session : Session} {db : Database} {event : BuildEvent} {run : Invocation}
    (hdb : session.database? = some db) (h : event.outcome session.base = .recorded run)
    (hkind : run.kind = .link) :
    ∃ after, session.handle event = .ok (after, some .link) ∧
      after.database? =
        some ⟨db.compiles, db.links.push ⟨run.command, run.directory, run.files⟩⟩ := by
  have hrecord : db.record (event.outcome session.base) =
      .ok (db.replay session.base [event]) := record_outcome db
  rw [h, Database.record, hkind] at hrecord
  refine ⟨session.replay [event], ?_, ?_⟩
  · rw [handle_live (Option.isSome_of_eq_some hdb), h, Outcome.kind?, hkind]
  · show session.database?.map _ = _
    rw [hdb, Option.map_some, ← Except.ok.inj hrecord]
    rfl

end Session

namespace Invocation

/-- The walk over a compiler's run goes to the end of its tokens and is the one that knows no
switch.  A run of a compiler with the exact switch among its tokens is a linker's: its files are the
object files and libraries among its plain tokens, on both sides of the switch, and its event adds a
link record alone. -/
theorem parse_switch {base directory line : String} {kind : ToolKind} {run : Invocation}
    (h : parse base kind directory line = .ok run) :
    (run.kind = .compile →
      (∀ visit ∈ visits .compiler .compile run.tokens, visit.role ≠ .linkSwitch) ∧
        (visits .compiler .compile run.tokens).flatMap Visit.tokens = run.tokens ∧
        classify .compiler .compile run.tokens =
          .ofVisits (visitsThrough .compiler .compile run.tokens)) ∧
    (kind = .compile → (∃ token ∈ run.tokens, optionName? token = some "link") →
      run.kind = .link ∧
        run.files = ((plainTokens .compiler .link run.tokens).map Argument.value).filter
          (fun name => fileExtension? name ∈ [some "obj", some "lib", some "dll"]) ∧
        ∀ (session : Session) (db : Database) (event : BuildEvent), session.base = base →
          session.database? = some db → ToolKind.ofTask event.task = .ok kind →
          event.directory = directory → event.commandLine = line →
          ∃ after, session.handle event = .ok (after, some .link) ∧
            after.database? =
              some ⟨db.compiles, db.links.push ⟨run.command, run.directory, run.files⟩⟩) := by
  obtain ⟨split, -, hrun⟩ := exists_split_of_parse h
  have hkind : run.kind = kind.recordedAs run.tokens := by rw [hrun]; rfl
  have hfiles : run.files = (classify .compiler run.kind run.tokens).files run.kind := by
    rw [hrun]; rfl
  constructor
  · intro hcompile
    rw [hkind, ToolKind.recordedAs_eq_compile_iff] at hcompile
    have hnone : ∀ visit ∈ visits .compiler .compile run.tokens, visit.role ≠ .linkSwitch :=
      not_linkSwitch_of_mem_visits hcompile.2
    exact ⟨hnone, flatMap_tokens_visits hnone,
      congrArg Classification.ofVisits (visitsThrough_eq hnone).symm⟩
  · intro _ hswitch
    have hlink : run.kind = .link := hkind.trans (ToolKind.recordedAs_of_switch hswitch)
    refine ⟨hlink, ?_, ?_⟩
    · rw [hfiles, hlink, files_link]
    · rintro session db event rfl hdb htask rfl rfl
      exact Session.handle_link hdb (outcome_of_parsed htask h) hlink

/-- A compiler's run with two kinds of sources, and one whose switch is the parameter of another
option. -/
theorem parse_switch_parameter :
    (∃ run, parse "/b" .compile "p" "cl.exe /c a.cpp /Tc /linker" = .ok run ∧
      run.kind = .compile ∧
      (visits .compiler .compile run.tokens).flatMap Visit.tokens = run.tokens ∧
      classify .compiler .compile run.tokens =
        .ofVisits (visitsThrough .compiler .compile run.tokens)) ∧
    ∃ run, parse "/b" .compile "p" "cl.exe a.obj /I -link /Tc b.LIB @c.dll d.cpp" = .ok run ∧
      (∃ token ∈ run.tokens, optionName? token = some "link") ∧
      run.kind = .link ∧ run.files = ["a.obj", "b.LIB"] := by
  constructor
  · have h : parse "/b" .compile "p" "cl.exe /c a.cpp /Tc /linker" =
        .ok ⟨.compile, "cl.exe", ["/c", "a.cpp", "/Tc", "/linker"],
          "\"/b/cl.exe\" /c a.cpp /Tc /linker", "p", ["/linker", "a.cpp"]⟩ := by
      decide +kernel
    obtain ⟨-, hwalked, hthrough⟩ := (parse_switch h).1 rfl
    exact ⟨_, h, rfl, hwalked, hthrough⟩
  · have h : parse "/b" .compile "p" "cl.exe a.obj /I -link /Tc b.LIB @c.dll d.cpp" =
        .ok ⟨.link, "cl.exe", ["a.obj", "/I", "-link", "/Tc", "b.LIB", "@c.dll", "d.cpp"],
          "\"/b/cl.exe\" a.obj /I -link /Tc b.LIB @c.dll d.cpp", "p", ["a.obj", "b.LIB"]⟩ := by
      decide +kernel
    have hswitch : ∃ token ∈ ["a.obj", "/I", "-link", "/Tc", "b.LIB", "@c.dll", "d.cpp"],
        optionName? token = some "link" := ⟨"-link", by decide, by decide⟩
    obtain ⟨hlink, hfiles, -⟩ := (parse_switch h).2 rfl hswitch
    exact ⟨_, h, hswitch, hlink, hfiles.trans (by decide +kernel)⟩

end Invocation

end BuildCommands
