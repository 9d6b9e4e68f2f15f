import BuildCommands.Package.CommandLine
import BuildCommands.Package.Version
import BuildCommands.Proofs.Lists
import BuildCommands.Proofs.Preparation

/-!
# The report on all packages

The report says how each package stands, and agrees with the check that a program makes of each
package before it starts.  Both judge a package by its installed version; only the report stops at a
version text that the library does not read.  Of the library they need no more than that it reads
the versions that are required.

    the verdict is good ↔ no package is complained about                  (reportAll_iff)

Up to the first text that cannot be read, or to the end, there is one line for each package.
-/

namespace BuildCommands.Package

/-! ## Definitions -/

/-- How a package stands, said of the installed version and of the minimum. -/
inductive Stands (installed : Installed) (package minimum : String) : Status → Prop
  | missing : installed.version? package = none → Stands installed package minimum .missing
  | installed {text : String} :
      installed.version? package = some text → installed.library.fault? text = none →
      installed.library.fault? minimum = none →
      Stands installed package minimum
        (.installed text (installed.library.atLeast text minimum))

/-- The line tells how the needed package stands. -/
def TellsOf (installed : Installed) (needed : String × String) (line : Message) : Prop :=
  ∃ status, Stands installed needed.1 needed.2 status ∧
    line = statusLine needed.1 needed.2 status

/-- The installed version of the package is a text that the library does not read. -/
def Unreadable (installed : Installed) (package text : String) (fault : VersionFault) : Prop :=
  installed.version? package = some text ∧ installed.library.fault? text = some fault

/-- The library reads the versions that are required. -/
def VersionLibrary.ReadsRequired (library : VersionLibrary) : Prop :=
  ∀ needed ∈ requirements, library.fault? needed.2 = none

/-! ## Judging -/

section

variable {installed : Installed} {package minimum text : String} {status : Status}

theorem VersionLibrary.read_eq_ok_iff {library : VersionLibrary} {done : Unit} :
    library.read text = .ok done ↔ library.fault? text = none := by
  unfold VersionLibrary.read
  cases library.fault? text <;> simp

theorem judge_eq_ok_iff :
    judge installed package minimum = .ok status ↔ Stands installed package minimum status := by
  unfold judge
  constructor
  · intro h
    split at h
    · next hnone =>
      cases h
      exact .missing hnone
    · next text hsome =>
      obtain ⟨_, hversion, h⟩ := bind_eq_ok_iff.mp h
      obtain ⟨_, hleast, h⟩ := bind_eq_ok_iff.mp h
      cases h
      exact .installed hsome (VersionLibrary.read_eq_ok_iff.mp hversion)
        (VersionLibrary.read_eq_ok_iff.mp hleast)
  · rintro (hnone | ⟨hsome, hversion, hleast⟩)
    · rw [hnone]
      rfl
    · rw [hsome]
      exact bind_eq_ok_iff.mpr ⟨(), VersionLibrary.read_eq_ok_iff.mpr hversion,
        bind_eq_ok_iff.mpr ⟨(), VersionLibrary.read_eq_ok_iff.mpr hleast, rfl⟩⟩

theorem judge_of_unreadable {fault : VersionFault} (h : Unreadable installed package text fault) :
    judge installed package minimum = .error (.unreadVersion text fault) := by
  unfold judge VersionLibrary.read
  rw [h.1]
  simp only [h.2]
  rfl

/-- Against a minimum that is read, a package stands somehow or its own version is not read. -/
theorem stands_or_unreadable (installed : Installed) (package : String)
    (h : installed.library.fault? minimum = none) :
    (∃ status, Stands installed package minimum status) ∨
      ∃ text fault, Unreadable installed package text fault := by
  cases hversion : installed.version? package with
  | none => exact Or.inl ⟨_, .missing hversion⟩
  | some text =>
    cases hfault : installed.library.fault? text with
    | none => exact Or.inl ⟨_, .installed hversion hfault h⟩
    | some fault => exact Or.inr ⟨text, fault, hversion, hfault⟩

end

/-! ## Reports -/

section

variable {installed : Installed}

/-- The lines of packages that stand somehow, and whether all of them are good. -/
theorem report_of_stands {needed : List (String × String)} {statuses : List Status}
    (h : List.Forall₂ (fun n => Stands installed n.1 n.2) needed statuses) :
    ∃ lines, report installed needed = (lines, .ok (statuses.all Status.isGood)) ∧
      List.Forall₂ (TellsOf installed) needed lines := by
  induction h with
  | nil => exact ⟨[], rfl, .nil⟩
  | cons hstands _ ih =>
    obtain ⟨lines, hreport, hlines⟩ := ih
    refine ⟨_ :: lines, ?_, .cons ⟨_, hstands, rfl⟩ hlines⟩
    unfold report
    rw [judge_eq_ok_iff.mpr hstands, hreport]
    rfl

/-- A version that cannot be read ends the report behind the lines of the packages before it. -/
theorem report_of_unreadable {before : List (String × String)} {statuses : List Status}
    {needed : String × String} {text : String} {fault : VersionFault}
    (after : List (String × String))
    (h : List.Forall₂ (fun n => Stands installed n.1 n.2) before statuses)
    (htext : Unreadable installed needed.1 text fault) :
    ∃ lines, report installed (before ++ needed :: after) =
        (lines, .error (.unreadVersion text fault)) ∧
      List.Forall₂ (TellsOf installed) before lines := by
  induction h with
  | nil =>
    refine ⟨[], ?_, .nil⟩
    rw [List.nil_append, report, judge_of_unreadable htext]
  | cons hstands _ ih =>
    obtain ⟨lines, hreport, hlines⟩ := ih
    refine ⟨_ :: lines, ?_, .cons ⟨_, hstands, rfl⟩ hlines⟩
    rw [List.cons_append, report, judge_eq_ok_iff.mpr hstands, hreport]
    rfl

/-- Each minimum that is required is the one that the package is checked for. -/
theorem minimumFor_of_mem : ∀ needed ∈ requirements, minimumFor needed.1 none = .ok needed.2 := by
  unfold requirements
  simp only [List.forall_mem_cons]
  exact ⟨rfl, rfl, List.forall_mem_nil _⟩

/-- A package that is required is not complained about if it stands well. -/
theorem complaint?_eq_none_iff_stands {needed : String × String} (h : needed ∈ requirements)
    (purpose : String) :
    complaint? installed needed.1 purpose = none ↔
      ∃ status, Stands installed needed.1 needed.2 status ∧ status.isGood = true := by
  rw [complaint?_eq_none_iff]
  have hstatus : status installed needed.1 none = judge installed needed.1 needed.2 := by
    unfold status
    rw [minimumFor_of_mem needed h]
    rfl
  simp only [hstatus, judge_eq_ok_iff]
  constructor
  · rintro ⟨version, hstands⟩
    exact ⟨_, hstands, rfl⟩
  · rintro ⟨status, hstands, hgood⟩
    cases status with
    | missing => cases hgood
    | installed version sufficient =>
      cases show sufficient = true from hgood
      exact ⟨version, hstands⟩

theorem Stands.unique {package minimum : String} {status other : Status}
    (h : Stands installed package minimum status) (h' : Stands installed package minimum other) :
    status = other :=
  Except.ok.inj ((judge_eq_ok_iff.mpr h).symm.trans (judge_eq_ok_iff.mpr h'))

theorem all_isGood_iff {needed : List (String × String)} {statuses : List Status}
    (h : List.Forall₂ (fun n => Stands installed n.1 n.2) needed statuses) :
    statuses.all Status.isGood = true ↔
      ∀ n ∈ needed, ∃ status, Stands installed n.1 n.2 status ∧ status.isGood = true := by
  induction h with
  | nil => simp
  | cons hstands _ ih =>
    rw [List.all_cons, Bool.and_eq_true, ih, List.forall_mem_cons]
    refine and_congr_left fun _ => ⟨fun hgood => ⟨_, hstands, hgood⟩, ?_⟩
    rintro ⟨status, hstatus, hgood⟩
    rwa [hstands.unique hstatus]

end

/-- All that the report can come to. -/
theorem reportAll_cases (installed : Installed) (hrequired : installed.library.ReadsRequired) :
    (∃ lines statuses, List.Forall₂ (fun n => Stands installed n.1 n.2) requirements statuses ∧
        reportAll installed = (lines, .ok (statuses.all Status.isGood)) ∧
        List.Forall₂ (TellsOf installed) requirements lines) ∨
      ∃ before needed after lines text fault, requirements = before ++ needed :: after ∧
        Unreadable installed needed.1 text fault ∧
        reportAll installed = (lines, .error (.unreadVersion text fault)) ∧
        List.Forall₂ (TellsOf installed) before lines := by
  unfold reportAll
  rcases exists_forall₂_or_first (fun n => Stands installed n.1 n.2) requirements with
    ⟨statuses, h⟩ | ⟨before, needed, after, statuses, heq, h, hnone⟩
  · obtain ⟨lines, hreport, hlines⟩ := report_of_stands h
    exact Or.inl ⟨lines, statuses, h, hreport, hlines⟩
  · have hmem : needed ∈ requirements := by
      rw [heq]
      exact List.mem_append_right _ List.mem_cons_self
    obtain ⟨text, fault, htext⟩ :=
      (stands_or_unreadable installed needed.1 (hrequired needed hmem)).resolve_left
        (not_exists.mpr hnone)
    obtain ⟨lines, hreport, hlines⟩ := report_of_unreadable after h htext
    exact Or.inr ⟨before, needed, after, lines, text, fault, heq, htext, heq ▸ hreport, hlines⟩

/-- The option asks for the report. -/
theorem check_all (installed : Installed) (columns : Nat) :
    check installed columns ["--check-all"] =
      match reportAll installed with
      | (lines, .ok true) => (lines, .done 0)
      | (lines, .ok false) => (lines, .done 1)
      | (lines, .error failure) => (lines, .failed failure) := by
  have hread : checkInterface.read ["--check-all"] = ⟨[.flag .checkAll], none⟩ := by rfl
  unfold check
  rw [hread]
  rfl

/-! ## Top theorem -/

/-- The verdict of the report, and of the option that asks for it, is good exactly if no package is
complained about.  The report comes to its end with one line for each package, or stops behind the
lines of the packages before the first whose version is not read. -/
theorem reportAll_agrees (installed : Installed) (hrequired : installed.library.ReadsRequired)
    (columns : Nat) (purpose : String) :
    ((reportAll installed).2 = .ok true ↔
        ∀ needed ∈ requirements, complaint? installed needed.1 purpose = none) ∧
      ((check installed columns ["--check-all"]).2 = .done 0 ↔
        ∀ needed ∈ requirements, complaint? installed needed.1 purpose = none) ∧
      ((∃ lines good, reportAll installed = (lines, .ok good) ∧
          List.Forall₂ (TellsOf installed) requirements lines) ∨
        ∃ before needed after lines text fault, requirements = before ++ needed :: after ∧
          Unreadable installed needed.1 text fault ∧
          reportAll installed = (lines, .error (.unreadVersion text fault)) ∧
          List.Forall₂ (TellsOf installed) before lines) := by
  have hcases := reportAll_cases installed hrequired
  have hgood : (reportAll installed).2 = .ok true ↔
      ∀ needed ∈ requirements, complaint? installed needed.1 purpose = none := by
    have hcomplaint : (∀ needed ∈ requirements, complaint? installed needed.1 purpose = none) ↔
        ∀ n ∈ requirements, ∃ status, Stands installed n.1 n.2 status ∧ status.isGood = true :=
      forall₂_congr fun needed hmem => complaint?_eq_none_iff_stands hmem purpose
    rw [hcomplaint]
    rcases hcases with ⟨lines, statuses, h, hreport, -⟩ | ⟨before, needed, after, lines, text,
      fault, heq, htext, hreport, -⟩
    · rw [hreport, ← all_isGood_iff h]
      exact ⟨Except.ok.inj, congrArg Except.ok⟩
    · -- the package whose version cannot be read stands nowhere
      rw [hreport]
      refine ⟨nofun, fun h => ?_⟩
      obtain ⟨status, hstands, -⟩ := h needed (heq ▸ List.mem_append_right _ List.mem_cons_self)
      have hjudge := judge_eq_ok_iff.mpr hstands
      rw [judge_of_unreadable htext] at hjudge
      cases hjudge
  refine ⟨hgood, ?_, ?_⟩
  · rw [check_all, ← hgood]
    rcases reportAll installed with ⟨lines, _ | _ | _⟩ <;> simp
  · exact hcases.imp_left fun ⟨lines, _, _, hreport, hlines⟩ => ⟨lines, _, hreport, hlines⟩

/-- The versions that are required are read. -/
theorem readsRequired_pep440 : VersionLibrary.pep440.ReadsRequired := by
  unfold VersionLibrary.ReadsRequired requirements
  simp only [List.forall_mem_cons]
  exact ⟨by decide +kernel, by decide +kernel, List.forall_mem_nil _⟩

/-- One package is too old. -/
theorem reportAll_agrees_old :
    let installed : Installed := ⟨[("packaging", "23.9"), ("colorama", "0.4.6")], .pep440⟩
    installed.library.ReadsRequired ∧
      (reportAll installed).2 = .ok false ∧
      complaint? installed "packaging" usualPurpose ≠ none ∧
      ¬∀ needed ∈ requirements, complaint? installed needed.1 usualPurpose = none := by
  intro installed
  have hagrees := (reportAll_agrees installed readsRequired_pep440 80 usualPurpose).1
  have hverdict : (reportAll installed).2 = .ok false := by decide +kernel
  refine ⟨readsRequired_pep440, hverdict, by decide +kernel, fun h => ?_⟩
  rw [hagrees.mpr h] at hverdict
  cases hverdict

/-- A version that cannot be read ends the report before any line, although a program would only
complain about the package. -/
theorem unreadable_version_ends_report :
    let installed : Installed := ⟨[("packaging", "garbage"), ("colorama", "0.4.6")], .pep440⟩
    reportAll installed = ([], .error (.unreadVersion "garbage" .invalid)) ∧
      complaint? installed "packaging" usualPurpose = some (.failure true
        "packaging is required for this tool: Invalid version: 'garbage'") ∧
      complaint? installed "colorama" usualPurpose = none := by
  decide +kernel

end BuildCommands.Package
