import BuildCommands.Package.Version
import BuildCommands.Program
import BuildCommands.Proofs.FileWriting
import Mathlib.Logic.Basic

/-!
# What a run needs

Before a run reads its events it looks at the packages, at the events file and at the jobs, in this
order, and what is missing first is what it fails for.

    prepare world task = .ok () ↔ the packages suffice, there is an events file, and there is at
                                  least one job                              (prepare_eq_ok_iff)
-/

namespace BuildCommands

/-! ## Packages -/

theorem complaint?_eq_none {installed : Package.Installed} {package purpose version : String}
    (h : Package.status installed package none = .ok (.installed version true)) :
    Package.complaint? installed package purpose = none := by
  obtain ⟨minimum, hminimum, hjudge⟩ := bind_eq_ok_iff.mp h
  have hverify : Package.verify installed package none = .ok (.installed version true) :=
    bind_eq_ok_iff.mpr ⟨minimum, hminimum, bind_eq_ok_iff.mpr ⟨_, hjudge, rfl⟩⟩
  unfold Package.complaint?
  rw [hverify]

/-- A package is complained about unless it is installed in a sufficient version. -/
theorem complaint?_eq_none_iff {installed : Package.Installed} {package purpose : String} :
    Package.complaint? installed package purpose = none ↔
      ∃ version, Package.status installed package none = .ok (.installed version true) := by
  constructor
  · intro h
    unfold Package.complaint? at h
    split at h
    · next status hverify =>
      unfold Package.verify at hverify
      obtain ⟨minimum, hminimum, hverify⟩ := bind_eq_ok_iff.mp hverify
      obtain ⟨found, hjudge, hverify⟩ := bind_eq_ok_iff.mp hverify
      split at hverify
      · cases hverify
      · cases hverify
      · next version => exact ⟨version, bind_eq_ok_iff.mpr ⟨minimum, hminimum, hjudge⟩⟩
    · cases h
  · rintro ⟨version, hstatus⟩
    exact complaint?_eq_none hstatus

namespace World

/-! ## Definitions -/

/-- Every package that is needed is installed in a sufficient version. -/
def PackagesSuffice (world : World) : Prop :=
  ∀ needed ∈ neededPackages, ∃ version,
    Package.status world.packages needed.1 none = .ok (.installed version true)

/-- The events are on the standard input or in a file that is there. -/
def FindsEvents (world : World) (task : Task) : Prop :=
  task.events = "-" ∨ world.tree.isFile world.directory task.events = true

/-! ## Checks -/

variable {world : World} {task : Task}

theorem findSome?_complaint?_eq_none_iff :
    (neededPackages.findSome? fun needed =>
      Package.complaint? world.packages needed.1 needed.2) = none ↔ world.PackagesSuffice := by
  rw [List.findSome?_eq_none_iff]
  unfold PackagesSuffice
  simp only [complaint?_eq_none_iff]

theorem not_findsEvents_iff :
    ¬world.FindsEvents task ↔
      task.events ≠ "-" ∧ world.tree.isFile world.directory task.events = false := by
  unfold FindsEvents
  rw [not_or, Bool.not_eq_true]

theorem prepare_of_complaint {complaint : Message}
    (h : (neededPackages.findSome? fun needed =>
      Package.complaint? world.packages needed.1 needed.2) = some complaint) :
    prepare world task = .error (.package complaint) := by
  unfold prepare
  simp only [h]
  rfl

/-- A run without its packages is refused for one of them. -/
theorem prepare_of_package (task : Task) (hpackages : ¬world.PackagesSuffice) :
    ∃ complaint, prepare world task = .error (.package complaint) := by
  rw [← findSome?_complaint?_eq_none_iff, ← ne_eq, Option.ne_none_iff_exists'] at hpackages
  obtain ⟨complaint, hcomplaint⟩ := hpackages
  exact ⟨complaint, prepare_of_complaint hcomplaint⟩

/-- A run with its packages is refused if there are no events to be read. -/
theorem prepare_of_noEvents (hpackages : world.PackagesSuffice) (hfound : ¬world.FindsEvents task) :
    prepare world task = .error (.noEvents task.events) := by
  rw [← findSome?_complaint?_eq_none_iff] at hpackages
  rw [not_findsEvents_iff] at hfound
  unfold prepare
  simp only [hpackages, if_pos hfound]
  rfl

/-- A run with its packages and its events is refused for its jobs alone. -/
theorem prepare_of_found (hpackages : world.PackagesSuffice) (hfound : world.FindsEvents task) :
    prepare world task =
      match task.jobs? with
      | none => .error (.void .jobs)
      | some jobs => if jobs < 1 then .error (.badJobs jobs) else .ok () := by
  rw [← findSome?_complaint?_eq_none_iff] at hpackages
  rw [← not_not (a := world.FindsEvents task), not_findsEvents_iff] at hfound
  unfold prepare
  simp only [hpackages, if_neg hfound]
  rfl

/-- A run is prepared when it has its packages, its events and at least one job. -/
theorem prepare_eq_ok_iff :
    prepare world task = .ok () ↔ world.PackagesSuffice ∧ world.FindsEvents task ∧
      ∃ jobs, task.jobs? = some jobs ∧ 1 ≤ jobs := by
  by_cases hpackages : world.PackagesSuffice
  · by_cases hfound : world.FindsEvents task
    · rw [prepare_of_found hpackages hfound]
      cases hjobs : task.jobs? with
      | none => exact ⟨nofun, fun ⟨_, _, _, hjobs, _⟩ => nomatch hjobs⟩
      | some jobs => simp [hpackages, hfound]
    · rw [prepare_of_noEvents hpackages hfound]
      exact ⟨nofun, fun h => absurd h.2.1 hfound⟩
  · obtain ⟨complaint, hprepare⟩ := prepare_of_package task hpackages
    rw [hprepare]
    exact ⟨nofun, fun h => absurd h.1 hpackages⟩

/-- The packages suffice in the versions that are required. -/
theorem packagesSuffice_of_requirements
    (h : world.packages = ⟨Package.requirements, .pep440⟩) :
    world.PackagesSuffice := by
  unfold PackagesSuffice neededPackages
  rw [h]
  simp only [List.forall_mem_cons]
  exact ⟨⟨"0.4.6", by decide +kernel⟩, ⟨"24.0", by decide +kernel⟩, List.forall_mem_nil _⟩

/-- A world with the packages, and a file with the bytes in the working directory. -/
def ofFile (content : ByteArray) : World where
  tree := ⟨[(["work"], .directory), (["work", "e.jsonl"], .file content)]⟩
  directory := ["work"]
  workingPath := "/work"
  input := .empty
  terminal := false
  columns := 80
  prints? := none
  packages := ⟨Package.requirements, .pep440⟩
  palette := .ansi
  limits := .usual
  schedule _ := 0

end World

end BuildCommands
