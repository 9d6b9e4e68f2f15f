import BuildCommands.Console
import BuildCommands.Package.Library
import BuildCommands.Text.Quoted

/-!
# Package requirements

Two packages are needed, each in a minimum version.  A package is judged by the version that is
installed; the verdict is a status, or a failure where a version text cannot be read.
-/

namespace BuildCommands.Package

/-! ## Verdicts -/

/-- What is installed: packages with their versions, and the library that versions are read with. -/
structure Installed where
  versions : List (String × String)
  library : VersionLibrary

/-- The version in which a package is installed. -/
def Installed.version? (installed : Installed) (package : String) : Option String :=
  (installed.versions.find? (·.1 = package)).map (·.2)

/-- The packages that are needed and their minimum versions. -/
def requirements : List (String × String) := [("packaging", "24.0"), ("colorama", "0.4.6")]

/-- Why a package is not good enough, or could not be judged. -/
inductive Failure where
  | noRequirement (package : String)
  | notInstalled (package minimum : String)
  | tooOld (package version minimum : String)
  | unreadVersion (text : String) (fault : VersionFault)
  deriving DecidableEq, Repr

def Failure.message : Failure → String
  | .noRequirement package => "No version requirement specified for " ++ package
  | .notInstalled package minimum =>
    s!"{package} is not installed. Install with: pip install '{package}>={minimum}'"
  | .tooOld package version minimum =>
    s!"{package} {version} is too old. Version >={minimum} is required. " ++
      s!"Upgrade with: pip install --upgrade '{package}>={minimum}'"
  | .unreadVersion text .invalid => "Invalid version: " ++ Text.quoted text
  | .unreadVersion _ (.overlong digits) => Text.overlongMessage digits

/-- How a package stands. -/
inductive Status where
  | missing
  | installed (version : String) (sufficient : Bool)
  deriving DecidableEq, Repr

/-- Reads a version, or fails with the text. -/
def VersionLibrary.read (library : VersionLibrary) (text : String) : Except Failure Unit :=
  match library.fault? text with
  | none => .ok ()
  | some fault => .error (.unreadVersion text fault)

/-- How a package stands against a minimum version.  The installed version is read first. -/
def judge (installed : Installed) (package minimum : String) : Except Failure Status := do
  match installed.version? package with
  | none => return .missing
  | some text =>
    installed.library.read text
    installed.library.read minimum
    return .installed text (installed.library.atLeast text minimum)

/-- The minimum version that is given, or else the one that is required. -/
def minimumFor (package : String) (minimum? : Option String) : Except Failure String :=
  match minimum? with
  | some minimum => .ok minimum
  | none =>
    match requirements.find? (·.1 = package) with
    | some (_, minimum) => .ok minimum
    | none => .error (.noRequirement package)

/-- How a package stands; the given minimum version counts before the required one. -/
def status (installed : Installed) (package : String) (minimum? : Option String) :
    Except Failure Status := do
  judge installed package (← minimumFor package minimum?)

/-- How a package stands, if it is good enough. -/
def verify (installed : Installed) (package : String) (minimum? : Option String) :
    Except Failure Status := do
  let minimum ← minimumFor package minimum?
  match ← judge installed package minimum with
  | .missing => throw (.notInstalled package minimum)
  | .installed version false => throw (.tooOld package version minimum)
  | .installed version true => return .installed version true

/-! ## Reports -/

/-- The complaint about a package that is needed for something and not good enough. -/
def complaint? (installed : Installed) (package purpose : String) : Option Message :=
  match verify installed package none with
  | .ok _ => none
  | .error failure =>
    some (.failure true (s!"{package} is required for {purpose}: " ++ failure.message))

/-- What a package is needed for, where nothing else is said. -/
def usualPurpose : String := "this tool"

/-- The status line of a package. -/
def statusLine (package minimum : String) : Status → Message
  | .missing => .failure false s!"{package} not installed (need >={minimum})"
  | .installed version false => .failure false s!"{package} {version} (need >={minimum})"
  | .installed version true => .success false s!"{package} {version}"

def Status.isGood : Status → Bool
  | .installed _ sufficient => sufficient
  | .missing => false

/-- The status lines of the packages, and whether all of them are good enough.  A version text that
cannot be read ends the report. -/
def report (installed : Installed) : List (String × String) → List Message × Except Failure Bool
  | [] => ([], .ok true)
  | (package, minimum) :: rest =>
    match judge installed package minimum with
    | .error failure => ([], .error failure)
    | .ok status =>
      let (lines, verdict) := report installed rest
      (statusLine package minimum status :: lines, verdict.map (status.isGood && ·))

/-- The report on everything that is needed. -/
def reportAll (installed : Installed) : List Message × Except Failure Bool :=
  report installed requirements

end BuildCommands.Package
