import BuildCommands.Arguments
import BuildCommands.Arguments.Help
import BuildCommands.Package.Requirement

/-!
# Checking packages from the command line

`--check-all` reports on every package that is needed; without it the help text is shown.
-/

namespace BuildCommands.Package

/-- What the check does and what its options mean. -/
def checkManual : Arguments.Manual where
  program := "package_verification.py"
  purpose := "Verify compdb package dependencies"
  operands := []
  options := [⟨["-h", "--help"], none, "show this help message and exit"⟩,
    ⟨["--check-all"], none, "Check all runtime packages"⟩]
  closing := []
  keepsLines := false

inductive CheckSetting where
  | help
  | checkAll
  deriving DecidableEq, Repr

/-- The options of the check. -/
def checkInterface : Arguments.Interface CheckSetting where
  flags := [⟨["-h", "--help"], false, .help⟩, ⟨["--check-all"], false, .checkAll⟩]
  operand? := none

/-- How a check ends. -/
inductive CheckEnd where
  /-- It comes to an end with this verdict: zero if all is well. -/
  | done (verdict : Nat)
  /-- It stops with this exit code. -/
  | stopped (code : Nat)
  /-- A version text cannot be read. -/
  | failed (failure : Failure)
  deriving DecidableEq, Repr

/-- Plain text for a channel. -/
def plainText (channel : Channel) (text : String) : Message := .text channel [.text text]

/-- Checks the packages as the arguments ask, on a terminal of so many columns. -/
def check (installed : Installed) (columns : Nat) (arguments : List String) :
    List Message × CheckEnd :=
  let reading := checkInterface.read arguments
  if reading.given.contains (.flag .help) then
    ([plainText .output (checkManual.help columns)], .stopped 0)
  else
    match reading.fault? with
    | some fault =>
      ([plainText .error
        (checkManual.usage columns ++ checkManual.program ++ ": error: " ++ fault.message ++ "\n")],
        .stopped 2)
    | none =>
      if reading.given.contains (.flag .checkAll) then
        match reportAll installed with
        | (lines, .ok true) => (lines, .done 0)
        | (lines, .ok false) => (lines, .done 1)
        | (lines, .error failure) => (lines, .failed failure)
      else ([plainText .output (checkManual.help columns)], .done 0)

end BuildCommands.Package
