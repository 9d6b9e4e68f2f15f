import BuildCommands.Text.DecimalDigit

/-!
# Libraries for versions

Texts are read as versions, and compared, by a library that is installed like any other package.
Here is what a program learns from it.
-/

namespace BuildCommands.Package

/-- Why a library does not read a text as a version. -/
inductive VersionFault where
  /-- The text is no version. -/
  | invalid
  /-- A number in it has more digits than the system reads. -/
  | overlong (digits : Nat)
  deriving DecidableEq, Repr

/-- What a program learns from the library that reads and compares versions. -/
structure VersionLibrary where
  /-- Why the text is not read, if it is not. -/
  fault? : String → Option VersionFault
  /-- Whether the version of one text is at least as new as that of another, both being read. -/
  atLeast : String → String → Bool

end BuildCommands.Package
