import BuildCommands.Invocation.ToolKind

/-!
# Compilers that link

A compiler run with a link switch among its tokens is recorded as a link run.
-/

namespace BuildCommands

/-- Whether the text behind the token's first character is the link switch, in any letter case. -/
def isLinkSwitch (token : String) : Bool :=
  match token.toList with
  | [] => false
  | _ :: name => Text.lowerCase name == ['l', 'i', 'n', 'k']

/-- Whether a compiler with these tokens hands over to the linker. -/
def handsToLinker (tokens : List String) : Bool := tokens.any isLinkSwitch

/-- The kind a run of the given kind is recorded as. -/
def ToolKind.recordedAs (kind : ToolKind) (tokens : List String) : ToolKind :=
  if kind = .compile ∧ handsToLinker tokens = true then .link else kind

end BuildCommands
