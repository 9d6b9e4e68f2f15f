import BuildCommands.CommandLine.Argument
import BuildCommands.Invocation.ToolKind

/-!
# Classification of arguments

Each token has a role that it has by itself: an option of the table takes the next token as its
parameter, a compiler's `/Tc` and `/Tp` take the next token as a source file, and so on.  A walk
over the tokens skips what an option takes and stops at a compiler's `/link`; `visits` is the list
of tokens it comes to, each with what it takes.  The classification reads candidates and sources
off the visits.
-/

namespace BuildCommands

/-! ## Options -/

/-- The name of an option: the text behind its slash or dash. -/
def optionName? (token : String) : Option String :=
  match token.toList with
  | '/' :: name => some (String.ofList name)
  | '-' :: name => some (String.ofList name)
  | _ => none

/-- Names of the options whose parameter is the next token. -/
structure OptionTable where
  names : List String
  deriving DecidableEq, Repr

/-- Whether the option takes the next token as its parameter. -/
def OptionTable.takesParameter (table : OptionTable) (name : String) : Bool :=
  table.names.contains name

/-- The compiler's options with a separate parameter.  Linker and librarian are read by the same
table. -/
def OptionTable.compiler : OptionTable :=
  ⟨["D", "I", "F", "U", "FI", "FU", "analyze:log", "analyze:stacksize", "analyze:max_paths",
    "analyze:ruleset", "analyze:plugin"]⟩

/-! ## Roles -/

/-- What a token is by itself. -/
inductive Role where
  /-- An option that takes the next token as its parameter. -/
  | parameterOption
  /-- A compiler's option of this name, which takes the next token as a source file. -/
  | sourceOption (name : String)
  /-- A compiler's option that names a source file in the same token, as written. -/
  | attachedSource (file : String)
  /-- A compiler's option that makes every candidate a source file. -/
  | allSources
  /-- A compiler's switch behind which the tokens are the linker's. -/
  | linkSwitch
  /-- Any other option, or a response file. -/
  | ignored
  /-- A plain token, which may name a file. -/
  | candidate
  deriving DecidableEq, Repr

/-- The role of a compiler's option that the table does not list. -/
def compilerRole (name : String) : Role :=
  match name.toList with
  | ['T', 'c'] => .sourceOption name
  | ['T', 'p'] => .sourceOption name
  | 'T' :: 'c' :: file => .attachedSource (String.ofList file)
  | 'T' :: 'p' :: file => .attachedSource (String.ofList file)
  | ['T', 'C'] => .allSources
  | ['T', 'P'] => .allSources
  | ['l', 'i', 'n', 'k'] => .linkSwitch
  | _ => .ignored

/-- The role of a token in a run of the given kind. -/
def roleOf (table : OptionTable) (kind : ToolKind) (token : String) : Role :=
  match optionName? token with
  | some name =>
    if table.takesParameter name then .parameterOption
    else
      match kind with
      | .compile => compilerRole name
      | .link => .ignored
  | none => if token.toList.head? = some '@' then .ignored else .candidate

/-- Whether a token of this role takes the next one. -/
def Role.takesNext : Role → Bool
  | .parameterOption => true
  | .sourceOption _ => true
  | _ => false

/-! ## Visits -/

/-- A token the walk comes to, its role, and the token it takes, if one follows. -/
structure Visit where
  token : String
  role : Role
  taken : Option String
  deriving DecidableEq, Repr

/-- The tokens that the walk comes to. -/
def visits (table : OptionTable) (kind : ToolKind) : List String → List Visit
  | [] => []
  | token :: rest =>
    let role := roleOf table kind token
    if role.takesNext then
      match rest with
      | [] => [⟨token, role, none⟩]
      | next :: rest => ⟨token, role, some next⟩ :: visits table kind rest
    else if role = .linkSwitch then [⟨token, role, none⟩]
    else ⟨token, role, none⟩ :: visits table kind rest

/-- The token, if it may name a file. -/
def Visit.candidate? (visit : Visit) : Option String :=
  if visit.role = .candidate then some visit.token else none

/-- The value of the source file that the token names. -/
def Visit.source? (visit : Visit) : Option String :=
  match visit.role with
  | .sourceOption _ => visit.taken.map Argument.value
  | .attachedSource file => some (Argument.value file)
  | _ => none

/-- The option at the end of the tokens that should name a source file and does not. -/
def Visit.dangling? (visit : Visit) : Option String :=
  match visit.role, visit.taken with
  | .sourceOption name, none => some name
  | _, _ => none

/-! ## Classification -/

/-- What the tokens of one run say about its files. -/
structure Classification where
  /-- Tokens that may name files, as written. -/
  candidates : List String
  /-- Values of the files that options name as sources. -/
  sources : List String
  /-- Every candidate is a source. -/
  allSources : Bool
  deriving DecidableEq, Repr

/-- What the visits say. -/
def Classification.ofVisits (visits : List Visit) : Classification where
  candidates := visits.filterMap Visit.candidate?
  sources := visits.filterMap Visit.source?
  allSources := visits.any (·.role = .allSources)

/-- What the tokens of a run of the given kind say. -/
def classify (table : OptionTable) (kind : ToolKind) (tokens : List String) : Classification :=
  .ofVisits (visits table kind tokens)

end BuildCommands
