import BuildCommands.Invocation.Classification

/-!
# The files of a run

A compiler's files are the ones its options name as sources, then the candidates with a source
extension, or all candidates.  A linker's files are the candidates with the extension of an object,
a library or a dynamic library.  Empty names never count.
-/

namespace BuildCommands

/-- The text behind the last dot in lower case. -/
def fileExtension? (name : String) : Option String :=
  let cs := name.toList
  if cs.contains '.' then
    some (Text.lower (String.ofList (cs.reverse.takeWhile (· != '.')).reverse))
  else none

/-- The extensions of the files that tools of this kind read. -/
def ToolKind.extensions : ToolKind → List String
  | .compile => ["c", "cxx", "cpp"]
  | .link => ["obj", "lib", "dll"]

/-- Whether the file's extension is one that tools of this kind read. -/
def ToolKind.reads (kind : ToolKind) (name : String) : Bool :=
  (fileExtension? name).any kind.extensions.contains

/-- Whether a candidate of this value is a file of a run of the given kind. -/
def Classification.accepts (c : Classification) (kind : ToolKind) (name : String) : Bool :=
  name != "" && (kind == .compile && c.allSources || kind.reads name)

/-- The files of a run of the given kind. -/
def Classification.files (c : Classification) (kind : ToolKind) : List String :=
  (if kind = .compile then c.sources.filter (· != "") else []) ++
    (c.candidates.map Argument.value).filter (c.accepts kind)

end BuildCommands
