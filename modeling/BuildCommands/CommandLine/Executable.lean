import BuildCommands.Text.Blank
import BuildCommands.Text.LowerCase

/-!
# The executable of a command line

A command line starts with the path of an executable.  A path in double quotes ends at the first
quote that no backslash escapes, and an escaped quote inside it stands for a quote.  Any other path
ends behind the first `.exe`, in any letter case.  `splitExecutable` cuts a command line there.
-/

namespace BuildCommands.CommandLine

/-! ## Faults -/

/-- Why a command line names no executable. -/
inductive Fault where
  /-- It holds nothing but white space. -/
  | empty
  /-- The quote that opens the path is never closed. -/
  | unterminatedQuote
  /-- No executable suffix ends the path. -/
  | noExecutable
  deriving DecidableEq, Repr

/-- A command line without an executable. -/
structure Malformed where
  fault : Fault
  commandLine : String
  deriving DecidableEq, Repr

def Malformed.message (m : Malformed) : String :=
  match m.fault with
  | .empty => "Empty command line"
  | .unterminatedQuote => "Unterminated quoted executable path in: " ++ m.commandLine
  | .noExecutable => "Unexpected lack of executable in: " ++ m.commandLine

/-! ## Cutting -/

/-- An executable path and the argument text behind it, which starts with no white space. -/
structure Split where
  path : String
  rest : String
  deriving DecidableEq, Repr

/-- Reads up to the first quote that is not escaped: what stands before it and what behind.
`interior` holds the characters passed in reverse. -/
def scanQuoted (escaped : Bool) (interior : List Char) :
    List Char → Option (List Char × List Char)
  | [] => none
  | c :: rest =>
    if escaped then scanQuoted false (c :: interior) rest
    else if c = '\\' then scanQuoted true (c :: interior) rest
    else if c = '"' then some (interior.reverse, rest)
    else scanQuoted false (c :: interior) rest

/-- A backslash before a quote is dropped. -/
def unescapeQuotes : List Char → List Char
  | [] => []
  | '\\' :: '"' :: rest => '"' :: unescapeQuotes rest
  | c :: rest => c :: unescapeQuotes rest

/-- How many characters stand before the first occurrence of the pattern. -/
def offsetOf? (pattern : List Char) : List Char → Option Nat
  | [] => if pattern.isEmpty then some 0 else none
  | c :: rest =>
    if pattern.isPrefixOf (c :: rest) then some 0
    else (offsetOf? pattern rest).map (· + 1)

/-- The suffix that ends an executable path without quotes. -/
def executableSuffix : List Char := ['.', 'e', 'x', 'e']

/-- How many characters an executable path without quotes has.  The suffix is sought in the lower
case form of the text, and its place there counts in the text itself. -/
def unquotedLength? (cs : List Char) : Option Nat :=
  (offsetOf? executableSuffix (Text.lowerCase cs)).map (· + executableSuffix.length)

/-- Cuts a command line that starts with no white space. -/
def splitTrimmed : List Char → Except Fault (List Char × List Char)
  | [] => .error .empty
  | '"' :: rest =>
    match scanQuoted false [] rest with
    | some (interior, tail) => .ok (unescapeQuotes interior, Text.dropBlank tail)
    | none => .error .unterminatedQuote
  | cs =>
    match unquotedLength? cs with
    | some n => .ok (cs.take n, Text.dropBlank (cs.drop n))
    | none => .error .noExecutable

/-- The executable path of a command line and its argument text. -/
def splitExecutable (commandLine : String) : Except Malformed Split :=
  match splitTrimmed (Text.dropBlank commandLine.toList) with
  | .ok (path, rest) => .ok ⟨String.ofList path, String.ofList rest⟩
  | .error fault => .error ⟨fault, commandLine⟩

end BuildCommands.CommandLine
