import BuildCommands.Text.DecimalDigit
import BuildCommands.Text.Quoted

/-!
# Command-line arguments

A command line interface is a list of options and perhaps one operand that is required.  An option
has several spellings: a dash and a letter, or two dashes and a word.  A word may be cut short as
long as one spelling alone starts so; its value follows after an equals sign or as the next
argument.  Letters may share a dash, and the value of the last one may follow at once.  Behind `--`
every argument is an operand, and so are a dash alone and a negative number anywhere.  The mark
`--` is never a value: an option that has it attached is left void.

Reading has two steps: `tokensOf` tells what each argument is, and `read` gives the options their
values, in order, up to the first fault.
-/

namespace BuildCommands.Arguments

/-! ## Interfaces -/

/-- An option, its spellings and what it is for. -/
structure Flag (α : Type) where
  spellings : List String
  takesValue : Bool
  purpose : α
  deriving DecidableEq, Repr

def Flag.label {α : Type} (flag : Flag α) : String := "/".intercalate flag.spellings

/-- The options of a program, and the name of its operand. -/
structure Interface (α : Type) where
  flags : List (Flag α)
  operand? : Option String

def Interface.spellings {α : Type} (interface : Interface α) : List (String × Flag α) :=
  interface.flags.flatMap fun flag => flag.spellings.map (·, flag)

/-- The option with exactly this spelling. -/
def Interface.find? {α : Type} (interface : Interface α) (spelling : String) : Option (Flag α) :=
  (interface.spellings.find? (·.1 = spelling)).map (·.2)

/-! ## Faults -/

/-- Why arguments are refused.  Options are named by their labels. -/
inductive Fault where
  /-- Several spellings start as the argument does. -/
  | ambiguous (argument : String) (spellings : List String)
  | unwantedValue (label value : String)
  | missingValue (label : String)
  | notInteger (label value : String)
  | missingOperand (name : String)
  /-- Nothing takes these arguments. -/
  | unknown (arguments : List String)
  deriving DecidableEq, Repr

def Fault.message : Fault → String
  | .ambiguous argument spellings =>
    s!"ambiguous option: {argument} could match " ++ ", ".intercalate spellings
  | .unwantedValue label value =>
    s!"argument {label}: ignored explicit argument " ++ Text.quoted value
  | .missingValue label => s!"argument {label}: expected one argument"
  | .notInteger label value => s!"argument {label}: invalid int value: " ++ Text.quoted value
  | .missingOperand name => "the following arguments are required: " ++ name
  | .unknown arguments => "unrecognized arguments: " ++ " ".intercalate arguments

/-! ## Tokens -/

inductive Token (α : Type) where
  /-- A plain argument, an operand or a value. -/
  | plain (argument : String)
  /-- The mark behind which all is plain. -/
  | dashes
  /-- An option in a spelling, with the value or the further letters in the same argument. -/
  | flag (flag : Flag α) (spelling : String) (attached? : Option String)
  /-- It looks like an option and is none. -/
  | unknown (argument : String)

/-- The text before the first equals sign, and behind it if there is one. -/
def splitEquals (argument : String) : String × Option String :=
  let cs := argument.toList
  match cs.dropWhile (· != '=') with
  | [] => (argument, none)
  | _ :: value => (String.ofList (cs.takeWhile (· != '=')), some (String.ofList value))

/-- Whether the first text starts as the second does. -/
def startsWith (text start : String) : Bool := start.toList.isPrefixOf text.toList

/-- The options that an argument may mean when it is no spelling itself. -/
def Interface.readings {α : Type} (interface : Interface α) (argument : String) :
    List (Flag α × String × Option String) :=
  match argument.toList with
  | '-' :: '-' :: _ =>
    let (start, value?) := splitEquals argument
    (interface.spellings.filter fun s => startsWith s.1 start).map fun s => (s.2, s.1, value?)
  | '-' :: letter :: rest =>
    interface.spellings.filterMap fun s =>
      if s.1.toList = ['-', letter] then some (s.2, s.1, some (String.ofList rest))
      else if startsWith s.1 argument then some (s.2, s.1, none)
      else none
  | _ => []

/-- What an argument is that starts with a dash and is no spelling itself. -/
def Interface.guess {α : Type} (interface : Interface α) (argument : String) :
    Except Fault (Token α) :=
  match interface.readings argument with
  | [(flag, spelling, value?)] => .ok (.flag flag spelling value?)
  | [] =>
    if Text.isNegativeNumeral argument || argument.toList.contains ' ' then .ok (.plain argument)
    else .ok (.unknown argument)
  | several => .error (.ambiguous argument (several.map (·.2.1)))

def Interface.token {α : Type} (interface : Interface α) (argument : String) :
    Except Fault (Token α) :=
  if argument.toList.head? ≠ some '-' then .ok (.plain argument)
  else
    match interface.find? argument with
    | some flag => .ok (.flag flag argument none)
    | none =>
      if argument = "-" then .ok (.plain argument)
      else
        match splitEquals argument with
        | (start, some value) =>
          match interface.find? start with
          | some flag => .ok (.flag flag start (some value))
          | none => interface.guess argument
        | (_, none) => interface.guess argument

def Interface.tokensOf {α : Type} (interface : Interface α) :
    List String → Except Fault (List (Token α))
  | [] => .ok []
  | argument :: rest =>
    if argument = "--" then .ok (.dashes :: rest.map .plain)
    else do
      let token ← interface.token argument
      let tokens ← interface.tokensOf rest
      return token :: tokens

/-! ## Reading -/

/-- Something the arguments say. -/
inductive Given (α : Type) where
  | flag (purpose : α)
  | value (purpose : α) (label text : String)
  /-- An option that takes a value and has the mark `--` in its place. -/
  | void (purpose : α)
  | operand (text : String)
  deriving DecidableEq, Repr

/-- What the arguments say, in order, and the fault that ended the reading. -/
structure Reading (α : Type) where
  given : List (Given α)
  fault? : Option Fault

def Flag.alone {α : Type} (flag : Flag α) : Given α := .flag flag.purpose

/-- The option with a value, or void if the value is the mark. -/
def Flag.withValue {α : Type} (flag : Flag α) (text : String) : Given α :=
  if text = "--" then .void flag.purpose else .value flag.purpose flag.label text

/-- Reads the letters behind an option that was given as a letter: what they say, and the last
option if its value is still to come. -/
def Interface.readLetters {α : Type} (interface : Interface α) (flag : Flag α) :
    List Char → Except Fault (List (Given α) × Option (Flag α))
  | [] => if flag.takesValue then .ok ([], some flag) else .ok ([flag.alone], none)
  | letter :: rest =>
    if flag.takesValue then .ok ([flag.withValue (String.ofList (letter :: rest))], none)
    else
      match interface.find? (String.ofList ['-', letter]) with
      | none => .error (.unwantedValue flag.label (String.ofList (letter :: rest)))
      | some next => do
        let (given, pending?) ← interface.readLetters next rest
        return (flag.alone :: given, pending?)

/-- Reads one option with what is attached to it: what it says, and the option if its value is
still to come. -/
def Interface.readFlag {α : Type} (interface : Interface α) (flag : Flag α) (spelling : String) :
    Option String → Except Fault (List (Given α) × Option (Flag α))
  | none => if flag.takesValue then .ok ([], some flag) else .ok ([flag.alone], none)
  | some text =>
    if flag.takesValue then .ok ([flag.withValue text], none)
    else if startsWith spelling "--" || text = "" then .error (.unwantedValue flag.label text)
    else interface.readLetters flag text.toList

/-- How far the reading is: what was said, in reverse, whether the operand is still to come, and
the arguments that nothing took, in reverse. -/
structure Progress (α : Type) where
  given : List (Given α)
  operandOpen : Bool
  extras : List String

def Progress.say {α : Type} (p : Progress α) (given : List (Given α)) : Progress α :=
  { p with given := given.reverse ++ p.given }

def Progress.takeOperand {α : Type} (p : Progress α) (text : String) : Progress α :=
  { p with given := .operand text :: p.given, operandOpen := false }

def Progress.leave {α : Type} (p : Progress α) (argument : String) : Progress α :=
  { p with extras := argument :: p.extras }

def Progress.close {α : Type} (p : Progress α) (fault? : Option Fault) : Reading α :=
  ⟨p.given.reverse, fault?⟩

/-- The fault of a reading that came to the end: a missing operand counts before arguments that
nothing took. -/
def Interface.finalFault? {α : Type} (interface : Interface α) (p : Progress α) : Option Fault :=
  match interface.operand? with
  | some name =>
    if p.operandOpen then some (.missingOperand name)
    else if p.extras.isEmpty then none else some (.unknown p.extras.reverse)
  | none => if p.extras.isEmpty then none else some (.unknown p.extras.reverse)

/-- Reads the tokens.  The operand is the first plain argument that no option takes; a mark
before or behind it goes with it. -/
def Interface.readTokens {α : Type} (interface : Interface α) (p : Progress α) :
    List (Token α) → Reading α
  | [] => p.close (interface.finalFault? p)
  | .plain text :: .dashes :: rest =>
    if p.operandOpen then interface.readTokens (p.takeOperand text) rest
    else interface.readTokens (p.leave text) (.dashes :: rest)
  | .plain text :: rest =>
    if p.operandOpen then interface.readTokens (p.takeOperand text) rest
    else interface.readTokens (p.leave text) rest
  | .dashes :: .plain text :: rest =>
    if p.operandOpen then interface.readTokens (p.takeOperand text) rest
    else interface.readTokens (p.leave "--") (.plain text :: rest)
  | .dashes :: rest => interface.readTokens (p.leave "--") rest
  | .unknown argument :: rest => interface.readTokens (p.leave argument) rest
  | .flag flag spelling attached? :: rest =>
    match interface.readFlag flag spelling attached? with
    | .error fault => p.close (some fault)
    | .ok (given, none) => interface.readTokens (p.say given) rest
    | .ok (given, some pending) =>
      match rest with
      | .plain text :: rest => interface.readTokens (p.say (given ++ [pending.withValue text])) rest
      | _ => p.close (some (.missingValue pending.label))

def Interface.read {α : Type} (interface : Interface α) (arguments : List String) : Reading α :=
  match interface.tokensOf arguments with
  | .error fault => ⟨[], some fault⟩
  | .ok tokens => interface.readTokens ⟨[], interface.operand?.isSome, []⟩ tokens

end BuildCommands.Arguments
