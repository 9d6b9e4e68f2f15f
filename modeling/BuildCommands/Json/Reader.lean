import BuildCommands.Json.Value
import BuildCommands.Text.DecimalDigit
import BuildCommands.Text.LineBreak
import BuildCommands.Text.Surrogate

/-!
# Reading JSON

A recursive descent over the characters.  White space is space, tab, line feed and carriage return.
Beside the standard's literals `NaN`, `Infinity` and `-Infinity` are numbers.  A raw control
character inside a text is a fault.

A fault keeps the characters from its place on, so that its line is found by counting the line
feeds that stand before it.  Where a document exceeds a limit of the reader it is refused on the
spot, be it JSON or not.
-/

namespace BuildCommands.Json

/-! ## Readers -/

/-- How many arrays and objects may stand in one another, and how many digits an integer may have.
The documents of records always fit. -/
structure Limits where
  levels? : Option Nat
  digits? : Option Nat
  levels_le : ∀ levels ∈ levels?, 3 ≤ levels
  digits_pos : ∀ digits ∈ digits?, 0 < digits

/-- No limits. -/
def Limits.free : Limits := ⟨none, none, nofun, nofun⟩

/-- The limits that an interpreter comes with. -/
def Limits.usual : Limits := ⟨some 991, some Text.maxDigits, by simp, by simp [Text.maxDigits]⟩

/-- What a reader goes by: its limits, and the characters that it reads for surrogates. -/
structure Reader extends Limits where
  surrogates : Surrogates

namespace Reader

/-- The reader without limits. -/
def free (surrogates : Surrogates) : Reader := ⟨.free, surrogates⟩

/-- The reader with the limits that an interpreter comes with. -/
def usual (surrogates : Surrogates) : Reader := ⟨.usual, surrogates⟩

/-- Whether an array or an object may stand in this many others. -/
def admitsLevel (reader : Reader) (depth : Nat) : Bool := reader.levels?.all (depth < ·)

/-- Whether an integer may have this many digits. -/
def admitsDigits (reader : Reader) (count : Nat) : Bool := reader.digits?.all (count ≤ ·)

end Reader

/-! ## Faults -/

/-- Why a document is not JSON. -/
inductive Fault where
  | byteOrderMark
  | noValue
  | extraData
  | noName
  | noColon
  | noComma
  | unterminatedText
  | controlCharacter
  | unknownEscape
  | badUnicodeEscape
  deriving DecidableEq, Repr

def Fault.message : Fault → String
  | .byteOrderMark => "Unexpected UTF-8 BOM (decode using utf-8-sig)"
  | .noValue => "Expecting value"
  | .extraData => "Extra data"
  | .noName => "Expecting property name enclosed in double quotes"
  | .noColon => "Expecting ':' delimiter"
  | .noComma => "Expecting ',' delimiter"
  | .unterminatedText => "Unterminated string starting at"
  | .controlCharacter => "Invalid control character at"
  | .unknownEscape => "Invalid \\escape"
  | .badUnicodeEscape => "Invalid \\uXXXX escape"

/-- What holds other values. -/
inductive Container where
  | array
  | object
  deriving DecidableEq, Repr

def Container.name : Container → String
  | .array => "array"
  | .object => "object"

/-- Which limit a document exceeds. -/
inductive Excess where
  /-- Too many arrays and objects stand in one another. -/
  | nesting (innermost : Container)
  /-- An integer has too many digits. -/
  | digits (count : Nat)
  deriving DecidableEq, Repr

def Excess.message : Excess → String
  | .nesting innermost =>
    s!"maximum recursion depth exceeded while decoding a JSON {innermost.name} " ++
      "from a unicode string"
  | .digits count => Text.overlongMessage count

/-- Why a document is not read. -/
inductive Failure where
  /-- It is not JSON; `rest` are the characters from the place of the fault to the end. -/
  | fault (fault : Fault) (rest : List Char)
  | excess (excess : Excess)
  deriving DecidableEq, Repr

/-- The line of a place in the document, counted from one; `rest` are the characters from it on. -/
def lineOf (document rest : List Char) : Nat :=
  1 + (Text.countLineFeeds document - Text.countLineFeeds rest)

/-- A value read and the characters behind it. -/
abbrev Read (α : Type) := Except Failure (α × List Char)

/-! ## White space and numbers -/

/-- The white space that may stand between the parts of a document. -/
def isSpace (c : Char) : Bool := c == ' ' || c == '\t' || c == '\n' || c == '\r'

/-- The characters from the first that is not white space. -/
def skipSpace (cs : List Char) : List Char := cs.dropWhile isSpace

def spanDigits (cs : List Char) : List Char × List Char :=
  (cs.takeWhile Char.isDigit, cs.dropWhile Char.isDigit)

/-- The digits before the point: a zero, or digits that do not start with one. -/
def wholeDigits : List Char → List Char × List Char
  | '0' :: rest => (['0'], rest)
  | cs => spanDigits cs

/-- The point and the digits behind it, if there are any. -/
def fraction : List Char → List Char × List Char
  | '.' :: rest =>
    match spanDigits rest with
    | ([], _) => ([], '.' :: rest)
    | (digits, tail) => ('.' :: digits, tail)
  | cs => ([], cs)

def sign : List Char → List Char × List Char
  | '+' :: rest => (['+'], rest)
  | '-' :: rest => (['-'], rest)
  | cs => ([], cs)

/-- The exponent with its letter, sign and digits, if there are any digits. -/
def exponent : List Char → List Char × List Char
  | c :: rest =>
    if c = 'e' ∨ c = 'E' then
      let (mark, tail) := sign rest
      match spanDigits tail with
      | ([], _) => ([], c :: rest)
      | (digits, tail) => (c :: mark ++ digits, tail)
    else ([], c :: rest)
  | [] => ([], [])

def ofDigits (digits : List Char) : Nat :=
  digits.foldl (fun n c => 10 * n + (c.toNat - 0x30)) 0

/-- A number with the given sign: an integer unless a fraction or an exponent follows. -/
def readUnsigned (reader : Reader) (negative : Bool) (start cs : List Char) : Read Json :=
  match wholeDigits cs with
  | ([], _) => .error (.fault .noValue start)
  | (whole, afterWhole) =>
    match fraction afterWhole with
    | (decimals, afterFraction) =>
      match exponent afterFraction with
      | (power, rest) =>
        if decimals.isEmpty && power.isEmpty then
          let n : Int := ofDigits whole
          if reader.admitsDigits whole.length then
            .ok (.integer (if negative then -n else n), rest)
          else .error (.excess (.digits whole.length))
        else
          let mark := if negative then ['-'] else []
          .ok (.real (String.ofList (mark ++ whole ++ decimals ++ power)), rest)

/-- A number, or any other literal. -/
def readLiteral (reader : Reader) : List Char → Read Json
  | 'n' :: 'u' :: 'l' :: 'l' :: rest => .ok (.null, rest)
  | 't' :: 'r' :: 'u' :: 'e' :: rest => .ok (.bool true, rest)
  | 'f' :: 'a' :: 'l' :: 's' :: 'e' :: rest => .ok (.bool false, rest)
  | 'N' :: 'a' :: 'N' :: rest => .ok (.real "NaN", rest)
  | 'I' :: 'n' :: 'f' :: 'i' :: 'n' :: 'i' :: 't' :: 'y' :: rest => .ok (.real "Infinity", rest)
  | '-' :: 'I' :: 'n' :: 'f' :: 'i' :: 'n' :: 'i' :: 't' :: 'y' :: rest =>
    .ok (.real "-Infinity", rest)
  | '-' :: rest => readUnsigned reader true ('-' :: rest) rest
  | cs => readUnsigned reader false cs cs

/-! ## Texts -/

/-- A piece of a text: a character, or a UTF-16 unit given by its code. -/
inductive Piece where
  | char (c : Char)
  | unit (code : Nat)
  deriving DecidableEq, Repr

def hexValue? (c : Char) : Option Nat :=
  let n := c.toNat
  if 0x30 ≤ n ∧ n ≤ 0x39 then some (n - 0x30)
  else if 0x41 ≤ n ∧ n ≤ 0x46 then some (n - 0x37)
  else if 0x61 ≤ n ∧ n ≤ 0x66 then some (n - 0x57)
  else none

/-- The code that four hexadecimal digits denote. -/
def unitCode? (a b c d : Char) : Option Nat := do
  let a ← hexValue? a
  let b ← hexValue? b
  let c ← hexValue? c
  let d ← hexValue? d
  return ((a * 16 + b) * 16 + c) * 16 + d

/-- The character that a backslash before the given one stands for. -/
def shortEscape? (c : Char) : Option Char :=
  if c = '"' ∨ c = '\\' ∨ c = '/' then some c
  else if c = 'b' then some '\x08'
  else if c = 'f' then some '\x0c'
  else if c = 'n' then some '\n'
  else if c = 'r' then some '\r'
  else if c = 't' then some '\t'
  else none

/-- Reads the pieces of a text up to the closing quote.  `start` is the document from the opening
quote on and `done` the pieces so far in reverse.  Behind the four digits of a unit the document
must go on. -/
def readPieces (start : List Char) (done : List Piece) : List Char → Read (List Piece)
  | [] => .error (.fault .unterminatedText start)
  | '"' :: rest => .ok (done.reverse, rest)
  | '\\' :: 'u' :: a :: b :: c :: d :: next :: rest =>
    match unitCode? a b c d with
    | some code => readPieces start (.unit code :: done) (next :: rest)
    | none => .error (.fault .badUnicodeEscape (a :: b :: c :: d :: next :: rest))
  | '\\' :: 'u' :: rest => .error (.fault .badUnicodeEscape rest)
  | ['\\'] => .error (.fault .unterminatedText start)
  | '\\' :: c :: rest =>
    match shortEscape? c with
    | some e => readPieces start (.char e :: done) rest
    | none => .error (.fault .unknownEscape ('\\' :: c :: rest))
  | c :: rest =>
    if c.toNat < 0x20 then .error (.fault .controlCharacter (c :: rest))
    else readPieces start (.char c :: done) rest

/-- The character of a unit that is not half of a pair. -/
def unitChar (surrogates : Surrogates) (code : Nat) : Char :=
  if 0xd800 ≤ code ∧ code ≤ 0xdfff then surrogates.char code else Char.ofNat code

/-- The characters of a text's pieces: a high surrogate and the low one behind it are one. -/
def joinPieces (surrogates : Surrogates) : List Piece → List Char
  | [] => []
  | .char c :: rest => c :: joinPieces surrogates rest
  | .unit high :: .unit low :: rest =>
    if 0xd800 ≤ high ∧ high ≤ 0xdbff ∧ 0xdc00 ≤ low ∧ low ≤ 0xdfff then
      Char.ofNat (0x10000 + (high - 0xd800) * 0x400 + (low - 0xdc00)) :: joinPieces surrogates rest
    else unitChar surrogates high :: joinPieces surrogates (.unit low :: rest)
  | .unit code :: rest => unitChar surrogates code :: joinPieces surrogates rest

/-- Reads a text behind its opening quote. -/
def readText (surrogates : Surrogates) (cs : List Char) : Read String :=
  match readPieces ('"' :: cs) [] cs with
  | .ok (pieces, rest) => .ok (String.ofList (joinPieces surrogates pieces), rest)
  | .error failure => .error failure

/-! ## Values -/

variable (reader : Reader)

mutual

/-- Reads a value that stands in `depth` arrays and objects.  The fuel is spent on every step and
lasts when it is twice the number of characters. -/
def readValue (depth : Nat) : Nat → List Char → Read Json
  | 0, cs => .error (.fault .noValue cs)
  | fuel + 1, cs =>
    match cs with
    | '"' :: rest =>
      match readText reader.surrogates rest with
      | .ok (value, rest) => .ok (.text value, rest)
      | .error failure => .error failure
    | '[' :: rest =>
      if reader.admitsLevel depth then
        match skipSpace rest with
        | ']' :: rest => .ok (.array [], rest)
        | rest => readItems (depth + 1) fuel [] rest
      else .error (.excess (.nesting .array))
    | '{' :: rest =>
      if reader.admitsLevel depth then
        match skipSpace rest with
        | '}' :: rest => .ok (.object [], rest)
        | rest => readFields (depth + 1) fuel [] rest
      else .error (.excess (.nesting .object))
    | cs => readLiteral reader cs

/-- Reads the items of an array up to its end, the ones so far in reverse. -/
def readItems (depth : Nat) : Nat → List Json → List Char → Read Json
  | 0, _, cs => .error (.fault .noValue cs)
  | fuel + 1, done, cs =>
    match readValue depth fuel cs with
    | .error failure => .error failure
    | .ok (value, rest) =>
      match skipSpace rest with
      | ',' :: rest => readItems depth fuel (value :: done) (skipSpace rest)
      | ']' :: rest => .ok (.array (value :: done).reverse, rest)
      | rest => .error (.fault .noComma rest)

/-- Reads the fields of an object up to its end, the ones so far in reverse. -/
def readFields (depth : Nat) : Nat → List (String × Json) → List Char → Read Json
  | 0, _, cs => .error (.fault .noValue cs)
  | fuel + 1, done, cs =>
    match cs with
    | '"' :: rest =>
      match readText reader.surrogates rest with
      | .error failure => .error failure
      | .ok (name, rest) =>
        match skipSpace rest with
        | ':' :: rest =>
          match readValue depth fuel (skipSpace rest) with
          | .error failure => .error failure
          | .ok (value, rest) =>
            match skipSpace rest with
            | ',' :: rest => readFields depth fuel ((name, value) :: done) (skipSpace rest)
            | '}' :: rest => .ok (.object ((name, value) :: done).reverse, rest)
            | rest => .error (.fault .noComma rest)
        | rest => .error (.fault .noColon rest)
    | cs => .error (.fault .noName cs)

end

def parse (document : List Char) : Except Failure Json :=
  if document.head? = some (Char.ofNat 0xfeff) then .error (.fault .byteOrderMark document)
  else
    match readValue reader 0 (2 * document.length + 2) (skipSpace document) with
    | .error failure => .error failure
    | .ok (value, rest) =>
      match skipSpace rest with
      | [] => .ok value
      | rest => .error (.fault .extraData rest)

end BuildCommands.Json
