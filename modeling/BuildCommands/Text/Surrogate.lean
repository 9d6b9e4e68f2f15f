import BuildCommands.Text.Quoted

/-!
# Surrogates

A surrogate is half of a pair that encodes one character, and an escape can leave it alone in a text.
It is no character and cannot be encoded, but the text goes on as if it were one.  So an ideograph
takes its place, from a block that is used for nothing else.  A text without surrogates needs no
such block.
-/

namespace BuildCommands

/-! ## Stand-ins -/

/-- What stands for the surrogates: nothing where there are none, or the ideographs of a block, by the
code of the first. -/
inductive Surrogates where
  | absent
  | block (first : Nat) (ideographs : 0x20000 ≤ first ∧ first + 0x800 ≤ 0x2a6e0)
  deriving DecidableEq, Repr

namespace Surrogates

/-- The character that stands for the surrogate with the code. -/
def char (surrogates : Surrogates) (code : Nat) : Char :=
  match surrogates with
  | .absent => Char.ofNat 0xfffd
  | .block first _ => Char.ofNat (first + (code - 0xd800))

/-- The code of the surrogate that the character stands for. -/
def code? (surrogates : Surrogates) (c : Char) : Option Nat :=
  match surrogates with
  | .absent => none
  | .block first _ =>
    if first ≤ c.toNat ∧ c.toNat < first + 0x800 then some (0xd800 + (c.toNat - first)) else none

/-- The block with the number. -/
def numbered (k : Fin 20) : Surrogates := .block (0x20000 + 0x800 * k) (by omega)

/-- The first block. -/
def usual : Surrogates := numbered 0

/-- The second block. -/
def spare : Surrogates := numbered 1

/-- The first block that the characters leave free, if any is free. -/
def unused (cs : List Char) : Surrogates :=
  (((List.finRange 20).map numbered).find? fun surrogates =>
    cs.all fun c => (surrogates.code? c).isNone).getD usual

end Surrogates

/-! ## Encoding and showing -/

/-- The escape of a surrogate. -/
def surrogateEscape (code : Nat) : List Char := '\\' :: 'u' :: Text.hexadecimal 4 code

/-- Surrogates that follow one another in a text, from a position on. -/
structure SurrogateRun where
  position : Nat
  codes : List Nat
  deriving DecidableEq, Repr

/-- Why a text with the surrogates cannot be encoded. -/
def SurrogateRun.message (run : SurrogateRun) : String :=
  let place :=
    match run.codes with
    | [code] =>
      "character '" ++ String.ofList (surrogateEscape code) ++ s!"' in position {run.position}"
    | codes => s!"characters in position {run.position}-{run.position + codes.length - 1}"
  s!"'utf-8' codec can't encode {place}: surrogates not allowed"

namespace Surrogates

/-- The first surrogates in a text, if there are any. -/
def firstRun? (surrogates : Surrogates) (text : String) : Option SurrogateRun :=
  let codes := text.toList.map surrogates.code?
  let rest := codes.dropWhile (·.isNone)
  if rest.isEmpty then none
  else some ⟨codes.length - rest.length, (rest.takeWhile (·.isSome)).filterMap id⟩

/-- The text with an escape in the place of each surrogate. -/
def shown (surrogates : Surrogates) (text : String) : String :=
  String.ofList (text.toList.flatMap fun c => (surrogates.code? c).elim [c] surrogateEscape)

end Surrogates

end BuildCommands
