import BuildCommands.Text.Blank

/-!
# Decimal digits and integers

Every script's decimal digits stand in a run of ten, zero first, so a digit's value is its distance
from the zero of its run.  `readInteger` accepts white space around an optional sign and digits of
any script, single underscores between them, and at most 4300 digits.
-/

namespace BuildCommands.Text

/-! ## Digits -/

/-- The digit zero of every script that has decimal digits, as of Unicode 14. -/
def zeroDigits : List Nat := [
  0x30, 0x660, 0x6f0, 0x7c0, 0x966, 0x9e6, 0xa66, 0xae6, 0xb66, 0xbe6, 0xc66, 0xce6, 0xd66, 0xde6,
   0xe50, 0xed0, 0xf20, 0x1040, 0x1090, 0x17e0, 0x1810, 0x1946, 0x19d0, 0x1a80, 0x1a90, 0x1b50,
   0x1bb0, 0x1c40, 0x1c50, 0xa620, 0xa8d0, 0xa900, 0xa9d0, 0xa9f0, 0xaa50, 0xabf0, 0xff10,
   0x104a0, 0x10d30, 0x11066, 0x110f0, 0x11136, 0x111d0, 0x112f0, 0x11450, 0x114d0, 0x11650,
   0x116c0, 0x11730, 0x118e0, 0x11950, 0x11c50, 0x11d50, 0x11da0, 0x16a60, 0x16ac0, 0x16b50,
   0x1d7ce, 0x1d7d8, 0x1d7e2, 0x1d7ec, 0x1d7f6, 0x1e140, 0x1e2f0, 0x1e950, 0x1fbf0]

/-- The value of a decimal digit. -/
def digitValue? (c : Char) : Option Nat :=
  (zeroDigits.find? fun z => z ≤ c.toNat && c.toNat ≤ z + 9).map (c.toNat - ·)

/-- Whether the character is a decimal digit of some script. -/
def isDecimalDigit (c : Char) : Bool := (digitValue? c).isSome

/-! ## Integers -/

/-- White space that may stand around a number: all of it but the information separators. -/
def isNumberBlank (c : Char) : Bool :=
  isBlank c && !(0x1c ≤ c.toNat && c.toNat ≤ 0x1f)

/-- The number of digits in a numeral is limited. -/
def maxDigits : Nat := 4300

/-- The wording where a numeral has too many digits. -/
def overlongMessage (digits : Nat) : String :=
  s!"Exceeds the limit ({maxDigits} digits) for integer string conversion: value has {digits} " ++
    "digits; use sys.set_int_max_str_digits() to increase the limit"

/-- Reads the digits behind a numeral's first, whose values so far are `digits` in reverse; an
underscore needs a digit on either side. -/
def readDigitsFrom (digits : List Nat) : List Char → Option (List Nat)
  | [] => some digits.reverse
  | '_' :: c :: rest =>
    match digitValue? c with
    | some d => readDigitsFrom (d :: digits) rest
    | none => none
  | c :: rest =>
    match digitValue? c with
    | some d => readDigitsFrom (d :: digits) rest
    | none => none

/-- The digit values of a numeral without a sign. -/
def readDigits? : List Char → Option (List Nat)
  | [] => none
  | c :: rest => (digitValue? c).bind fun d => readDigitsFrom [d] rest

/-- The number that decimal digits denote. -/
def ofDigitValues (digits : List Nat) : Nat := digits.foldl (fun n d => 10 * n + d) 0

/-- The number a numeral without a sign denotes. -/
def readNatural? (cs : List Char) : Option Nat :=
  (readDigits? cs).bind fun digits =>
    if digits.length ≤ maxDigits then some (ofDigitValues digits) else none

/-- The number a text denotes: white space, a sign, a numeral, white space. -/
def readInteger? (s : String) : Option Int :=
  let body := s.toList.dropWhile isNumberBlank
  match (body.reverse.dropWhile isNumberBlank).reverse with
  | '-' :: rest => (readNatural? rest).map fun n => -(n : Int)
  | '+' :: rest => (readNatural? rest).map Int.ofNat
  | cs => (readNatural? cs).map Int.ofNat

/-- A minus sign and digits, or a minus sign and digits around a point with at least one behind it;
one line feed may follow. -/
def isNegativeNumeral (s : String) : Bool :=
  match s.toList with
  | '-' :: rest =>
    let digits := rest.takeWhile isDecimalDigit
    let closes : List Char → Bool := fun cs => cs == [] || cs == ['\n']
    match rest.dropWhile isDecimalDigit with
    | '.' :: fraction =>
      !(fraction.takeWhile isDecimalDigit).isEmpty && closes (fraction.dropWhile isDecimalDigit)
    | tail => !digits.isEmpty && closes tail
  | _ => false

end BuildCommands.Text
