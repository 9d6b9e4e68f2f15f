import BuildCommands.Text.Quoted

/-!
# UTF-8

`decode` reads bytes as UTF-8 and stops at the first fault: a byte that starts no character, a byte
that does not continue the character begun, or data that ends inside a character.  A fault names
the bytes of the character read so far and where they stand.  `decodeMarked` first drops a byte
order mark, so positions count from behind it.
-/

namespace BuildCommands.Text

/-! ## Faults -/

/-- Why bytes are not UTF-8. -/
inductive Utf8Reason where
  /-- The byte starts no character. -/
  | startByte
  /-- The byte behind the ones named does not continue their character. -/
  | continuationByte
  /-- The data ends inside the character. -/
  | endOfData
  deriving DecidableEq, Repr

/-- Bytes that are not UTF-8, and their position. -/
structure Utf8Fault where
  position : Nat
  bytes : List UInt8
  reason : Utf8Reason
  deriving DecidableEq, Repr

/-- The wording of a reason. -/
def Utf8Reason.message : Utf8Reason → String
  | .startByte => "invalid start byte"
  | .continuationByte => "invalid continuation byte"
  | .endOfData => "unexpected end of data"

/-- The wording of a fault: one byte is shown, several are counted off. -/
def Utf8Fault.message (fault : Utf8Fault) : String :=
  let place := match fault.bytes with
    | [b] => "byte 0x" ++ String.ofList (hexadecimal 2 b.toNat) ++ s!" in position {fault.position}"
    | bytes => s!"bytes in position {fault.position}-{fault.position + bytes.length - 1}"
  "'utf-8' codec can't decode " ++ place ++ ": " ++ fault.reason.message

/-! ## Decoding -/

/-- A character of which bytes are still owed: the next one lies between `low` and `high`, and the
ones behind it between 0x80 and 0xBF. -/
structure PartialChar where
  /-- The bytes so far, the last one first. -/
  taken : List UInt8
  owed : Nat
  low : Nat
  high : Nat
  value : Nat

/-- What a character's first byte starts, if it starts one of several bytes. -/
def PartialChar.start? (b : UInt8) : Option PartialChar :=
  let n := b.toNat
  if 0xc2 ≤ n ∧ n ≤ 0xdf then some ⟨[b], 1, 0x80, 0xbf, n - 0xc0⟩
  else if 0xe0 ≤ n ∧ n ≤ 0xef then
    some ⟨[b], 2, if n = 0xe0 then 0xa0 else 0x80, if n = 0xed then 0x9f else 0xbf, n - 0xe0⟩
  else if 0xf0 ≤ n ∧ n ≤ 0xf4 then
    some ⟨[b], 3, if n = 0xf0 then 0x90 else 0x80, if n = 0xf4 then 0x8f else 0xbf, n - 0xf0⟩
  else none

/-- The fault of a character whose bytes end before the given position. -/
def PartialChar.fault (p : PartialChar) (position : Nat) (reason : Utf8Reason) : Utf8Fault :=
  ⟨position - p.taken.length, p.taken.reverse, reason⟩

/-- Decodes the bytes from a position on.  `done` holds the characters so far in reverse and
`pending` the character that is begun. -/
def decodeFrom (position : Nat) (done : List Char) (pending : Option PartialChar) :
    List UInt8 → Except Utf8Fault (List Char)
  | [] =>
    match pending with
    | none => .ok done.reverse
    | some p => .error (p.fault position .endOfData)
  | b :: rest =>
    match pending with
    | none =>
      if b.toNat < 0x80 then decodeFrom (position + 1) (Char.ofNat b.toNat :: done) none rest
      else
        match PartialChar.start? b with
        | some p => decodeFrom (position + 1) done (some p) rest
        | none => .error ⟨position, [b], .startByte⟩
    | some p =>
      if p.low ≤ b.toNat ∧ b.toNat ≤ p.high then
        let value := p.value * 0x40 + (b.toNat - 0x80)
        if p.owed ≤ 1 then decodeFrom (position + 1) (Char.ofNat value :: done) none rest
        else
          decodeFrom (position + 1) done
            (some ⟨b :: p.taken, p.owed - 1, 0x80, 0xbf, value⟩) rest
      else .error (p.fault position .continuationByte)

/-- The text that bytes hold as UTF-8. -/
def decode (bytes : List UInt8) : Except Utf8Fault (List Char) := decodeFrom 0 [] none bytes

/-- The bytes behind a byte order mark.  A mark that the end of the data cuts short counts too. -/
def dropByteOrderMark : List UInt8 → List UInt8
  | [0xef] => []
  | [0xef, 0xbb] => []
  | 0xef :: 0xbb :: 0xbf :: rest => rest
  | bytes => bytes

/-- The text that bytes hold as UTF-8 behind an optional byte order mark. -/
def decodeMarked (bytes : List UInt8) : Except Utf8Fault (List Char) :=
  decode (dropByteOrderMark bytes)

end BuildCommands.Text
