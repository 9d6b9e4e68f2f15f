import BuildCommands.Text.LowerCase.Table

/-!
# Lower case

Full lower-casing by Unicode: each letter becomes its lower case form, the capital I with a dot
becomes two characters, and a capital sigma becomes the final sigma when a cased letter stands
before it and none behind it, looking through case-ignorable characters on both sides.
-/

namespace BuildCommands.Text

/-! ## Definitions -/

/-- The lower case form of one character, capital sigma apart. -/
def lowerChar (c : Char) : List Char :=
  let n := c.toNat
  if n < 0x80 then [if 0x41 ≤ n ∧ n ≤ 0x5a then Char.ofNat (n + 0x20) else c]
  else if n = 0x130 then ['i', Char.ofNat 0x307]
  else
    match lowerRanges.find? fun r => r.first ≤ n && n ≤ r.last && (n - r.first) % r.step == 0 with
    | some r => [Char.ofNat (r.image + (n - r.first))]
    | none => [c]

/-- Whether the first character that is not looked through is a cased letter. -/
def startsCased (cs : List Char) : Bool :=
  match cs.dropWhile caseIgnorable.holds with
  | c :: _ => cased.holds c
  | [] => false

/-- The lower case form of the second list, behind the first, which is kept in reverse. -/
def lowerFrom (before : List Char) : List Char → List Char
  | [] => []
  | c :: rest =>
    (if c.toNat = 0x3a3 then
      [Char.ofNat (if startsCased before && !startsCased rest then 0x3c2 else 0x3c3)]
    else lowerChar c) ++ lowerFrom (c :: before) rest

/-- The lower case form of a text. -/
def lowerCase (cs : List Char) : List Char := lowerFrom [] cs

/-- The lower case form of a string. -/
def lower (s : String) : String := String.ofList (lowerCase s.toList)

/-! ## Lemmas -/

@[simp] theorem lowerCase_nil : lowerCase [] = [] := rfl

end BuildCommands.Text
