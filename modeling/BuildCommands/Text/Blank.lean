/-!
# White space

`isBlank` is the white space of Unicode together with the four information separators
U+001C to U+001F.  `trim` drops it at both ends of a text.
U+200B, U+FEFF and U+180E are not white space.
-/

namespace BuildCommands.Text

/-! ## Definitions -/

/-- White space: the controls U+0009 to U+000D, the information separators, the space and the
spaces and separators of Unicode. -/
def isBlank (c : Char) : Bool :=
  let n := c.toNat
  (0x09 ≤ n && n ≤ 0x0d) || (0x1c ≤ n && n ≤ 0x20) || n == 0x85 || n == 0xa0 || n == 0x1680 ||
    (0x2000 ≤ n && n ≤ 0x200a) || n == 0x2028 || n == 0x2029 || n == 0x202f || n == 0x205f ||
    n == 0x3000

/-- The characters from the first that is not blank. -/
def dropBlank (cs : List Char) : List Char := cs.dropWhile isBlank

/-- The characters without the blanks at either end. -/
def stripBlank (cs : List Char) : List Char :=
  (dropBlank (dropBlank cs).reverse).reverse

/-- The text without its leading and trailing white space. -/
def trim (s : String) : String := String.ofList (stripBlank s.toList)

/-! ## Lemmas -/

/-- What is left after dropping blanks does not start with one. -/
theorem head_dropBlank {cs rest : List Char} {c : Char} (h : dropBlank cs = c :: rest) :
    isBlank c = false := by
  induction cs with
  | nil => simp [dropBlank] at h
  | cons a as ih =>
    rw [dropBlank, List.dropWhile_cons] at h
    split at h
    · exact ih h
    · next ha => cases h; simpa using ha

/-- Dropping blanks a second time changes nothing. -/
theorem dropBlank_dropBlank (cs : List Char) : dropBlank (dropBlank cs) = dropBlank cs := by
  cases h : dropBlank cs with
  | nil => rfl
  | cons c rest => simp [dropBlank, head_dropBlank h]

end BuildCommands.Text
