import BuildCommands.Json.Reader
import Mathlib.Data.Bool.AllAny
import Mathlib.Tactic.SplitIfs

/-!
# The texts of a JSON value

The grammar of JSON as a relation between texts and values, apart from any reader: white space may
stand between the parts of a document, a character of a text may stand for itself or be escaped, a
character beyond the basic plane as two units.  `NaN` and the infinities are numbers.

    Spells text value      the text denotes the value, without white space at its ends
-/

namespace BuildCommands.Json

/-! ## Characters -/

/-- White space between the parts of a document. -/
def IsGap (cs : List Char) : Prop := ∀ c ∈ cs, isSpace c = true

instance (cs : List Char) : Decidable (IsGap cs) := List.decidableBAll _ cs

/-- What may stand in a text for one character. -/
inductive SpellsChar : List Char → Char → Prop
  | raw {c : Char} (hcontrol : 0x20 ≤ c.toNat) (hquote : c ≠ '"') (hback : c ≠ '\\') :
      SpellsChar [c] c
  | short {e c : Char} (h : shortEscape? e = some c) : SpellsChar ['\\', e] c
  | unit {i j k l c : Char} (h : unitCode? i j k l = some c.toNat) :
      SpellsChar ['\\', 'u', i, j, k, l] c
  | pair {i j k l i' j' k' l' c : Char} {high low : Nat}
      (hhigh : unitCode? i j k l = some high) (hlow : unitCode? i' j' k' l' = some low)
      (hhighs : 0xd800 ≤ high ∧ high ≤ 0xdbff) (hlows : 0xdc00 ≤ low ∧ low ≤ 0xdfff)
      (hc : c.toNat = 0x10000 + (high - 0xd800) * 0x400 + (low - 0xdc00)) :
      SpellsChar ['\\', 'u', i, j, k, l, '\\', 'u', i', j', k', l'] c

/-- What may stand between the quotes of a text. -/
inductive SpellsText : List Char → List Char → Prop
  | nil : SpellsText [] []
  | cons {spelling body : List Char} {c : Char} {cs : List Char} (h : SpellsChar spelling c)
      (hrest : SpellsText body cs) : SpellsText (spelling ++ body) (c :: cs)

/-! ## Numbers -/

def IsDigits (cs : List Char) : Prop := cs ≠ [] ∧ ∀ c ∈ cs, c.isDigit = true

/-- The digits before the point. -/
def IsWhole (cs : List Char) : Prop := cs = ['0'] ∨ IsDigits cs ∧ cs.head? ≠ some '0'

/-- The point and the digits behind it, or nothing. -/
def IsFraction (cs : List Char) : Prop := cs = [] ∨ ∃ digits, IsDigits digits ∧ cs = '.' :: digits

/-- The exponent with its letter, or nothing. -/
def IsExponent (cs : List Char) : Prop :=
  cs = [] ∨ ∃ letter mark digits, (letter = 'e' ∨ letter = 'E') ∧ mark ∈ [[], ['+'], ['-']] ∧
    IsDigits digits ∧ cs = letter :: (mark ++ digits)

/-- The sign before a number. -/
def minus (negative : Bool) : List Char := if negative then ['-'] else []

/-! ## Values -/

mutual

/-- The text denotes the value. -/
inductive Spells : List Char → Json → Prop
  | null : Spells ['n', 'u', 'l', 'l'] .null
  | yes : Spells ['t', 'r', 'u', 'e'] (.bool true)
  | no : Spells ['f', 'a', 'l', 's', 'e'] (.bool false)
  | nan : Spells ['N', 'a', 'N'] (.real "NaN")
  | infinity : Spells ['I', 'n', 'f', 'i', 'n', 'i', 't', 'y'] (.real "Infinity")
  | minusInfinity : Spells ['-', 'I', 'n', 'f', 'i', 'n', 'i', 't', 'y'] (.real "-Infinity")
  | integer {negative : Bool} {whole : List Char} (h : IsWhole whole) :
      Spells (minus negative ++ whole)
        (.integer (if negative then -(ofDigits whole : Int) else ofDigits whole))
  | real {negative : Bool} {whole decimals power : List Char} (hwhole : IsWhole whole)
      (hdecimals : IsFraction decimals) (hpower : IsExponent power)
      (h : decimals ≠ [] ∨ power ≠ []) :
      Spells (minus negative ++ whole ++ decimals ++ power)
        (.real (String.ofList (minus negative ++ whole ++ decimals ++ power)))
  | text {body cs : List Char} (h : SpellsText body cs) :
      Spells ('"' :: (body ++ ['"'])) (.text (String.ofList cs))
  | emptyArray {gap : List Char} (h : IsGap gap) : Spells ('[' :: (gap ++ [']'])) (.array [])
  | array {body : List Char} {items : List Json} (h : SpellsItems body items) :
      Spells ('[' :: (body ++ [']'])) (.array items)
  | emptyObject {gap : List Char} (h : IsGap gap) : Spells ('{' :: (gap ++ ['}'])) (.object [])
  | object {body : List Char} {fields : List (String × Json)} (h : SpellsFields body fields) :
      Spells ('{' :: (body ++ ['}'])) (.object fields)

/-- A value with the white space at its ends. -/
inductive SpellsItem : List Char → Json → Prop
  | item {before text after : List Char} {value : Json} (hbefore : IsGap before)
      (h : Spells text value) (hafter : IsGap after) : SpellsItem (before ++ (text ++ after)) value

/-- What may stand between the brackets of an array with these items. -/
inductive SpellsItems : List Char → List Json → Prop
  | last {text : List Char} {value : Json} (h : SpellsItem text value) : SpellsItems text [value]
  | cons {text more : List Char} {value : Json} {values : List Json} (h : SpellsItem text value)
      (hmore : SpellsItems more values) : SpellsItems (text ++ ',' :: more) (value :: values)

/-- A field with the white space at its ends. -/
inductive SpellsField : List Char → String × Json → Prop
  | field {before name behind item cs : List Char} {value : Json} (hbefore : IsGap before)
      (hname : SpellsText name cs) (hbehind : IsGap behind) (h : SpellsItem item value) :
      SpellsField (before ++ '"' :: (name ++ '"' :: (behind ++ ':' :: item)))
        (String.ofList cs, value)

/-- What may stand between the braces of an object with these fields. -/
inductive SpellsFields : List Char → List (String × Json) → Prop
  | last {text : List Char} {field : String × Json} (h : SpellsField text field) :
      SpellsFields text [field]
  | cons {text more : List Char} {field : String × Json} {fields : List (String × Json)}
      (h : SpellsField text field) (hmore : SpellsFields more fields) :
      SpellsFields (text ++ ',' :: more) (field :: fields)

end

/-! ## Characters of a document -/

/-- A character that may stand in a document: none of the controls, but for white space. -/
def IsPlain (c : Char) : Prop := 0x20 ≤ c.toNat ∨ isSpace c = true

instance (c : Char) : Decidable (IsPlain c) := inferInstanceAs (Decidable (_ ∨ _))

-- Some instances decide a bounded statement by going through every character there is; `plain_all`
-- goes through the list.
theorem plain_all {cs : List Char} (h : cs.all (fun c => IsPlain c) = true) :
    ∀ c ∈ cs, IsPlain c :=
  List.all_iff_forall_prop.mp h

theorem plain_of_gap {gap : List Char} (h : IsGap gap) : ∀ c ∈ gap, IsPlain c :=
  fun c hc => Or.inr (h c hc)

theorem plain_separated {before after : List Char} {c : Char} (hbefore : ∀ x ∈ before, IsPlain x)
    (hafter : ∀ x ∈ after, IsPlain x) (hc : IsPlain c) :
    ∀ x ∈ before ++ c :: after, IsPlain x :=
  List.forall_mem_append.mpr ⟨hbefore, List.forall_mem_cons.mpr ⟨hc, hafter⟩⟩

theorem plain_between {body : List Char} {c d : Char} (h : ∀ x ∈ body, IsPlain x)
    (hc : IsPlain c) (hd : IsPlain d) : ∀ x ∈ c :: (body ++ [d]), IsPlain x :=
  List.forall_mem_cons.mpr ⟨hc, plain_separated h (List.forall_mem_nil _) hd⟩

theorem le_of_hexValue? {c : Char} {n : Nat} (h : hexValue? c = some n) : 0x20 ≤ c.toNat := by
  unfold hexValue? at h
  simp only at h
  split_ifs at h <;> omega

/-- The digits of a unit are no controls. -/
theorem le_of_unitCode? {i j k l : Char} {n : Nat} (h : unitCode? i j k l = some n) :
    ∀ c ∈ [i, j, k, l], 0x20 ≤ c.toNat := by
  unfold unitCode? at h
  simp only [Option.bind_eq_bind, Option.bind_eq_some_iff] at h
  obtain ⟨_, hi, _, hj, _, hk, _, hl, -⟩ := h
  intro c hc
  simp only [List.mem_cons, List.not_mem_nil, or_false] at hc
  rcases hc with rfl | rfl | rfl | rfl
  · exact le_of_hexValue? hi
  · exact le_of_hexValue? hj
  · exact le_of_hexValue? hk
  · exact le_of_hexValue? hl

theorem le_of_shortEscape? {e c : Char} (h : shortEscape? e = some c) : 0x20 ≤ e.toNat := by
  unfold shortEscape? at h
  split_ifs at h with h1
  · rcases h1 with rfl | rfl | rfl <;> decide
  all_goals subst_vars; decide

/-- A unit as it is written is made of no controls. -/
theorem le_of_mem_unit {i j k l x : Char} {n : Nat} (h : unitCode? i j k l = some n)
    (hx : x ∈ ['\\', 'u', i, j, k, l]) : 0x20 ≤ x.toNat := by
  rcases List.mem_cons.mp hx with rfl | hx
  · decide
  rcases List.mem_cons.mp hx with rfl | hx
  · decide
  · exact le_of_unitCode? h x hx

theorem SpellsChar.le {spelling : List Char} {c : Char} (h : SpellsChar spelling c) :
    ∀ x ∈ spelling, 0x20 ≤ x.toNat := by
  intro x hx
  cases h with
  | raw hcontrol =>
    rw [List.mem_singleton.mp hx]
    exact hcontrol
  | short h =>
    rcases List.mem_cons.mp hx with rfl | hx
    · decide
    · rw [List.mem_singleton.mp hx]
      exact le_of_shortEscape? h
  | unit h => exact le_of_mem_unit h hx
  | @pair i j k l i' j' k' l' _ _ _ hhigh hlow =>
    have hx : x ∈ ['\\', 'u', i, j, k, l] ++ ['\\', 'u', i', j', k', l'] := hx
    rcases List.mem_append.mp hx with hx | hx
    · exact le_of_mem_unit hhigh hx
    · exact le_of_mem_unit hlow hx

/-- Between quotes no control stands, not even white space. -/
theorem SpellsText.le {body cs : List Char} (h : SpellsText body cs) :
    ∀ x ∈ body, 0x20 ≤ x.toNat := by
  induction h with
  | nil => exact List.forall_mem_nil _
  | cons h _ ih => exact List.forall_mem_append.mpr ⟨h.le, ih⟩

theorem SpellsText.plain {body cs : List Char} (h : SpellsText body cs) :
    ∀ x ∈ body, IsPlain x :=
  fun x hx => Or.inl (h.le x hx)

theorem toNat_of_isDigit {c : Char} (h : c.isDigit = true) : 0x30 ≤ c.toNat ∧ c.toNat ≤ 0x39 := by
  simpa [Char.isDigit, UInt32.le_iff_toNat_le] using h

theorem IsDigits.plain {cs : List Char} (h : IsDigits cs) : ∀ c ∈ cs, IsPlain c := by
  intro c hc
  have := toNat_of_isDigit (h.2 c hc)
  exact Or.inl (by omega)

theorem IsWhole.plain {cs : List Char} (h : IsWhole cs) : ∀ c ∈ cs, IsPlain c := by
  rcases h with rfl | ⟨h, -⟩
  · exact plain_all rfl
  · exact h.plain

theorem IsFraction.plain {cs : List Char} (h : IsFraction cs) : ∀ c ∈ cs, IsPlain c := by
  rcases h with rfl | ⟨digits, h, rfl⟩
  · exact List.forall_mem_nil _
  · exact List.forall_mem_cons.mpr ⟨by decide, h.plain⟩

theorem IsExponent.plain {cs : List Char} (h : IsExponent cs) : ∀ c ∈ cs, IsPlain c := by
  rcases h with rfl | ⟨letter, mark, digits, hletter, hmark, h, rfl⟩
  · exact List.forall_mem_nil _
  have hmarks : ∀ mark ∈ [[], ['+'], ['-']], mark.all (fun c => IsPlain c) = true := by decide
  refine List.forall_mem_cons.mpr
    ⟨?_, List.forall_mem_append.mpr ⟨plain_all (hmarks mark hmark), h.plain⟩⟩
  rcases hletter with rfl | rfl <;> decide

theorem plain_minus (negative : Bool) : ∀ c ∈ minus negative, IsPlain c := by
  cases negative <;> exact plain_all rfl

mutual

/-- No text of a value holds a control other than white space. -/
theorem Spells.plain : ∀ {text : List Char} {value : Json}, Spells text value →
    ∀ c ∈ text, IsPlain c
  | _, _, .null | _, _, .yes | _, _, .no | _, _, .nan | _, _, .infinity | _, _, .minusInfinity =>
    plain_all rfl
  | _, _, .integer h => List.forall_mem_append.mpr ⟨plain_minus _, h.plain⟩
  | _, _, .real hwhole hdecimals hpower _ => by
    simp only [List.forall_mem_append]
    exact ⟨⟨⟨plain_minus _, hwhole.plain⟩, hdecimals.plain⟩, hpower.plain⟩
  | _, _, .text h => plain_between h.plain (by decide) (by decide)
  | _, _, .emptyArray h => plain_between (plain_of_gap h) (by decide) (by decide)
  | _, _, .array h => plain_between h.plain (by decide) (by decide)
  | _, _, .emptyObject h => plain_between (plain_of_gap h) (by decide) (by decide)
  | _, _, .object h => plain_between h.plain (by decide) (by decide)

theorem SpellsItem.plain : ∀ {text : List Char} {value : Json}, SpellsItem text value →
    ∀ c ∈ text, IsPlain c
  | _, _, .item hbefore h hafter => by
    simp only [List.forall_mem_append]
    exact ⟨plain_of_gap hbefore, h.plain, plain_of_gap hafter⟩

theorem SpellsItems.plain : ∀ {text : List Char} {values : List Json}, SpellsItems text values →
    ∀ c ∈ text, IsPlain c
  | _, _, .last h => h.plain
  | _, _, .cons h hmore => plain_separated h.plain hmore.plain (by decide)

theorem SpellsField.plain : ∀ {text : List Char} {field : String × Json}, SpellsField text field →
    ∀ c ∈ text, IsPlain c
  | _, _, .field hbefore hname hbehind h =>
    plain_separated (plain_of_gap hbefore) (plain_separated hname.plain
      (plain_separated (plain_of_gap hbehind) h.plain (by decide)) (by decide)) (by decide)

theorem SpellsFields.plain : ∀ {text : List Char} {fields : List (String × Json)},
    SpellsFields text fields → ∀ c ∈ text, IsPlain c
  | _, _, .last h => h.plain
  | _, _, .cons h hmore => plain_separated h.plain hmore.plain (by decide)

end

end BuildCommands.Json
