import BuildCommands.Text.Utf8
import Mathlib.Data.List.Basic

/-!
# Bytes that hold a text

A text is encoded character by character.  Decoding reads a text from bytes exactly when they are
its encoding, so it refuses all other bytes.

    decode bytes = .ok text ↔ bytes = encode text                                (decode_eq_ok_iff)

What may follow a character that is begun is `PartialChar.Completes`: the bytes that are owed, and
the code that they come to.  A first byte and what completes it are the encoding of one character,
and every character of several bytes is begun and completed so.
-/

namespace BuildCommands.Text

/-! ## Definitions -/

/-- The bytes of a text as UTF-8. -/
def encode (text : List Char) : List UInt8 := text.flatMap String.utf8EncodeChar

namespace PartialChar

/-- The code that a character comes to with one byte more. -/
def extend (p : PartialChar) (b : UInt8) : Nat := p.value * 0x40 + (b.toNat - 0x80)

/-- A character that is begun, one byte further. -/
def push (p : PartialChar) (b : UInt8) : PartialChar :=
  ⟨b :: p.taken, p.owed - 1, 0x80, 0xbf, p.extend b⟩

/-- The bytes complete a character that is begun, and the character has the code. -/
inductive Completes : PartialChar → List UInt8 → Nat → Prop
  | last {p : PartialChar} {b : UInt8} :
      p.low ≤ b.toNat ∧ b.toNat ≤ p.high → p.owed ≤ 1 → Completes p [b] (p.extend b)
  | next {p : PartialChar} {b : UInt8} {tail : List UInt8} {code : Nat} :
      p.low ≤ b.toNat ∧ b.toNat ≤ p.high → 1 < p.owed → Completes (p.push b) tail code →
        Completes p (b :: tail) code

end PartialChar

/-! ## One character -/

theorem toNat_ofNat_of_valid {n : Nat} (h : n < 0xd800 ∨ 0xdfff < n ∧ n < 0x110000) :
    (Char.ofNat n).toNat = n := by
  unfold Char.ofNat
  rw [dif_pos (show n.isValidChar from h)]
  rfl

theorem ofNat_eq {b : UInt8} {n : Nat} (h : b.toNat = n) : UInt8.ofNat n = b := by
  rw [← h, UInt8.ofNat_toNat]

theorem exists_byte {n : Nat} (h : n < 256) : ∃ b : UInt8, b.toNat = n :=
  ⟨UInt8.ofNat n, UInt8.toNat_ofNat_of_lt h⟩

section

variable {c : Char} {n : Nat} {b b₁ b₂ b₃ : UInt8}

theorem encodeChar_one (hc : c.toNat = n) (h : n < 0x80) (hb : b.toNat = n) :
    String.utf8EncodeChar c = [b] := by
  unfold String.utf8EncodeChar
  rw [show c.val.toNat = n from hc]
  simp only
  rw [if_pos (by omega), ofNat_eq hb]

theorem encodeChar_two (hc : c.toNat = n) (h : 0x80 ≤ n ∧ n < 0x800)
    (hb : b.toNat = n / 0x40 + 0xc0) (hb₁ : b₁.toNat = n % 0x40 + 0x80) :
    String.utf8EncodeChar c = [b, b₁] := by
  unfold String.utf8EncodeChar
  rw [show c.val.toNat = n from hc]
  simp only
  rw [if_neg (by omega), if_pos (by omega), ofNat_eq (b := b) (by omega), ofNat_eq hb₁]

theorem encodeChar_three (hc : c.toNat = n) (h : 0x800 ≤ n ∧ n < 0x10000)
    (hb : b.toNat = n / 0x1000 + 0xe0) (hb₁ : b₁.toNat = n / 0x40 % 0x40 + 0x80)
    (hb₂ : b₂.toNat = n % 0x40 + 0x80) : String.utf8EncodeChar c = [b, b₁, b₂] := by
  unfold String.utf8EncodeChar
  rw [show c.val.toNat = n from hc]
  simp only
  rw [if_neg (by omega), if_neg (by omega), if_pos (by omega), ofNat_eq (b := b) (by omega),
    ofNat_eq hb₁, ofNat_eq hb₂]

theorem encodeChar_four (hc : c.toNat = n) (h : 0x10000 ≤ n ∧ n < 0x110000)
    (hb : b.toNat = n / 0x40000 + 0xf0) (hb₁ : b₁.toNat = n / 0x1000 % 0x40 + 0x80)
    (hb₂ : b₂.toNat = n / 0x40 % 0x40 + 0x80) (hb₃ : b₃.toNat = n % 0x40 + 0x80) :
    String.utf8EncodeChar c = [b, b₁, b₂, b₃] := by
  unfold String.utf8EncodeChar
  rw [show c.val.toNat = n from hc]
  simp only
  rw [if_neg (by omega), if_neg (by omega), if_neg (by omega), ofNat_eq (b := b) (by omega),
    ofNat_eq hb₁, ofNat_eq hb₂, ofNat_eq hb₃]

end

namespace PartialChar

variable {taken tail : List UInt8} {owed low high value code : Nat} {b : UInt8}

/-- One byte that is owed completes the character. -/
theorem completes_one_iff :
    Completes ⟨taken, 1, low, high, value⟩ tail code ↔
      ∃ b : UInt8, tail = [b] ∧ (low ≤ b.toNat ∧ b.toNat ≤ high) ∧
        code = value * 0x40 + (b.toNat - 0x80) := by
  constructor
  · intro h
    cases h with
    | last htakes => exact ⟨_, rfl, htakes, rfl⟩
    | next _ hmore => exact absurd hmore (Nat.lt_irrefl 1)
  · rintro ⟨b, rfl, htakes, hcode⟩
    rw [hcode]
    exact .last htakes (Nat.le_refl 1)

/-- The first of several bytes that are owed leaves the others. -/
theorem completes_more_iff :
    Completes ⟨taken, owed + 2, low, high, value⟩ tail code ↔
      ∃ (b : UInt8) (rest : List UInt8), tail = b :: rest ∧ (low ≤ b.toNat ∧ b.toNat ≤ high) ∧
        Completes ⟨b :: taken, owed + 1, 0x80, 0xbf, value * 0x40 + (b.toNat - 0x80)⟩ rest
          code := by
  constructor
  · intro h
    cases h with
    | last _ hlast => exact absurd hlast (Nat.not_le_of_lt (Nat.lt_add_left owed Nat.one_lt_two))
    | next htakes _ hrest => exact ⟨_, _, rfl, htakes, hrest⟩
  · rintro ⟨b, rest, rfl, htakes, hrest⟩
    exact .next htakes (Nat.lt_add_left owed Nat.one_lt_two) hrest

theorem start?_two (h : 0xc2 ≤ b.toNat ∧ b.toNat ≤ 0xdf) :
    start? b = some ⟨[b], 1, 0x80, 0xbf, b.toNat - 0xc0⟩ :=
  if_pos h

theorem start?_three (h : 0xe0 ≤ b.toNat ∧ b.toNat ≤ 0xef) :
    start? b = some ⟨[b], 2, if b.toNat = 0xe0 then 0xa0 else 0x80,
      if b.toNat = 0xed then 0x9f else 0xbf, b.toNat - 0xe0⟩ := by
  unfold start?
  simp only
  rw [if_neg (by omega), if_pos h]

theorem start?_four (h : 0xf0 ≤ b.toNat ∧ b.toNat ≤ 0xf4) :
    start? b = some ⟨[b], 3, if b.toNat = 0xf0 then 0x90 else 0x80,
      if b.toNat = 0xf4 then 0x8f else 0xbf, b.toNat - 0xf0⟩ := by
  unfold start?
  simp only
  rw [if_neg (by omega), if_neg (by omega), if_pos h]

/-- A byte that starts a character of several bytes is in one of three ranges. -/
theorem of_start?_eq_some {p : PartialChar} (h : start? b = some p) :
    (0xc2 ≤ b.toNat ∧ b.toNat ≤ 0xdf) ∨ (0xe0 ≤ b.toNat ∧ b.toNat ≤ 0xef) ∨
      (0xf0 ≤ b.toNat ∧ b.toNat ≤ 0xf4) := by
  unfold start? at h
  simp only at h
  split at h
  · next hfirst => exact Or.inl hfirst
  split at h
  · next hfirst => exact Or.inr (Or.inl hfirst)
  split at h
  · next hfirst => exact Or.inr (Or.inr hfirst)
  · cases h

/-- A first byte and what completes it are the encoding of the character with the code. -/
theorem Completes.encodes {p : PartialChar} (h : p.Completes tail code)
    (hstart : start? b = some p) :
    ∃ c : Char, c.toNat = code ∧ String.utf8EncodeChar c = b :: tail := by
  rcases of_start?_eq_some hstart with hfirst | hfirst | hfirst
  · rw [start?_two hfirst, Option.some.injEq] at hstart
    rw [← hstart, completes_one_iff] at h
    obtain ⟨b₁, rfl, htakes₁, hcode⟩ := h
    have hc : (Char.ofNat code).toNat = code := toNat_ofNat_of_valid (by omega)
    exact ⟨_, hc, encodeChar_two hc (by omega) (by omega) (by omega)⟩
  · rw [start?_three hfirst, Option.some.injEq] at hstart
    rw [← hstart, completes_more_iff] at h
    obtain ⟨b₁, rest, rfl, htakes₁, h⟩ := h
    obtain ⟨b₂, rfl, htakes₂, hcode⟩ := completes_one_iff.mp h
    -- the bounds of the second byte keep the code above two bytes and off the surrogates
    have hcodes : 0x800 ≤ code ∧ (code < 0xd800 ∨ 0xdfff < code) ∧ 0x80 ≤ b₁.toNat ∧
        b₁.toNat ≤ 0xbf := by
      split at htakes₁ <;> split at htakes₁ <;> omega
    have hc : (Char.ofNat code).toNat = code := toNat_ofNat_of_valid (by omega)
    exact ⟨_, hc, encodeChar_three hc (by omega) (by omega) (by omega) (by omega)⟩
  · rw [start?_four hfirst, Option.some.injEq] at hstart
    rw [← hstart, completes_more_iff] at h
    obtain ⟨b₁, rest, rfl, htakes₁, h⟩ := h
    obtain ⟨b₂, rest, rfl, htakes₂, h⟩ := completes_more_iff.mp h
    obtain ⟨b₃, rfl, htakes₃, hcode⟩ := completes_one_iff.mp h
    -- the bounds of the second byte keep the code above three bytes and in the range
    have hcodes : 0x10000 ≤ code ∧ code < 0x110000 ∧ 0x80 ≤ b₁.toNat ∧ b₁.toNat ≤ 0xbf := by
      split at htakes₁ <;> split at htakes₁ <;> omega
    have hc : (Char.ofNat code).toNat = code := toNat_ofNat_of_valid (by omega)
    exact ⟨_, hc, encodeChar_four hc (by omega) (by omega) (by omega) (by omega) (by omega)⟩

/-- A character of several bytes is begun by the first of them and completed by the others. -/
theorem exists_completes {c : Char} (h : 0x80 ≤ c.toNat) :
    ∃ b tail p, String.utf8EncodeChar c = b :: tail ∧ start? b = some p ∧
      p.Completes tail c.toNat := by
  obtain ⟨n, hc⟩ : ∃ n, c.toNat = n := ⟨_, rfl⟩
  have hvalid : n < 0xd800 ∨ 0xdfff < n ∧ n < 0x110000 := hc ▸ c.valid
  rw [hc] at h ⊢
  obtain ⟨b₁, hb₁⟩ := exists_byte (n := n / 0x1000 % 0x40 + 0x80) (by omega)
  obtain ⟨b₂, hb₂⟩ := exists_byte (n := n / 0x40 % 0x40 + 0x80) (by omega)
  obtain ⟨b₃, hb₃⟩ := exists_byte (n := n % 0x40 + 0x80) (by omega)
  rcases Nat.lt_or_ge n 0x800 with htwo | htwo
  · obtain ⟨b, hb⟩ := exists_byte (n := n / 0x40 + 0xc0) (by omega)
    refine ⟨b, _, _, encodeChar_two hc ⟨h, htwo⟩ hb hb₃, start?_two (by omega), ?_⟩
    exact completes_one_iff.mpr ⟨b₃, rfl, by omega, by omega⟩
  rcases Nat.lt_or_ge n 0x10000 with hthree | hthree
  · obtain ⟨b, hb⟩ := exists_byte (n := n / 0x1000 + 0xe0) (by omega)
    refine ⟨b, _, _, encodeChar_three hc ⟨htwo, hthree⟩ hb hb₂ hb₃, start?_three (by omega), ?_⟩
    refine completes_more_iff.mpr ⟨b₂, _, rfl, ?_, completes_one_iff.mpr ⟨b₃, rfl, ?_, ?_⟩⟩
    · split <;> split <;> omega
    · omega
    · omega
  · obtain ⟨b, hb⟩ := exists_byte (n := n / 0x40000 + 0xf0) (by omega)
    refine ⟨b, _, _, encodeChar_four hc ⟨hthree, by omega⟩ hb hb₁ hb₂ hb₃,
      start?_four (by omega), ?_⟩
    refine completes_more_iff.mpr ⟨b₁, _, rfl, ?_,
      completes_more_iff.mpr ⟨b₂, _, rfl, ?_, completes_one_iff.mpr ⟨b₃, rfl, ?_, ?_⟩⟩⟩
    · split <;> split <;> omega
    · omega
    · omega
    · omega

end PartialChar

/-! ## Decoding -/

section

variable {position : Nat} {done text : List Char} {bytes : List UInt8}

/-- The bytes that complete a character are read as the character. -/
theorem decodeFrom_completes {p : PartialChar} {tail : List UInt8} {code : Nat}
    (h : p.Completes tail code) (done : List Char) (rest : List UInt8) :
    ∀ position, decodeFrom position done (some p) (tail ++ rest) =
      decodeFrom (position + tail.length) (Char.ofNat code :: done) none rest := by
  induction h with
  | last htakes howed =>
    intro position
    rw [List.singleton_append, decodeFrom]
    simp only
    rw [if_pos htakes, if_pos howed]
    rfl
  | @next p b tail code htakes howed _ ih =>
    intro position
    rw [List.cons_append, decodeFrom]
    simp only
    rw [if_pos htakes, if_neg (Nat.not_le_of_lt howed), List.length_cons, Nat.add_comm tail.length,
      ← Nat.add_assoc]
    exact ih (position + 1)

/-- Bytes behind a character that is begun are read only if they complete it. -/
theorem exists_completes_of_decodeFrom :
    ∀ {p : PartialChar} {position : Nat}, decodeFrom position done (some p) bytes = .ok text →
      ∃ tail code rest, p.Completes tail code ∧ bytes = tail ++ rest := by
  induction bytes with
  | nil =>
    intro p position h
    cases h
  | cons b bytes ih =>
    intro p position h
    rw [decodeFrom] at h
    simp only at h
    split at h
    · next htakes =>
      split at h
      · next howed => exact ⟨[b], _, bytes, .last htakes howed, rfl⟩
      · next howed =>
        obtain ⟨tail, code, rest, hrest, rfl⟩ := ih h
        exact ⟨b :: tail, code, rest, .next htakes (Nat.lt_of_not_le howed) hrest, rfl⟩
    · cases h

/-- An encoded character is read as the character. -/
theorem decodeFrom_encodeChar (c : Char) (position : Nat) (done : List Char) (rest : List UInt8) :
    decodeFrom position done none (String.utf8EncodeChar c ++ rest) =
      decodeFrom (position + (String.utf8EncodeChar c).length) (c :: done) none rest := by
  rcases Nat.lt_or_ge c.toNat 0x80 with hone | hmore
  · obtain ⟨b, hb⟩ := exists_byte (n := c.toNat) (by omega)
    rw [encodeChar_one rfl hone hb, List.singleton_append, decodeFrom, if_pos (by omega), hb,
      Char.ofNat_toNat]
    rfl
  · obtain ⟨b, tail, p, hencode, hstart, hcompletes⟩ := PartialChar.exists_completes hmore
    have hb : ¬b.toNat < 0x80 := by
      have := PartialChar.of_start?_eq_some hstart
      omega
    rw [hencode, List.cons_append, decodeFrom, if_neg hb, hstart]
    simp only
    rw [decodeFrom_completes hcompletes, Char.ofNat_toNat, List.length_cons, Nat.add_assoc,
      Nat.add_comm 1]

/-- Bytes that are read begin with an encoded character. -/
theorem exists_encodeChar_of_decodeFrom {b : UInt8}
    (h : decodeFrom position done none (b :: bytes) = .ok text) :
    ∃ c rest, b :: bytes = String.utf8EncodeChar c ++ rest := by
  rw [decodeFrom] at h
  split at h
  · next hone =>
    have hc : (Char.ofNat b.toNat).toNat = b.toNat := toNat_ofNat_of_valid (by omega)
    refine ⟨Char.ofNat b.toNat, bytes, ?_⟩
    rw [encodeChar_one hc hone rfl, List.singleton_append]
  · split at h
    · next p hstart =>
      obtain ⟨tail, code, rest, hcompletes, rfl⟩ := exists_completes_of_decodeFrom h
      obtain ⟨c, -, hencode⟩ := hcompletes.encodes hstart
      exact ⟨c, rest, by rw [hencode, List.cons_append]⟩
    · cases h

/-- An encoded text is read as the text. -/
theorem decodeFrom_encode (text : List Char) :
    ∀ position done, decodeFrom position done none (encode text) = .ok (done.reverse ++ text) := by
  induction text with
  | nil =>
    intro position done
    rw [List.append_nil]
    rfl
  | cons c text ih =>
    intro position done
    rw [show encode (c :: text) = String.utf8EncodeChar c ++ encode text from List.flatMap_cons,
      decodeFrom_encodeChar, ih, List.reverse_cons, List.append_assoc]
    rfl

/-- Bytes that are read encode a text. -/
theorem exists_encode_of_decodeFrom {size : Nat} :
    ∀ {bytes : List UInt8} {position : Nat} {done : List Char}, bytes.length < size →
      decodeFrom position done none bytes = .ok text → ∃ cs, bytes = encode cs := by
  induction size with
  | zero =>
    intro bytes position done hsize
    exact absurd hsize (Nat.not_lt_zero _)
  | succ size ih =>
    intro bytes position done hsize h
    cases bytes with
    | nil => exact ⟨[], rfl⟩
    | cons b bytes =>
      obtain ⟨c, rest, hbytes⟩ := exists_encodeChar_of_decodeFrom h
      have hlength := congrArg List.length hbytes
      have hpos := List.length_pos_iff.mpr (String.utf8EncodeChar_ne_nil (c := c))
      rw [List.length_append] at hlength
      rw [hbytes, decodeFrom_encodeChar] at h
      obtain ⟨cs, rfl⟩ := ih (by omega) h
      exact ⟨c :: cs, hbytes⟩

end

/-- A text is decoded exactly from its encoding. -/
theorem decode_eq_ok_iff {bytes : List UInt8} {text : List Char} :
    decode bytes = .ok text ↔ bytes = encode text := by
  constructor
  · intro h
    obtain ⟨cs, rfl⟩ := exists_encode_of_decodeFrom (Nat.lt_succ_self bytes.length) h
    have hcs : decode (encode cs) = .ok cs := decodeFrom_encode cs 0 []
    rw [h, Except.ok.injEq] at hcs
    rw [hcs]
  · rintro rfl
    exact decodeFrom_encode text 0 []

/-- Decoding fails exactly on bytes that encode no text. -/
theorem exists_fault_iff {bytes : List UInt8} :
    (∃ fault, decode bytes = .error fault) ↔ ∀ text, bytes ≠ encode text := by
  cases h : decode bytes with
  | ok text => exact ⟨nofun, fun hne => absurd (decode_eq_ok_iff.mp h) (hne text)⟩
  | error fault =>
    refine ⟨fun _ text htext => ?_, fun _ => ⟨fault, rfl⟩⟩
    rw [decode_eq_ok_iff.mpr htext] at h
    cases h

end BuildCommands.Text
