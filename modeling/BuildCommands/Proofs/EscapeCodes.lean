import BuildCommands.Proofs.Lists
import BuildCommands.Proofs.Printing

/-!
# Escape codes

A paint is written as an escape code, and a text without the escape character holds no code.  So a
text whose spans are free of it differs with and without paints in the codes alone: deleting every
code gives back the characters.  This holds for the codes of every palette, since none of them goes
on in another.

    withoutCodes palette (content.render (some palette)) = content.render none
                                                             (withoutCodes_render)
    withoutCodes palette (transcript (some palette) ..)  = transcript none ..
                                                             (withoutCodes_transcript)

A transcript is one painted text, so what holds of painted texts holds of transcripts.
-/

namespace BuildCommands

/-! ## Definitions -/

/-- The text does not hold the character that escape codes start with. -/
def EscapeFree (s : String) : Prop := '\x1b' ∉ s.toList

instance (s : String) : Decidable (EscapeFree s) := inferInstanceAs (Decidable ('\x1b' ∉ s.toList))

def Paint.all : List Paint :=
  [.red, .green, .yellow, .blue, .magenta, .cyan, .white, .reset, .bright, .dim]

/-- The escape code that the characters start with. -/
def Palette.leadingCode? (palette : Palette) (cs : List Char) : Option String :=
  (Paint.all.map palette.code).find? fun code => code.toList.isPrefixOf cs

/-- The characters that are in no escape code, from the given number of characters on. -/
def withoutCodesFrom (palette : Palette) : Nat → List Char → List Char
  | _, [] => []
  | skip + 1, _ :: rest => withoutCodesFrom palette skip rest
  | 0, c :: rest =>
    match palette.leadingCode? (c :: rest) with
    | some code => withoutCodesFrom palette (code.length - 1) rest
    | none => c :: withoutCodesFrom palette 0 rest

/-- The text with every escape code deleted. -/
def withoutCodes (palette : Palette) (s : String) : String :=
  String.ofList (withoutCodesFrom palette 0 s.toList)

/-- Nothing but the paints of the text is written with escapes. -/
def Painted.EscapeFree (content : Painted) : Prop :=
  ∀ s, Span.text s ∈ content → BuildCommands.EscapeFree s

def Message.EscapeFree : Message → Prop
  | .text _ content => content.EscapeFree
  | .note entry => BuildCommands.EscapeFree entry.text

/-- What the message writes to the channel, as painted text. -/
def Message.spans (verbose : Bool) (channel : Channel) : Message → Painted
  | .text target content => if target = channel then content else []
  | .note entry =>
    if channel = .error ∧ (verbose = true ∨ entry.level.isShown = true) then
      [.text (entry.line ++ "\n")]
    else []

/-! ## Texts without escapes -/

@[simp] theorem toString_string (s : String) : toString s = s := rfl

@[simp] theorem escapeFree_append {s t : String} :
    EscapeFree (s ++ t) ↔ EscapeFree s ∧ EscapeFree t := by
  unfold EscapeFree
  rw [String.toList_append, List.mem_append, not_or]

@[simp] theorem escapeFree_ofList {cs : List Char} :
    EscapeFree (String.ofList cs) ↔ '\x1b' ∉ cs := by
  unfold EscapeFree
  rw [String.toList_ofList]

theorem escapeFree_intercalate {separator : String} {texts : List String}
    (hs : EscapeFree separator) (ht : ∀ text ∈ texts, EscapeFree text) :
    EscapeFree (separator.intercalate texts) := by
  induction texts with
  | nil => exact (by decide : EscapeFree "")
  | cons text texts ih =>
    obtain ⟨htext, htexts⟩ := List.forall_mem_cons.mp ht
    cases texts with
    | nil => rwa [String.intercalate_singleton]
    | cons next texts =>
      rw [String.intercalate_cons_cons, escapeFree_append, escapeFree_append]
      exact ⟨⟨htext, hs⟩, ih htexts⟩

theorem escape_not_mem_toDigits {base : Nat} (h : 1 < base) (n : Nat) :
    '\x1b' ∉ Nat.toDigits base n := by
  have hdigit : ∀ n : Nat, n.digitChar ≠ '\x1b' := fun n => Nat.digitChar_ne '\x1b' (by decide)
  induction n using Nat.strongRecOn with
  | ind n ih =>
    rw [Nat.toDigits_eq_if h]
    split
    · exact mt List.mem_singleton.mp (hdigit n).symm
    · next hlarge =>
      have hsmaller : n / base < n := Nat.div_lt_self (by omega) h
      rw [List.mem_append, not_or]
      exact ⟨ih _ hsmaller, mt List.mem_singleton.mp (hdigit (n % base)).symm⟩

@[simp] theorem escapeFree_repr (n : Nat) : EscapeFree n.repr := by
  rw [Nat.repr_eq_ofList_toDigits, escapeFree_ofList]
  exact escape_not_mem_toDigits (by decide) n

@[simp] theorem escapeFree_int_repr (n : Int) : EscapeFree n.repr := by
  rw [Int.repr_eq_if]
  split
  · exact escapeFree_repr _
  · rw [escapeFree_append]
    exact ⟨by decide, escapeFree_repr _⟩

theorem escape_not_mem_hexadecimal (width n : Nat) : '\x1b' ∉ Text.hexadecimal width n := by
  unfold Text.hexadecimal
  rw [List.mem_append, not_or]
  refine ⟨fun h => ?_, escape_not_mem_toDigits (by decide) n⟩
  cases List.eq_of_mem_replicate h

/-- A text is shown in quotes without escapes, whatever it holds. -/
@[simp] theorem escapeFree_quoted (s : String) : EscapeFree (Text.quoted s) := by
  have hquote : '\x1b' ≠ Text.quoteFor s.toList := by
    unfold Text.quoteFor
    split <;> decide
  have hchar : ∀ c, '\x1b' ∉ Text.quoteChar (Text.quoteFor s.toList) c := by
    intro c
    unfold Text.quoteChar
    split
    · next h =>
      have hc : '\x1b' ≠ c := by
        rintro rfl
        rcases h with h | h
        · exact hquote h
        · exact absurd h (by decide)
      simpa using hc
    iterate 3
      split
      · decide
    split
    · next h =>
      have hc : '\x1b' ≠ c := by
        rintro rfl
        exact absurd h (by decide)
      simpa using hc
    · have hcode := escape_not_mem_hexadecimal
      unfold Text.codeEscape
      simp only
      split
      · simpa using hcode 2 c.toNat
      split
      · simpa using hcode 4 c.toNat
      · simpa using hcode 8 c.toNat
  unfold Text.quoted
  simp only [escapeFree_ofList, List.cons_append, List.mem_cons, List.mem_append, List.mem_flatMap,
    List.not_mem_nil, or_false, not_or, not_exists, not_and]
  exact ⟨hquote, fun c _ => hchar c, hquote⟩

@[simp] theorem escapeFree_quotedList (texts : List String) :
    EscapeFree (Text.quotedList texts) := by
  have htexts : EscapeFree (", ".intercalate (texts.map Text.quoted)) := by
    refine escapeFree_intercalate (by decide) fun text htext => ?_
    obtain ⟨s, -, rfl⟩ := List.mem_map.mp htext
    exact escapeFree_quoted s
  unfold Text.quotedList
  simp +decide [htexts]

/-! ## Deleting codes -/

section

variable (palette : Palette)

theorem Palette.toList_code (p : Paint) :
    (palette.code p).toList =
      '\x1b' :: '[' :: Nat.toDigits 10 (palette.number p) ++ ['m'] := by
  have hdigits : (toString (palette.number p)).toList = Nat.toDigits 10 (palette.number p) := by
    rw [Nat.toString_eq_ofList_toDigits, String.toList_ofList]
  unfold code
  rw [String.toList_append, String.toList_append, hdigits]
  rfl

/-- The digits of a code end at its mark. -/
theorem takeWhile_toDigits (n : Nat) (rest : List Char) :
    (Nat.toDigits 10 n ++ 'm' :: rest).takeWhile Char.isDigit = Nat.toDigits 10 n :=
  (takeWhile_dropWhile_append
    (fun _ hc => Nat.isDigit_of_mem_toDigits (by decide) (by decide) hc)
    (by rintro _ ⟨⟩; rfl)).1

/-- Of two codes that the same characters start with, neither goes on behind the other. -/
theorem Palette.code_eq_of_prefix {p q : Paint} {rest : List Char}
    (h : (palette.code q).toList <+: (palette.code p).toList ++ rest) :
    palette.code q = palette.code p := by
  obtain ⟨more, hmore⟩ := h
  simp only [toList_code, List.cons_append, List.cons.injEq, true_and, List.append_assoc,
    List.nil_append] at hmore
  have hdigits := congrArg (List.takeWhile Char.isDigit) hmore
  rw [takeWhile_toDigits, takeWhile_toDigits] at hdigits
  rw [← String.toList_inj, toList_code, toList_code, hdigits]

theorem Palette.leadingCode?_code (p : Paint) (rest : List Char) :
    palette.leadingCode? ((palette.code p).toList ++ rest) = some (palette.code p) := by
  unfold leadingCode?
  cases hfound : (Paint.all.map palette.code).find? fun code =>
      code.toList.isPrefixOf ((palette.code p).toList ++ rest) with
  | none =>
    have hmem : palette.code p ∈ Paint.all.map palette.code :=
      List.mem_map_of_mem (by cases p <;> decide)
    have hprefix := List.isPrefixOf_iff_prefix.mpr
      (List.prefix_append (palette.code p).toList rest)
    exact absurd hprefix (List.find?_eq_none.mp hfound _ hmem)
  | some code =>
    obtain ⟨q, -, rfl⟩ := List.mem_map.mp (List.mem_of_find?_eq_some hfound)
    have hstarts := List.find?_some hfound
    rw [palette.code_eq_of_prefix (List.isPrefixOf_iff_prefix.mp hstarts)]

theorem Palette.leadingCode?_of_ne {c : Char} (h : c ≠ '\x1b') (rest : List Char) :
    palette.leadingCode? (c :: rest) = none := by
  refine List.find?_eq_none.mpr fun code hcode => ?_
  obtain ⟨p, -, rfl⟩ := List.mem_map.mp hcode
  rw [palette.toList_code, List.cons_append, List.isPrefixOf_cons_cons]
  simp [Ne.symm h]

theorem withoutCodesFrom_length (passed rest : List Char) :
    withoutCodesFrom palette passed.length (passed ++ rest) =
      withoutCodesFrom palette 0 rest := by
  induction passed with
  | nil => rfl
  | cons c passed ih =>
    rw [List.length_cons, List.cons_append, withoutCodesFrom]
    exact ih

theorem withoutCodesFrom_code (p : Paint) (rest : List Char) :
    withoutCodesFrom palette 0 ((palette.code p).toList ++ rest) =
      withoutCodesFrom palette 0 rest := by
  obtain ⟨c, passed, hcode⟩ : ∃ c passed, (palette.code p).toList = c :: passed :=
    ⟨_, _, palette.toList_code p⟩
  have hlength : (palette.code p).length - 1 = passed.length := by
    rw [← String.length_toList, hcode, List.length_cons, Nat.add_sub_cancel]
  have hleading := palette.leadingCode?_code p rest
  rw [hcode, List.cons_append] at hleading ⊢
  rw [withoutCodesFrom, hleading]
  simp only
  rw [hlength, withoutCodesFrom_length]

theorem withoutCodesFrom_append {text : List Char} (h : '\x1b' ∉ text) (rest : List Char) :
    withoutCodesFrom palette 0 (text ++ rest) = text ++ withoutCodesFrom palette 0 rest := by
  induction text with
  | nil => rfl
  | cons c text ih =>
    obtain ⟨hc, htext⟩ := not_or.mp (mt List.mem_cons.mpr h)
    rw [List.cons_append, withoutCodesFrom, palette.leadingCode?_of_ne (Ne.symm hc), ih htext]
    rfl

end

/-! ## Painted texts -/

namespace Painted

@[simp] theorem escapeFree_nil : Painted.EscapeFree [] := nofun

@[simp] theorem escapeFree_text {s : String} {content : Painted} :
    Painted.EscapeFree (.text s :: content) ↔
      BuildCommands.EscapeFree s ∧ Painted.EscapeFree content := by
  constructor
  · intro h
    exact ⟨h s List.mem_cons_self, fun t ht => h t (List.mem_cons_of_mem _ ht)⟩
  · rintro ⟨hs, hcontent⟩ t ht
    rcases List.mem_cons.mp ht with heq | ht
    · cases heq
      exact hs
    · exact hcontent t ht

@[simp] theorem escapeFree_paint {p : Paint} {content : Painted} :
    Painted.EscapeFree (.paint p :: content) ↔ Painted.EscapeFree content := by
  constructor
  · exact fun h t ht => h t (List.mem_cons_of_mem _ ht)
  · intro h t ht
    rcases List.mem_cons.mp ht with heq | ht
    · cases heq
    · exact h t ht

end Painted

theorem painted_escapeFree (color style : Option Paint) {text : String} (h : EscapeFree text) :
    (painted color style text).EscapeFree := by
  cases color with
  | none => simp [painted, h]
  | some color => cases style <;> simp [painted, h]

theorem Painted.render_cons (palette? : Option Palette) (span : Span) (content : Painted) :
    Painted.render palette? (span :: content) =
      span.render palette? ++ content.render palette? := by
  unfold Painted.render
  rw [List.map_cons, String.join_cons]

/-- Deleting every code of a painted text leaves its characters. -/
theorem withoutCodes_render {content : Painted} (h : content.EscapeFree) {palette : Palette}
    {palette? : Option Palette} (hpalette : ∀ used ∈ palette?, used = palette) :
    withoutCodes palette (content.render palette?) = content.render none := by
  have hrender : withoutCodesFrom palette 0 (content.render palette?).toList =
      (content.render none).toList := by
    induction content with
    | nil => rfl
    | cons span content ih =>
      rw [Painted.render_cons, Painted.render_cons, String.toList_append, String.toList_append]
      cases span with
      | text s =>
        obtain ⟨hs, hcontent⟩ := Painted.escapeFree_text.mp h
        exact (withoutCodesFrom_append palette hs _).trans (congrArg _ (ih hcontent))
      | paint p =>
        have hcontent := Painted.escapeFree_paint.mp h
        cases palette? with
        | some used =>
          cases hpalette used rfl
          exact (withoutCodesFrom_code palette p _).trans (ih hcontent)
        | none => exact ih hcontent
  unfold withoutCodes
  rw [hrender, String.ofList_toList]

example : withoutCodes .ansi "\x1b[1m\x1b[36mab\x1b[0m c" = "ab c" := by decide +kernel

theorem escapeFree_render {content : Painted} (h : content.EscapeFree) :
    EscapeFree (content.render none) := by
  induction content with
  | nil => decide
  | cons span content ih =>
    rw [Painted.render_cons, escapeFree_append]
    cases span with
    | text s =>
      obtain ⟨hs, hcontent⟩ := Painted.escapeFree_text.mp h
      exact ⟨hs, ih hcontent⟩
    | paint p =>
      have hcontent := Painted.escapeFree_paint.mp h
      exact ⟨(by decide : EscapeFree ""), ih hcontent⟩

/-! ## Transcripts -/

section

variable {verbose : Bool} {channel : Channel}

theorem Message.written_eq_render (palette? : Option Palette) (message : Message) :
    message.written palette? verbose channel =
      (message.spans verbose channel).render palette? := by
  cases message with
  | text target content =>
    by_cases htarget : target = channel
    · simp only [Message.written, Message.spans, if_pos htarget]
    · simp only [Message.written, Message.spans, if_neg htarget]
      rfl
  | note entry =>
    by_cases hshown : channel = .error ∧ (verbose = true ∨ entry.level.isShown = true)
    · simp only [Message.written, Message.spans, if_pos hshown]
      exact String.empty_append.symm
    · simp only [Message.written, Message.spans, if_neg hshown]
      rfl

theorem transcript_eq_render (palette? : Option Palette) (messages : List Message) :
    transcript palette? verbose channel messages =
      Painted.render palette? (messages.flatMap (Message.spans verbose channel)) := by
  induction messages with
  | nil => rfl
  | cons message messages ih =>
    have hcons : transcript palette? verbose channel (message :: messages) =
        message.written palette? verbose channel ++
          transcript palette? verbose channel messages :=
      String.join_cons
    unfold Painted.render at ih ⊢
    rw [hcons, ih, Message.written_eq_render, List.flatMap_cons, List.map_append,
      String.join_append]
    rfl

theorem Message.EscapeFree.spans {message : Message} (h : message.EscapeFree) :
    (message.spans verbose channel).EscapeFree := by
  cases message with
  | text target content =>
    intro s hs
    simp only [Message.spans] at hs
    split at hs
    · exact h s hs
    · cases hs
  | note entry =>
    intro s hs
    simp only [Message.spans] at hs
    split at hs
    · cases List.mem_singleton.mp hs
      have hname : BuildCommands.EscapeFree entry.level.name := by
        cases entry.level <;> decide
      have htext : BuildCommands.EscapeFree entry.text := h
      simp +decide [LogEntry.line, hname, htext]
    · cases hs

theorem escapeFree_spans {messages : List Message} (h : ∀ message ∈ messages, message.EscapeFree) :
    Painted.EscapeFree (messages.flatMap (Message.spans verbose channel)) := by
  intro s hs
  obtain ⟨message, hmessage, hs⟩ := List.mem_flatMap.mp hs
  exact (h message hmessage).spans s hs

/-- Deleting every code of a transcript leaves the transcript without paints. -/
theorem withoutCodes_transcript {messages : List Message}
    (h : ∀ message ∈ messages, message.EscapeFree) {palette : Palette}
    {palette? : Option Palette} (hpalette : ∀ used ∈ palette?, used = palette) :
    withoutCodes palette (transcript palette? verbose channel messages) =
      transcript none verbose channel messages := by
  rw [transcript_eq_render, transcript_eq_render]
  exact withoutCodes_render (escapeFree_spans h) hpalette

theorem escapeFree_transcript {messages : List Message}
    (h : ∀ message ∈ messages, message.EscapeFree) :
    EscapeFree (transcript none verbose channel messages) := by
  rw [transcript_eq_render]
  exact escapeFree_render (escapeFree_spans h)

end

end BuildCommands
