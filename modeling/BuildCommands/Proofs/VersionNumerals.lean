import BuildCommands.Proofs.VersionReading

/-!
# Numbers in versions

A version is read exactly if it is written as one, with numbers that are not too long.

    numeralsIn s.chars = the numerals of the spelling s that have digits
                                                                        (Valid.numeralsIn_chars)
    versionFault? text = none ↔ IsVersion (some Text.maxDigits) text    (versionFault?_eq_none_iff)

The numbers before a local label are the longest runs of digits, since what stands between them is
never a digit.  A part of the label is a run of its letters and digits.
-/

namespace BuildCommands.Package

/-! ## Definitions -/

def PostSpelling.digits : PostSpelling → List Char
  | dash digits => digits
  | marker m => m.digits

/-- The digits of the numbers that are written. -/
def VersionSpelling.numerals (s : VersionSpelling) : List (List Char) :=
  s.epoch.toList ++ s.first :: s.others ++ s.pre.toList.map MarkerSpelling.digits ++
    s.post.toList.map PostSpelling.digits ++ s.dev.toList.map MarkerSpelling.digits ++
    s.label.toList.flatMap fun l => l.parts.filter (·.all Char.isDigit)

/-- The text is a version, and none of its numbers has more digits than the system reads, if there
is such a limit. -/
def IsVersion (limit? : Option Nat) (text : String) : Prop :=
  ∃ s : VersionSpelling, s.Valid ∧ s.chars = text.toList ∧
    ∀ limit ∈ limit?, ∀ digits ∈ s.numerals, digits.length ≤ limit

/-- The lists that are not empty. -/
def written (numerals : List (List Char)) : List (List Char) := numerals.filter (!·.isEmpty)

/-- The characters before the local label. -/
def VersionSpelling.beforeLabel (s : VersionSpelling) : List Char :=
  s.front ++ (s.letter ++ (s.epoch.elim [] (· ++ ['!']) ++ (s.first ++
    (s.others.flatMap ('.' :: ·) ++ (s.pre.elim [] MarkerSpelling.chars ++
      (s.post.elim [] PostSpelling.chars ++ s.dev.elim [] MarkerSpelling.chars))))))

/-! ## Runs -/

section

variable {p : Char → Bool} {xs ys : List Char}

theorem runs_cons_of_neg {c : Char} (h : p c = false) : runs p (c :: xs) = runs p xs := by
  unfold runs
  rw [List.splitOnP_cons_eq_if_modifyHead, if_pos (by rw [h]; rfl)]
  rfl

/-- What does not have the property is passed over. -/
theorem runs_append_of_neg (h : ∀ c ∈ xs, p c = false) : runs p (xs ++ ys) = runs p ys := by
  induction xs with
  | nil => rfl
  | cons c xs ih =>
    obtain ⟨hc, hxs⟩ := List.forall_mem_cons.mp h
    rw [List.cons_append, runs_cons_of_neg hc, ih hxs]

theorem runs_of_neg (h : ∀ c ∈ xs, p c = false) : runs p xs = [] := by
  rw [← List.append_nil xs, runs_append_of_neg h]
  rfl

/-- No run goes on where the property ends. -/
theorem runs_append (hys : Avoids p ys) : runs p (xs ++ ys) = runs p xs ++ runs p ys := by
  cases ys with
  | nil =>
    rw [List.append_nil]
    exact (List.append_nil _).symm
  | cons c ys =>
    have hc := avoids_cons.mp hys
    rw [runs_cons_of_neg hc]
    unfold runs
    rw [List.splitOnP_append_cons xs ys (by rw [hc]; rfl), List.filter_append]

theorem runs_of_pos (h : ∀ c ∈ xs, p c = true) : runs p xs = written [xs] := by
  unfold runs
  rw [List.splitOnP_eq_singleton fun c hc => by rw [h c hc]; rfl]
  rfl

end

theorem written_append (l l' : List (List Char)) : written (l ++ l') = written l ++ written l' :=
  List.filter_append _ _

/-! ## Markers -/

theorem isDigit_of_isGap {gap : List Char} (h : IsGap gap) : ∀ c ∈ gap, c.isDigit = false := by
  rcases h with rfl | ⟨c, hc, rfl⟩
  · nofun
  · exact List.forall_mem_singleton.mpr (isDigit_of_separator hc)

/-- No label has a digit or a plus sign in it. -/
theorem all_letters_of_label : ∀ label ∈ markerLabels,
    (label.toList.all fun c => !c.isDigit && c != '+') = true := by
  decide +kernel

theorem letter_of_word {word : List Char} {label : String} (hlabel : label ∈ markerLabels)
    (hword : word.map baseLetter = label.toList) {c : Char} (hc : c ∈ word) :
    c.isDigit = false ∧ c ≠ '+' := by
  have hletters := List.all_eq_true.mp (all_letters_of_label label hlabel) (baseLetter c)
    (hword ▸ List.mem_map_of_mem hc)
  rw [Bool.and_eq_true, Bool.not_eq_true', bne_iff_ne] at hletters
  refine ⟨Bool.eq_false_iff.mpr fun hdigit => ?_, ?_⟩
  · rw [baseLetter_of_isDigit hdigit, hdigit] at hletters
    cases hletters.1
  · rintro rfl
    exact hletters.2 rfl

section

variable {m : MarkerSpelling} {labels : List String}

theorem MarkerSpelling.Valid.runs_chars (hlabels : labels ⊆ markerLabels) (hm : m.Valid labels) :
    runs Char.isDigit m.chars = written [m.digits] := by
  obtain ⟨label, hlabel, hword⟩ := hm.word
  have hchars : m.chars = m.lead ++ (m.word ++ (m.gap ++ m.digits)) := by
    simp [MarkerSpelling.chars]
  rw [hchars, runs_append_of_neg (isDigit_of_isGap hm.lead),
    runs_append_of_neg fun c hc => (letter_of_word (hlabels hlabel) hword hc).1,
    runs_append_of_neg (isDigit_of_isGap hm.gap), runs_of_pos hm.digits]

/-- A marker does not begin with a digit. -/
theorem MarkerSpelling.Valid.avoids_isDigit (hlabels : labels ⊆ markerLabels)
    (hm : m.Valid labels) : Avoids Char.isDigit m.chars := by
  have havoids := hm.avoids harmless_isDigit (fun label h => head?_label label (hlabels h)) []
  rwa [List.append_nil] at havoids

theorem ne_plus_of_isGap {gap : List Char} (h : IsGap gap) : ∀ c ∈ gap, c ≠ '+' := by
  rcases h with rfl | ⟨c, hc, rfl⟩
  · nofun
  · refine List.forall_mem_singleton.mpr ?_
    rintro rfl
    cases hc

theorem ne_plus_of_isDigit {digits : List Char} (h : ∀ c ∈ digits, c.isDigit = true) :
    ∀ c ∈ digits, c ≠ '+' := by
  rintro _ hc rfl
  cases h '+' hc

theorem MarkerSpelling.Valid.ne_plus (hlabels : labels ⊆ markerLabels) (hm : m.Valid labels) :
    ∀ c ∈ m.chars, c ≠ '+' := by
  obtain ⟨label, hlabel, hword⟩ := hm.word
  unfold MarkerSpelling.chars
  simp only [List.forall_mem_append]
  exact ⟨⟨⟨ne_plus_of_isGap hm.lead, fun c hc => (letter_of_word (hlabels hlabel) hword hc).2⟩,
    ne_plus_of_isGap hm.gap⟩, ne_plus_of_isDigit hm.digits⟩

end

theorem PostSpelling.Valid.runs_chars {post : PostSpelling} (hpost : post.Valid) :
    runs Char.isDigit post.chars = written [post.digits] := by
  cases post with
  | dash digits =>
    have hdigits : IsNumber digits := hpost
    exact (runs_cons_of_neg rfl).trans (runs_of_pos hdigits.2)
  | marker m => exact MarkerSpelling.Valid.runs_chars (by decide) hpost

theorem PostSpelling.Valid.avoids_isDigit {post : PostSpelling} (hpost : post.Valid) :
    Avoids Char.isDigit post.chars := by
  cases post with
  | dash digits => exact avoids_cons.mpr rfl
  | marker m => exact MarkerSpelling.Valid.avoids_isDigit (by decide) hpost

theorem PostSpelling.Valid.ne_plus {post : PostSpelling} (hpost : post.Valid) :
    ∀ c ∈ post.chars, c ≠ '+' := by
  cases post with
  | dash digits =>
    have hdigits : IsNumber digits := hpost
    exact List.forall_mem_cons.mpr ⟨by decide, ne_plus_of_isDigit hdigits.2⟩
  | marker m => exact MarkerSpelling.Valid.ne_plus (by decide) hpost

/-! ## Before the local label -/

theorem avoids_others (others : List (List Char)) :
    Avoids Char.isDigit (others.flatMap ('.' :: ·)) := by
  cases others with
  | nil => exact avoids_nil _
  | cons _ _ => exact avoids_cons.mpr rfl

theorem runs_others {others : List (List Char)} (h : ∀ digits ∈ others, IsNumber digits) :
    runs Char.isDigit (others.flatMap ('.' :: ·)) = written others := by
  induction others with
  | nil => rfl
  | cons digits others ih =>
    obtain ⟨hdigits, hothers⟩ := List.forall_mem_cons.mp h
    rw [List.flatMap_cons, List.cons_append, runs_cons_of_neg rfl,
      runs_append (avoids_others others), ih hothers, runs_of_pos hdigits.2, ← written_append]
    rfl

section

variable {α : Type} {part : Option α} {chars : α → List Char}

theorem runs_option {digits : α → List Char}
    (h : ∀ a ∈ part, runs Char.isDigit (chars a) = written [digits a]) :
    runs Char.isDigit (part.elim [] chars) = written (part.toList.map digits) := by
  cases part with
  | none => rfl
  | some a => exact h a rfl

theorem avoids_option {p : Char → Bool} (h : ∀ a ∈ part, Avoids p (chars a)) :
    Avoids p (part.elim [] chars) := by
  cases part with
  | none => exact avoids_nil p
  | some a => exact h a rfl

theorem ne_plus_option (h : ∀ a ∈ part, ∀ c ∈ chars a, c ≠ '+') :
    ∀ c ∈ part.elim [] chars, c ≠ '+' := by
  cases part with
  | none => nofun
  | some a => exact h a rfl

end

namespace VersionSpelling

variable {s : VersionSpelling}

theorem Valid.runs_epoch (hs : s.Valid) (rest : List Char) :
    runs Char.isDigit (s.epoch.elim [] (· ++ ['!']) ++ rest) =
      written s.epoch.toList ++ runs Char.isDigit rest := by
  have hepoch := hs.epoch
  cases h : s.epoch with
  | none => rfl
  | some digits =>
    show runs Char.isDigit (digits ++ ['!'] ++ rest) = _
    rw [List.append_assoc, List.singleton_append, runs_append (avoids_cons.mpr rfl),
      runs_cons_of_neg rfl, runs_of_pos (hepoch digits h).2]
    rfl

theorem Valid.isDigit_letter (hs : s.Valid) : ∀ c ∈ s.letter, c.isDigit = false := by
  rcases hs.letter with h | h | h <;> rw [h]
  · nofun
  · exact List.forall_mem_singleton.mpr rfl
  · exact List.forall_mem_singleton.mpr rfl

/-- Every part before the label gives the runs of its own digits, since none begins with one. -/
theorem Valid.runs_beforeLabel (hs : s.Valid) : runs Char.isDigit s.beforeLabel =
    written (s.epoch.toList ++ s.first :: s.others ++ s.pre.toList.map MarkerSpelling.digits ++
      s.post.toList.map PostSpelling.digits ++ s.dev.toList.map MarkerSpelling.digits) := by
  obtain ⟨hfirst, hothers⟩ := List.forall_mem_cons.mp hs.release
  have hpre := runs_option fun m hm => (hs.pre m hm).1.runs_chars (by decide)
  have hpost := runs_option fun post hpost => (hs.post post hpost).1.runs_chars
  have hdev := runs_option fun m hm => (hs.dev m hm).runs_chars (by decide)
  have hbehindPost := avoids_option fun m hm => (hs.dev m hm).avoids_isDigit (by decide)
  have hbehindPre :=
    (avoids_option fun post hpost => (hs.post post hpost).1.avoids_isDigit).append hbehindPost
  have hbehindRelease :=
    (avoids_option fun m hm => (hs.pre m hm).1.avoids_isDigit (by decide)).append hbehindPre
  unfold beforeLabel
  rw [runs_append_of_neg fun c hc => isDigit_of_isBlank (hs.front c hc),
    runs_append_of_neg hs.isDigit_letter, hs.runs_epoch,
    runs_append ((avoids_others s.others).append hbehindRelease), runs_append hbehindRelease,
    runs_append hbehindPre, runs_append hbehindPost, runs_of_pos hfirst.2, runs_others hothers,
    hpre, hpost, hdev]
  simp only [written_append, List.append_assoc, ← List.singleton_append (l := s.others)]

/-- The first plus sign is that of the label. -/
theorem Valid.ne_plus (hs : s.Valid) : ∀ c ∈ s.beforeLabel, c ≠ '+' := by
  obtain ⟨hfirst, hothers⟩ := List.forall_mem_cons.mp hs.release
  have hfront : ∀ c ∈ s.front, c ≠ '+' := by
    rintro _ hc rfl
    cases hs.front '+' hc
  have hletter : ∀ c ∈ s.letter, c ≠ '+' := by
    rcases hs.letter with h | h | h <;> rw [h]
    · nofun
    · exact List.forall_mem_singleton.mpr (by decide)
    · exact List.forall_mem_singleton.mpr (by decide)
  have hepoch : ∀ c ∈ s.epoch.elim [] (· ++ ['!']), c ≠ '+' :=
    ne_plus_option fun digits hdigits => List.forall_mem_append.mpr
      ⟨ne_plus_of_isDigit (hs.epoch digits hdigits).2, List.forall_mem_singleton.mpr (by decide)⟩
  have hpoints : ∀ c ∈ s.others.flatMap ('.' :: ·), c ≠ '+' := by
    intro c hc
    obtain ⟨digits, hdigits, hc⟩ := List.mem_flatMap.mp hc
    exact List.forall_mem_cons.mpr ⟨by decide, ne_plus_of_isDigit (hothers digits hdigits).2⟩ c hc
  unfold beforeLabel
  simp only [List.forall_mem_append]
  exact ⟨hfront, hletter, hepoch, ne_plus_of_isDigit hfirst.2, hpoints,
    ne_plus_option fun m hm => (hs.pre m hm).1.ne_plus (by decide),
    ne_plus_option fun post hpost => (hs.post post hpost).1.ne_plus,
    ne_plus_option fun m hm => (hs.dev m hm).ne_plus (by decide)⟩

/-! ## Behind it -/

theorem chars_eq (s : VersionSpelling) : s.chars = s.beforeLabel ++ s.behindDev := by
  simp [chars, beforeLabel, behindEpoch, behindRelease, behindPre, behindPost]

end VersionSpelling

/-- The parts of a label are its runs of letters and digits. -/
theorem runs_partChars {rest : List Char} (hrest : ∀ c ∈ rest, isLabelChar c = false)
    (others : List (Char × List Char)) : ∀ first : List Char, LabelSpelling.Valid ⟨first, others⟩ →
      runs isLabelChar (LabelSpelling.partChars ⟨first, others⟩ ++ rest) =
        LabelSpelling.parts ⟨first, others⟩ := by
  induction others with
  | nil =>
    intro first hl
    obtain ⟨hne, hfirst⟩ := hl.parts first List.mem_cons_self
    show runs isLabelChar (first ++ [] ++ rest) = [first]
    rw [List.append_nil, runs_append fun c hc => hrest c (List.mem_of_mem_head? hc),
      runs_of_pos hfirst, runs_of_neg hrest, List.append_nil]
    exact List.filter_cons_of_pos (by simpa using hne)
  | cons other others ih =>
    intro first hl
    obtain ⟨hne, hfirst⟩ := hl.parts first List.mem_cons_self
    have hseparates := isLabelChar_of_separator (hl.separators other List.mem_cons_self)
    have hothers : LabelSpelling.Valid ⟨other.2, others⟩ :=
      ⟨fun part hpart => hl.parts part (List.mem_cons_of_mem _ hpart),
        fun p hp => hl.separators p (List.mem_cons_of_mem _ hp)⟩
    have hchars : LabelSpelling.partChars ⟨first, other :: others⟩ ++ rest =
        first ++ other.1 :: (LabelSpelling.partChars ⟨other.2, others⟩ ++ rest) := by
      simp [LabelSpelling.partChars]
    rw [hchars, runs_append (avoids_cons.mpr hseparates), runs_cons_of_neg hseparates,
      ih other.2 hothers, runs_of_pos hfirst]
    rw [show written [first] = [first] from List.filter_cons_of_pos (by simpa using hne)]
    rfl

namespace VersionSpelling

variable {s : VersionSpelling}

/-- The text before a plus sign, and the text from it on. -/
theorem Valid.split_chars (hs : s.Valid) {l : LabelSpelling} (hlabel : s.label = some l) :
    s.chars.takeWhile (· != '+') = s.beforeLabel ∧
      s.chars.dropWhile (· != '+') = '+' :: (l.partChars ++ s.back) := by
  have hbehind : s.behindDev = '+' :: (l.partChars ++ s.back) := by
    unfold behindDev
    rw [hlabel]
    rfl
  rw [s.chars_eq, hbehind]
  refine takeWhile_dropWhile_append (fun c hc => bne_iff_ne.mpr (hs.ne_plus c hc)) ?_
  rintro _ ⟨⟩
  rfl

/-- Without a label there is no plus sign. -/
theorem Valid.split_chars_of_none (hs : s.Valid) (hlabel : s.label = none) :
    s.chars.takeWhile (· != '+') = s.beforeLabel ++ s.back ∧
      s.chars.dropWhile (· != '+') = [] := by
  have hbehind : s.behindDev = s.back := by
    unfold behindDev
    rw [hlabel]
    rfl
  have hback : ∀ c ∈ s.back, c ≠ '+' := by
    rintro _ hc rfl
    cases hs.back '+' hc
  have hplus : ∀ c ∈ s.beforeLabel ++ s.back, (c != '+') = true := fun c hc =>
    bne_iff_ne.mpr (List.forall_mem_append.mpr ⟨hs.ne_plus, hback⟩ c hc)
  rw [s.chars_eq, hbehind]
  exact ⟨List.takeWhile_eq_self_iff.mpr hplus, List.dropWhile_eq_nil_iff.mpr hplus⟩

/-- The numbers in the text of a version are those that its spelling has. -/
theorem Valid.numeralsIn_chars (hs : s.Valid) : numeralsIn s.chars = written s.numerals := by
  have hback : ∀ c ∈ s.back, c.isDigit = false := fun c hc => isDigit_of_isBlank (hs.back c hc)
  have hbefore := hs.runs_beforeLabel
  have hvalid := hs.label
  unfold numeralsIn numerals
  rw [written_append, ← hbefore]
  cases hlabel : s.label with
  | none =>
    obtain ⟨htake, hdrop⟩ := hs.split_chars_of_none hlabel
    rw [htake, hdrop, runs_append (avoids_blanks (fun _ => isDigit_of_isBlank) hs.back),
      runs_of_neg hback, List.append_nil]
    rfl
  | some l =>
    obtain ⟨htake, hdrop⟩ := hs.split_chars hlabel
    have hl := hvalid l hlabel
    have hparts : written (l.parts.filter (·.all Char.isDigit)) =
        l.parts.filter (·.all Char.isDigit) :=
      List.filter_eq_self.mpr fun part hpart => by
        simpa using (hl.parts part (List.mem_of_mem_filter hpart)).1
    rw [htake, hdrop, runs_cons_of_neg rfl,
      runs_partChars (fun c hc => isLabelChar_of_isBlank (hs.back c hc)) l.others l.first hl]
    show _ ++ l.parts.filter _ = _ ++ written ([l].flatMap _)
    rw [List.flatMap_singleton, hparts]

end VersionSpelling

/-! ## Top theorem -/

/-- Exactly the versions are read whose numbers are not too long. -/
theorem versionFault?_eq_none_iff {text : String} :
    versionFault? text = none ↔ IsVersion (some Text.maxDigits) text := by
  have hshort : ∀ {s : VersionSpelling}, s.Valid → s.chars = text.toList →
      ((∀ digits ∈ numeralsIn text.toList, digits.length ≤ Text.maxDigits) ↔
        ∀ digits ∈ s.numerals, digits.length ≤ Text.maxDigits) := by
    intro s hs hchars
    rw [← hchars, hs.numeralsIn_chars]
    refine ⟨fun h digits hdigits => ?_, fun h digits hdigits =>
      h digits (List.mem_of_mem_filter hdigits)⟩
    cases digits with
    | nil => exact Nat.zero_le _
    | cons d digits => exact h _ (List.mem_filter.mpr ⟨hdigits, rfl⟩)
  have hfind : ((numeralsIn text.toList).find? (Text.maxDigits < ·.length)).map
        (fun digits => VersionFault.overlong digits.length) = none ↔
      ∀ digits ∈ numeralsIn text.toList, digits.length ≤ Text.maxDigits := by
    simp
  unfold versionFault? Version.parse? IsVersion
  cases hread : Version.ofChars? text.toList with
  | none =>
    refine ⟨nofun, ?_⟩
    rintro ⟨s, hs, hchars, -⟩
    rw [← hchars, hs.ofChars?] at hread
    cases hread
  | some v =>
    obtain ⟨s, hs, hchars, -⟩ := ofChars?_eq_some_iff.mp hread
    rw [if_neg (by simp), hfind]
    constructor
    · intro h
      refine ⟨s, hs, hchars, ?_⟩
      rintro _ ⟨⟩
      exact (hshort hs hchars).mp h
    · rintro ⟨s, hs, hchars, h⟩
      exact (hshort hs hchars).mpr (h _ rfl)

/-! ## Versions of one number -/

theorem isNumber_replicate {n : Nat} (hn : n ≠ 0) {c : Char} (hc : c.isDigit = true) :
    IsNumber (List.replicate n c) := by
  refine ⟨fun h => hn (List.replicate_eq_nil_iff c |>.mp h), fun d hd => ?_⟩
  rw [List.eq_of_mem_replicate hd]
  exact hc

/-- A number alone is a version. -/
theorem valid_number {digits : List Char} (h : IsNumber digits) :
    VersionSpelling.Valid ⟨[], [], none, digits, [], none, none, none, none, []⟩ :=
  ⟨nofun, Or.inl rfl, nofun, List.forall_mem_singleton.mpr h, nofun, nofun, nofun, nofun, nofun⟩

theorem versionFault?_of_long {digits : List Char} (h : IsNumber digits)
    (hlong : Text.maxDigits < digits.length) :
    versionFault? (String.ofList digits) = some (.overlong digits.length) := by
  have hs := valid_number h
  have hchars : VersionSpelling.chars ⟨[], [], none, digits, [], none, none, none, none, []⟩ =
      digits := List.append_nil digits
  have hread := hs.ofChars?
  have hnumerals := hs.numeralsIn_chars
  rw [hchars] at hread hnumerals
  unfold versionFault? Version.parse?
  rw [String.toList_ofList, hread, hnumerals]
  have hwritten : written (VersionSpelling.numerals
      ⟨[], [], none, digits, [], none, none, none, none, []⟩) = [digits] :=
    List.filter_cons_of_pos (by simpa using h.1)
  rw [hwritten, List.find?_singleton, if_pos (decide_eq_true hlong)]
  rfl

end BuildCommands.Package
