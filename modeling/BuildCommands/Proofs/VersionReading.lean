import BuildCommands.Proofs.VersionSpelling
import Mathlib.Data.List.TakeWhile

/-!
# Reading versions

The texts that are read as a version are the spellings of it.

    Version.ofChars? cs = some v ↔ some spelling has the characters cs and stands for v
                                                                          (ofChars?_eq_some_iff)

Each reader is given the characters from its part on.  It takes its own part, since nothing of what
can stand behind belongs to it, and leaves the text alone if the part is not written, since none of
what can stand behind begins like it.  The other way round, what a reader takes is such a part.
-/

namespace BuildCommands.Package

/-- Texts that are not empty make a text at least as long as there are texts. -/
theorem length_le_flatMap {α : Type} (f : α → List Char) (hf : ∀ a, f a ≠ []) (l : List α) :
    l.length ≤ (l.flatMap f).length := by
  induction l with
  | nil => exact Nat.le_refl 0
  | cons a l ih =>
    have := List.length_pos_iff.mpr (hf a)
    rw [List.flatMap_cons, List.length_append, List.length_cons]
    omega

/-! ## Local labels -/

/-- One part is split off, and those behind it if a separator and another part follow. -/
theorem takeSegments_part {part tail : List Char} (hne : part ≠ [])
    (hpart : ∀ c ∈ part, isLabelChar c = true) (htail : Avoids isLabelChar tail) (fuel : Nat) :
    takeSegments (fuel + 1) (part ++ tail) =
      match tail with
      | [] => some ([segmentOf part], [])
      | separator :: rest =>
        if isVersionSeparator separator then
          match takeSegments fuel rest with
          | some (parts, rest) => some (segmentOf part :: parts, rest)
          | none => some ([segmentOf part], separator :: rest)
        else some ([segmentOf part], separator :: rest) := by
  have hspan := takeWhile_dropWhile_append hpart htail
  obtain ⟨c, part, rfl⟩ := List.exists_cons_of_ne_nil hne
  rw [takeSegments, hspan.1, hspan.2]
  cases tail <;> rfl

theorem takeSegments_chars {rest : List Char} (hchar : Avoids isLabelChar rest)
    (hseparator : Avoids isVersionSeparator rest) (others : List (Char × List Char)) :
    ∀ first : List Char, LabelSpelling.Valid ⟨first, others⟩ → ∀ fuel, others.length ≤ fuel →
      takeSegments (fuel + 1) (LabelSpelling.partChars ⟨first, others⟩ ++ rest) =
        some ((LabelSpelling.parts ⟨first, others⟩).map segmentOf, rest) := by
  induction others with
  | nil =>
    intro first hl fuel _
    obtain ⟨hne, hfirst⟩ := hl.parts first List.mem_cons_self
    show takeSegments (fuel + 1) (first ++ [] ++ rest) = _
    rw [List.append_nil, takeSegments_part hne hfirst hchar]
    cases rest with
    | nil => rfl
    | cons c rest =>
      simp only [avoids_cons.mp hseparator, Bool.false_eq_true, if_false]
      rfl
  | cons other others ih =>
    intro first hl fuel hfuel
    obtain ⟨fuel, rfl⟩ := Nat.exists_eq_add_of_le' (Nat.lt_of_lt_of_le (Nat.succ_pos _) hfuel)
    obtain ⟨hne, hfirst⟩ := hl.parts first List.mem_cons_self
    have hseparates := hl.separators other List.mem_cons_self
    have hothers : LabelSpelling.Valid ⟨other.2, others⟩ :=
      ⟨fun part hpart => hl.parts part (List.mem_cons_of_mem _ hpart),
        fun p hp => hl.separators p (List.mem_cons_of_mem _ hp)⟩
    have hrest := ih other.2 hothers fuel (Nat.le_of_succ_le_succ hfuel)
    have hchars : LabelSpelling.partChars ⟨first, other :: others⟩ ++ rest =
        first ++ other.1 :: (LabelSpelling.partChars ⟨other.2, others⟩ ++ rest) := by
      simp [LabelSpelling.partChars]
    rw [hchars, takeSegments_part hne hfirst
      (avoids_cons.mpr (isLabelChar_of_separator hseparates))]
    simp only [hseparates, if_true, hrest]
    rfl

/-! ## Releases -/

/-- Behind the release no more numbers of it stand. -/
def EndsRelease (rest : List Char) : Prop :=
  Avoids Char.isDigit rest ∧ ∀ tail, rest = '.' :: tail → Avoids Char.isDigit tail

theorem takeRelease_chars {rest : List Char} (hrest : EndsRelease rest)
    (others : List (List Char)) : (∀ digits ∈ others, IsNumber digits) →
      ∀ fuel, others.length ≤ fuel →
        takeRelease fuel (others.flatMap ('.' :: ·) ++ rest) = (others.map numberOf, rest) := by
  induction others with
  | nil =>
    intro _ fuel hfuel
    show takeRelease fuel rest = ([], rest)
    unfold takeRelease
    split
    · next _ fuel tail =>
      have hdigits : takeDigits tail = ([], tail) :=
        takeDigits_append (List.forall_mem_nil _) (hrest.2 tail rfl)
      simp only [hdigits]
    · rfl
  | cons digits others ih =>
    intro hnumbers fuel hfuel
    obtain ⟨⟨hne, hdigits⟩, hothers⟩ := List.forall_mem_cons.mp hnumbers
    obtain ⟨fuel, rfl⟩ := Nat.exists_eq_add_of_le' (Nat.lt_of_lt_of_le (Nat.succ_pos _) hfuel)
    have hmore := ih hothers fuel (Nat.le_of_succ_le_succ hfuel)
    have hbehind : Avoids Char.isDigit (others.flatMap ('.' :: ·) ++ rest) := by
      cases others with
      | nil => exact hrest.1
      | cons next others => exact avoids_cons.mpr rfl
    obtain ⟨d, digits, rfl⟩ := List.exists_cons_of_ne_nil hne
    rw [List.flatMap_cons, List.append_assoc, List.cons_append, takeRelease,
      takeDigits_append hdigits hbehind]
    simp only [hmore]
    rfl

/-! ## Versions -/

namespace VersionSpelling

variable {s : VersionSpelling}

theorem Valid.takeLocal? (hs : s.Valid) :
    optionally (Package.takeLocal? s.behindDev) s.behindDev =
      (s.label.map fun l => l.parts.map segmentOf, s.back) := by
  have hlabel := hs.label
  unfold behindDev
  cases h : s.label with
  | none =>
    have hplus : Package.takeLocal? s.back = none := by
      unfold Package.takeLocal?
      split
      · next rest hback => cases hs.back '+' (by rw [hback]; exact List.mem_cons_self)
      · rfl
    show optionally (Package.takeLocal? s.back) s.back = _
    rw [hplus]
    rfl
  | some l =>
    have hchar := avoids_blanks (fun _ => isLabelChar_of_isBlank) hs.back
    have hseparator := avoids_blanks (fun _ => separator_of_isBlank) hs.back
    have hlength : l.others.length ≤ (l.partChars ++ s.back).length := by
      unfold LabelSpelling.partChars
      rw [List.length_append, List.length_append]
      have := length_le_flatMap (fun p : Char × List Char => p.1 :: p.2)
        (fun _ => List.cons_ne_nil _ _) l.others
      omega
    have hread : Package.takeLocal? (l.chars ++ s.back) =
        takeSegments ((l.partChars ++ s.back).length + 1) (l.partChars ++ s.back) := rfl
    show optionally (Package.takeLocal? (l.chars ++ s.back)) (l.chars ++ s.back) = _
    rw [hread, takeSegments_chars hchar hseparator l.others l.first (hlabel l h) _ hlength]
    rfl

theorem Valid.avoids_dropSeparator_behindDev (hs : s.Valid) {p : Char → Bool}
    (hblank : ∀ c, Text.isBlank c = true → p c = false) (hplus : p '+' = false) :
    Avoids p (dropSeparator s.behindDev) := by
  have hseparator := hs.avoids_behindDev (fun _ => separator_of_isBlank) rfl
  have hdrop := dropSeparator_append (Or.inl rfl) fun _ => hseparator
  rw [List.nil_append] at hdrop
  rw [hdrop]
  exact hs.avoids_behindDev hblank hplus

theorem Valid.takeDev? (hs : s.Valid) :
    optionally (takeMarker? devLabels s.behindPost) s.behindPost =
      (s.dev.map MarkerSpelling.marker, s.behindDev) := by
  have hdev := hs.dev
  have hdigit := hs.avoids_behindDev (fun _ => isDigit_of_isBlank) rfl
  have hprolongs := hs.avoids_behindDev harmless_prolongs.blank rfl
  have hseparator := hs.avoids_behindDev (fun _ => separator_of_isBlank) rfl
  unfold behindPost
  cases h : s.dev with
  | none =>
    have hbegins := hs.avoids_dropSeparator_behindDev harmless_begins.blank rfl
    show optionally (takeMarker? devLabels s.behindDev) s.behindDev = _
    rw [takeMarker?_none (by decide) hbegins]
    rfl
  | some m =>
    show optionally (takeMarker? devLabels (m.chars ++ s.behindDev)) (m.chars ++ s.behindDev) = _
    rw [takeMarker?_chars (by decide) (hdev m h) hdigit hprolongs fun _ _ => hseparator]
    rfl

/-- Without a post-release a development release or less is left, which is no other marker. -/
theorem Valid.takeMarker?_behindPost (hs : s.Valid) (others : List String)
    (hothers : others ⊆ markerLabels)
    (hfind : ∀ label ∈ devLabels,
      others.find? (fun other => other.toList.isPrefixOf label.toList) = none) :
    takeMarker? others s.behindPost = none := by
  have hdev := hs.dev
  have hprolongs := hs.avoids_behindDev harmless_prolongs.blank rfl
  have hbegins := hs.avoids_dropSeparator_behindDev harmless_begins.blank rfl
  unfold behindPost
  cases h : s.dev with
  | none => exact takeMarker?_none hothers hbegins
  | some m => exact takeMarker?_other (by decide) hothers hfind (hdev m h) hprolongs

theorem Valid.avoids_dropSeparator_behindPost (hs : s.Valid) :
    Avoids Char.isDigit (dropSeparator s.behindPost) := by
  have hdev := hs.dev
  have hbehind := hs.avoids_dropSeparator_behindDev (fun _ => isDigit_of_isBlank) rfl
  unfold behindPost
  cases h : s.dev with
  | none => exact hbehind
  | some m => exact (hdev m h).avoids_dropSeparator (by decide) _

/-- A text that is not a dash and a digit is read as a marker. -/
theorem takePost?_eq {cs : List Char} (h : Avoids Char.isDigit (dropSeparator cs)) :
    Package.takePost? cs = takeMarker? postLabels cs := by
  unfold Package.takePost?
  split
  · next c rest =>
    have hc : c.isDigit = false := avoids_cons.mp h
    rw [hc]
    rfl
  · rfl

theorem takePost?_dash {digits rest : List Char} (h : IsNumber digits)
    (hrest : Avoids Char.isDigit rest) :
    Package.takePost? ('-' :: digits ++ rest) = some (⟨"post", numberOf digits⟩, rest) := by
  obtain ⟨d, digits, rfl⟩ := List.exists_cons_of_ne_nil h.1
  rw [List.cons_append, List.cons_append, Package.takePost?, if_pos (h.2 d List.mem_cons_self),
    ← List.cons_append, takeDigits_append h.2 hrest]

theorem Valid.takePost? (hs : s.Valid) :
    optionally (Package.takePost? s.behindPre) s.behindPre =
      (s.post.map PostSpelling.marks, s.behindPost) := by
  have hpost := hs.post
  have hdigit := hs.avoids_behindPost harmless_isDigit (by decide)
  have hprolongs := hs.avoids_behindPost harmless_prolongs (by decide)
  have hother := hs.takeMarker?_behindPost postLabels (by decide) (by decide)
  unfold behindPre
  cases h : s.post with
  | none =>
    show optionally (Package.takePost? s.behindPost) s.behindPost = _
    rw [takePost?_eq hs.avoids_dropSeparator_behindPost, hother]
    rfl
  | some post =>
    cases post with
    | dash digits =>
      show optionally (Package.takePost? ('-' :: digits ++ s.behindPost))
        ('-' :: digits ++ s.behindPost) = _
      rw [takePost?_dash (hpost _ h).1 hdigit]
      rfl
    | marker m =>
      obtain ⟨hm, hcloses⟩ := hpost _ h
      have hm : m.Valid postLabels := hm
      show optionally (Package.takePost? (m.chars ++ s.behindPost)) (m.chars ++ s.behindPost) = _
      rw [takePost?_eq (hm.avoids_dropSeparator (by decide) _),
        takeMarker?_chars (by decide) hm hdigit hprolongs hcloses]
      rfl

theorem Valid.takePre? (hs : s.Valid) :
    optionally (takeMarker? preLabels s.behindRelease) s.behindRelease =
      (s.pre.map MarkerSpelling.marker, s.behindPre) := by
  have hpre := hs.pre
  have hpost := hs.post
  have hdigit := hs.avoids_behindPre harmless_isDigit (by decide)
  have hprolongs := hs.avoids_behindPre harmless_prolongs (by decide)
  have hprolongs' := hs.avoids_behindPost harmless_prolongs (by decide)
  have hother := hs.takeMarker?_behindPost preLabels (by decide) (by decide)
  have hnone : takeMarker? preLabels s.behindPre = none := by
    unfold behindPre
    cases h : s.post with
    | none => exact hother
    | some post =>
      cases post with
      | dash digits =>
        obtain ⟨hne, hdigits⟩ : IsNumber digits := (hpost _ h).1
        obtain ⟨d, digits, rfl⟩ := List.exists_cons_of_ne_nil hne
        refine takeMarker?_none (by decide) (avoids_cons.mpr ?_)
        exact begins_of_isDigit (hdigits d List.mem_cons_self)
      | marker m =>
        have hm : m.Valid postLabels := (hpost _ h).1
        exact takeMarker?_other (by decide) (by decide) (by decide) hm hprolongs'
  unfold behindRelease
  cases h : s.pre with
  | none =>
    show optionally (takeMarker? preLabels s.behindPre) s.behindPre = _
    rw [hnone]
    rfl
  | some m =>
    obtain ⟨hm, hcloses⟩ := hpre m h
    show optionally (takeMarker? preLabels (m.chars ++ s.behindPre)) (m.chars ++ s.behindPre) = _
    rw [takeMarker?_chars (by decide) hm hdigit hprolongs hcloses]
    rfl

/-- A point behind the release is that of a marker, with a word behind it. -/
theorem Valid.endsRelease (hs : s.Valid) : EndsRelease s.behindRelease := by
  refine ⟨hs.avoids_behindRelease harmless_isDigit (by decide), fun tail htail => ?_⟩
  have hdrop : dropSeparator s.behindRelease = tail := by
    rw [htail]
    rfl
  rw [← hdrop]
  have hpre := hs.pre
  have hpost := hs.post
  have hbehind := hs.avoids_dropSeparator_behindPost
  unfold behindRelease at htail ⊢
  cases h : s.pre with
  | some m => exact (hpre m h).1.avoids_dropSeparator (by decide) _
  | none =>
    rw [h] at htail
    unfold behindPre at htail ⊢
    cases h : s.post with
    | none => exact hbehind
    | some post =>
      cases post with
      | dash digits =>
        rw [h] at htail
        cases htail
      | marker m =>
        have hm : m.Valid postLabels := (hpost _ h).1
        exact hm.avoids_dropSeparator (by decide) _

theorem Valid.takeRelease (hs : s.Valid) :
    Package.takeRelease (s.others.flatMap ('.' :: ·) ++ s.behindRelease).length
        (s.others.flatMap ('.' :: ·) ++ s.behindRelease) =
      (s.others.map numberOf, s.behindRelease) := by
  refine takeRelease_chars hs.endsRelease s.others
    (fun digits hdigits => hs.release digits (List.mem_cons_of_mem _ hdigits)) _ ?_
  have := length_le_flatMap (fun digits : List Char => '.' :: digits)
    (fun _ => List.cons_ne_nil _ _) s.others
  rw [List.length_append]
  omega

theorem Valid.takeFirst (hs : s.Valid) :
    takeDigits s.behindEpoch = (s.first, s.others.flatMap ('.' :: ·) ++ s.behindRelease) := by
  have hbehind : Avoids Char.isDigit (s.others.flatMap ('.' :: ·) ++ s.behindRelease) := by
    cases s.others with
    | nil => exact hs.endsRelease.1
    | cons digits others => exact avoids_cons.mpr rfl
  exact takeDigits_append (hs.release s.first List.mem_cons_self).2 hbehind

theorem Valid.exists_first (hs : s.Valid) :
    ∃ d digits, s.first = d :: digits ∧ d.isDigit = true := by
  obtain ⟨hne, hdigits⟩ := hs.release s.first List.mem_cons_self
  obtain ⟨d, digits, hfirst⟩ := List.exists_cons_of_ne_nil hne
  exact ⟨d, digits, hfirst, hdigits d (by rw [hfirst]; exact List.mem_cons_self)⟩

theorem Valid.takeEpoch (hs : s.Valid) :
    Package.takeEpoch (s.epoch.elim [] (· ++ ['!']) ++ s.behindEpoch) =
      (s.epoch.elim 0 numberOf, s.behindEpoch) := by
  have hepoch := hs.epoch
  cases h : s.epoch with
  | none =>
    show Package.takeEpoch s.behindEpoch = (0, s.behindEpoch)
    unfold Package.takeEpoch
    rw [hs.takeFirst]
    split
    · next d digits rest heq =>
      -- a bang would have to begin what stands behind the first number
      have hbang : Avoids (· == '!') (s.others.flatMap ('.' :: ·) ++ s.behindRelease) := by
        cases s.others with
        | nil => exact hs.avoids_behindRelease harmless_bang (by decide)
        | cons digits others => exact avoids_cons.mpr rfl
      rw [(Prod.mk.inj heq).2] at hbang
      cases avoids_cons.mp hbang
    · rfl
  | some digits =>
    obtain ⟨hne, hdigits⟩ := hepoch digits h
    obtain ⟨d, digits, rfl⟩ := List.exists_cons_of_ne_nil hne
    show Package.takeEpoch (d :: digits ++ ['!'] ++ s.behindEpoch) = _
    have hbang : Avoids Char.isDigit ('!' :: s.behindEpoch) := avoids_cons.mpr rfl
    unfold Package.takeEpoch
    rw [List.append_assoc, List.singleton_append, takeDigits_append hdigits hbang]
    rfl

/-- The blanks and the letter before a version are dropped. -/
theorem Valid.dropLetter (hs : s.Valid) :
    Package.dropLetter (Text.dropBlank s.chars) =
      s.epoch.elim [] (· ++ ['!']) ++ s.behindEpoch := by
  have hdigit : ∃ d rest, s.epoch.elim [] (· ++ ['!']) ++ s.behindEpoch = d :: rest ∧
      d.isDigit = true := by
    have hepoch := hs.epoch
    cases h : s.epoch with
    | none =>
      obtain ⟨d, digits, hfirst, hd⟩ := hs.exists_first
      exact ⟨d, _, by unfold behindEpoch; rw [hfirst]; rfl, hd⟩
    | some digits =>
      obtain ⟨hne, hdigits⟩ := hepoch digits h
      obtain ⟨d, digits, rfl⟩ := List.exists_cons_of_ne_nil hne
      exact ⟨d, _, rfl, hdigits d List.mem_cons_self⟩
  obtain ⟨d, rest, hrest, hd⟩ := hdigit
  unfold chars
  rw [hrest, Text.dropBlank, List.dropWhile_append_of_pos hs.front]
  rcases hs.letter with h | h | h
  · have hblank : Text.isBlank d = false := by
      refine Bool.eq_false_iff.mpr fun hblank => ?_
      rw [isDigit_of_isBlank hblank] at hd
      cases hd
    rw [h, List.nil_append, List.dropWhile_cons_of_neg (by rw [hblank]; decide)]
    unfold Package.dropLetter
    split
    · next heq =>
      rw [(List.cons.inj heq).1] at hd
      cases hd
    · next heq =>
      rw [(List.cons.inj heq).1] at hd
      cases hd
    · rfl
  · rw [h]
    rfl
  · rw [h]
    rfl

/-- The version that is written is read. -/
theorem Valid.ofChars? (hs : s.Valid) : Version.ofChars? s.chars = some s.version := by
  obtain ⟨d, digits, hfirst, -⟩ := hs.exists_first
  have hback : s.back.all Text.isBlank = true := List.all_eq_true.mpr hs.back
  unfold Version.ofChars?
  rw [hs.dropLetter, hs.takeEpoch]
  simp only [hs.takeFirst, hfirst, hs.takeRelease]
  have hpre := hs.takePre?
  have hpost := hs.takePost?
  have hdev := hs.takeDev?
  have hlocal := hs.takeLocal?
  unfold preLabels at hpre
  unfold devLabels at hdev
  simp only [hpre, hpost, hdev, hlocal, hback, if_true]
  unfold version numbers
  rw [hfirst]
  rfl

end VersionSpelling

/-! ## Parts that are read -/

theorem takeDigits_eq {cs digits rest : List Char} (h : takeDigits cs = (digits, rest)) :
    cs = digits ++ rest ∧ ∀ c ∈ digits, c.isDigit = true := by
  cases h
  exact ⟨List.takeWhile_append_dropWhile.symm, fun c hc => List.mem_takeWhile_imp hc⟩

/-- What is dropped before a word or a number is a gap, which takes a separator if there is one. -/
theorem exists_gap (cs : List Char) : ∃ gap, IsGap gap ∧ cs = gap ++ dropSeparator cs ∧
    (gap = [] → Avoids isVersionSeparator cs) := by
  cases cs with
  | nil => exact ⟨[], Or.inl rfl, rfl, fun _ => avoids_nil _⟩
  | cons c cs =>
    unfold dropSeparator
    cases hc : isVersionSeparator c with
    | true => exact ⟨[c], Or.inr ⟨c, hc, rfl⟩, by simp only [hc]; rfl, nofun⟩
    | false => exact ⟨[], Or.inl rfl, by simp only [hc]; rfl, fun _ => avoids_cons.mpr hc⟩

theorem takeLabel?_eq_some {labels : List String} {cs word rest : List Char}
    (h : takeLabel? labels cs = some (word, rest)) :
    cs = word ++ rest ∧ ∃ label ∈ labels, word.map baseLetter = label.toList := by
  unfold takeLabel? at h
  obtain ⟨label, hlabel, heq⟩ := Option.map_eq_some_iff.mp h
  cases heq
  have hbegins : label.toList <+: cs.map baseLetter :=
    List.isPrefixOf_iff_prefix.mp
      (List.find?_some (p := fun label : String => label.toList.isPrefixOf (cs.map baseLetter))
        hlabel)
  refine ⟨(List.take_append_drop _ _).symm, label, List.mem_of_find?_eq_some hlabel, ?_⟩
  rw [List.map_take, ← String.length_toList]
  exact (List.prefix_iff_eq_take.mp hbegins).symm

theorem takeMarker?_eq_some {labels : List String} {cs rest : List Char} {marker : Marker}
    (h : takeMarker? labels cs = some (marker, rest)) :
    ∃ m : MarkerSpelling, (m.Valid labels ∧ m.Closes rest) ∧ cs = m.chars ++ rest ∧
      m.marker = marker := by
  unfold takeMarker? at h
  obtain ⟨⟨word, behind⟩, hlabel, heq⟩ := Option.map_eq_some_iff.mp h
  obtain ⟨hcs, label, hmem, hword⟩ := takeLabel?_eq_some hlabel
  obtain ⟨lead, hlead, hcs', -⟩ := exists_gap cs
  obtain ⟨gap, hgap, hbehind, hnone⟩ := exists_gap behind
  cases hnumber : takeDigits (dropSeparator behind) with
  | mk digits behind' =>
    obtain ⟨hdigits, hall⟩ := takeDigits_eq hnumber
    simp only [hnumber] at heq
    cases heq
    refine ⟨⟨lead, word, gap, digits⟩, ⟨⟨hlead, ⟨label, hmem, hword⟩, hgap, hall⟩, ?_⟩, ?_, rfl⟩
    · rintro rfl rfl
      rw [List.nil_append] at hdigits hbehind
      rw [← hdigits, ← hbehind]
      exact hnone rfl
    · rw [MarkerSpelling.chars_append, ← hdigits, ← hbehind, ← hcs, ← hcs']

theorem takePost?_eq_some {cs rest : List Char} {marker : Marker}
    (h : takePost? cs = some (marker, rest)) :
    ∃ p : PostSpelling, (p.Valid ∧ p.Closes rest) ∧ cs = p.chars ++ rest ∧ p.marks = marker := by
  have hmarker : takeMarker? postLabels cs = some (marker, rest) → ∃ p : PostSpelling,
      (p.Valid ∧ p.Closes rest) ∧ cs = p.chars ++ rest ∧ p.marks = marker := by
    intro h
    obtain ⟨m, hm⟩ := takeMarker?_eq_some h
    exact ⟨.marker m, hm⟩
  unfold takePost? at h
  split at h
  · next c tail =>
    split at h
    · next hc =>
      obtain ⟨hdigits, hall⟩ := takeDigits_eq (Prod.eta (takeDigits (c :: tail))).symm
      cases h
      refine ⟨.dash (takeDigits (c :: tail)).1, ⟨⟨?_, hall⟩, trivial⟩, ?_, rfl⟩
      · rw [takeDigits, List.takeWhile_cons, hc]
        exact List.cons_ne_nil _ _
      · exact congrArg ('-' :: ·) hdigits
    · exact hmarker h
  · exact hmarker h

theorem takeRelease_eq (fuel : Nat) : ∀ {cs rest : List Char} {numbers : List Nat},
    takeRelease fuel cs = (numbers, rest) → ∃ others : List (List Char),
      (∀ digits ∈ others, IsNumber digits) ∧ cs = others.flatMap ('.' :: ·) ++ rest ∧
      others.map numberOf = numbers := by
  induction fuel with
  | zero =>
    intro cs rest numbers h
    cases h
    exact ⟨[], nofun, rfl, rfl⟩
  | succ fuel ih =>
    intro cs rest numbers h
    unfold takeRelease at h
    split at h
    · next hfuel =>
      cases hfuel
      split at h
      · cases h
        exact ⟨[], nofun, rfl, rfl⟩
      · next digits behind hne hdigits =>
        cases h
        obtain ⟨hcs, hall⟩ := takeDigits_eq hdigits
        obtain ⟨others, hothers, hbehind, hnumbers⟩ := ih (Prod.eta (takeRelease fuel behind)).symm
        refine ⟨digits :: others, List.forall_mem_cons.mpr ⟨⟨hne, hall⟩, hothers⟩, ?_, ?_⟩
        · rw [List.flatMap_cons, List.append_assoc, ← hbehind, hcs]
          rfl
        · rw [List.map_cons, hnumbers]
    · cases h
      exact ⟨[], nofun, rfl, rfl⟩

theorem takeEpoch_eq {cs rest : List Char} {epoch : Nat} (h : takeEpoch cs = (epoch, rest)) :
    ∃ written : Option (List Char), (∀ digits ∈ written, IsNumber digits) ∧
      cs = written.elim [] (· ++ ['!']) ++ rest ∧ written.elim 0 numberOf = epoch := by
  unfold takeEpoch at h
  split at h
  · next d digits behind hdigits =>
    cases h
    obtain ⟨hcs, hall⟩ := takeDigits_eq hdigits
    refine ⟨some (d :: digits), ?_, ?_, rfl⟩
    · rintro _ ⟨⟩
      exact ⟨List.cons_ne_nil _ _, hall⟩
    · rw [hcs]
      show _ = d :: digits ++ ['!'] ++ rest
      rw [List.append_assoc]
      rfl
  · cases h
    exact ⟨none, nofun, rfl, rfl⟩

/-- A part and the rest behind it are a label of one part. -/
theorem exists_label_of_part {part : List Char} (hne : part ≠ [])
    (hpart : ∀ c ∈ part, isLabelChar c = true) (tail : List Char) : ∃ l : LabelSpelling, l.Valid ∧
      part ++ tail = l.partChars ++ tail ∧ l.parts.map segmentOf = [segmentOf part] := by
  refine ⟨⟨part, []⟩, ⟨List.forall_mem_singleton.mpr ⟨hne, hpart⟩, List.forall_mem_nil _⟩, ?_, rfl⟩
  unfold LabelSpelling.partChars
  rw [List.flatMap_nil, List.append_nil]

theorem takeSegments_eq (fuel : Nat) : ∀ {cs rest : List Char} {parts : List Segment},
    takeSegments fuel cs = some (parts, rest) → ∃ l : LabelSpelling, l.Valid ∧
      cs = l.partChars ++ rest ∧ l.parts.map segmentOf = parts := by
  induction fuel with
  | zero => nofun
  | succ fuel ih =>
    intro cs rest parts h
    have hspan : cs.takeWhile isLabelChar ++ cs.dropWhile isLabelChar = cs :=
      List.takeWhile_append_dropWhile
    have hpart : ∀ c ∈ cs.takeWhile isLabelChar, isLabelChar c = true :=
      fun c hc => List.mem_takeWhile_imp hc
    rw [← hspan]
    unfold takeSegments at h
    generalize cs.takeWhile isLabelChar = part at h hpart
    generalize cs.dropWhile isLabelChar = tail at h
    split at h
    · cases h
    · next separator tail hne =>
      split at h
      · next hseparator =>
        split at h
        · next found behind hfound =>
          cases h
          obtain ⟨⟨first, others⟩, hl, hcs, hparts⟩ := ih hfound
          refine ⟨⟨part, (separator, first) :: others⟩,
            ⟨List.forall_mem_cons.mpr ⟨⟨hne, hpart⟩, hl.parts⟩,
              List.forall_mem_cons.mpr ⟨hseparator, hl.separators⟩⟩, ?_, ?_⟩
          · rw [hcs]
            simp [LabelSpelling.partChars]
          · rw [← hparts]
            rfl
        · cases h
          exact exists_label_of_part hne hpart _
      · cases h
        exact exists_label_of_part hne hpart _
    · next hne =>
      cases h
      exact exists_label_of_part hne hpart _

theorem takeLocal?_eq_some {cs rest : List Char} {parts : List Segment}
    (h : takeLocal? cs = some (parts, rest)) :
    ∃ l : LabelSpelling, l.Valid ∧ cs = l.chars ++ rest ∧ l.parts.map segmentOf = parts := by
  unfold takeLocal? at h
  split at h
  · obtain ⟨l, hl, hcs, hparts⟩ := takeSegments_eq _ h
    exact ⟨l, hl, congrArg ('+' :: ·) hcs, hparts⟩
  · cases h

/-! ## Versions that are read -/

theorem eq_or_of_dropLetter (cs : List Char) :
    ∃ letter, (letter = [] ∨ letter = ['v'] ∨ letter = ['V']) ∧ cs = letter ++ dropLetter cs := by
  unfold dropLetter
  split
  · exact ⟨['v'], Or.inr (Or.inl rfl), rfl⟩
  · exact ⟨['V'], Or.inr (Or.inr rfl), rfl⟩
  · exact ⟨[], Or.inl rfl, rfl⟩

/-- An optional part is written or not, as it is read. -/
theorem optionally_eq {α β : Type} {found : Option (α × List Char)} {cs rest : List Char}
    {value : Option α} {P : β → List Char → Prop} {chars : β → List Char} {f : β → α}
    (hfound : ∀ a rest, found = some (a, rest) →
      ∃ b, P b rest ∧ cs = chars b ++ rest ∧ f b = a)
    (h : optionally found cs = (value, rest)) :
    ∃ written : Option β, (∀ b ∈ written, P b rest) ∧ cs = written.elim [] chars ++ rest ∧
      written.map f = value := by
  cases hsome : found with
  | none =>
    rw [hsome] at h
    cases h
    exact ⟨none, nofun, rfl, rfl⟩
  | some found =>
    rw [hsome] at h
    cases h
    obtain ⟨b, hb, hcs, hvalue⟩ := hfound found.1 found.2 hsome
    exact ⟨some b, fun _ hmem => Option.some.inj hmem ▸ hb, hcs, congrArg some hvalue⟩

/-- What the readers of the parts find in a text that is read as a version. -/
theorem readers_of_ofChars? {cs : List Char} {v : Version} (h : Version.ofChars? cs = some v) :
    ∃ behindEpoch first behindFirst numbers behindRelease behindPre behindPost behindDev back,
      takeEpoch (dropLetter (Text.dropBlank cs)) = (v.epoch, behindEpoch) ∧
      takeDigits behindEpoch = (first, behindFirst) ∧ first ≠ [] ∧
      takeRelease behindFirst.length behindFirst = (numbers, behindRelease) ∧
      numberOf first :: numbers = v.release ∧
      optionally (takeMarker? preLabels behindRelease) behindRelease = (v.pre, behindPre) ∧
      optionally (takePost? behindPre) behindPre = (v.post, behindPost) ∧
      optionally (takeMarker? devLabels behindPost) behindPost = (v.dev, behindDev) ∧
      optionally (takeLocal? behindDev) behindDev = (v.label, back) ∧
      ∀ c ∈ back, Text.isBlank c = true := by
  unfold Version.ofChars? at h
  split at h
  next epoch behindEpoch hepoch =>
  split at h
  · cases h
  · next first behindFirst hne hfirst =>
    obtain ⟨hback, hv⟩ := Option.ite_none_right_eq_some.mp h
    cases hv
    exact ⟨_, first, behindFirst, _, _, _, _, _, _, hepoch, hfirst, hne, rfl, rfl, rfl, rfl, rfl,
      rfl, List.all_eq_true.mp hback⟩

/-- A text that is read as a version is a spelling of it. -/
theorem exists_spelling {cs : List Char} {v : Version} (h : Version.ofChars? cs = some v) :
    ∃ s : VersionSpelling, s.Valid ∧ s.chars = cs ∧ s.version = v := by
  obtain ⟨behindEpoch, first, behindFirst, numbers, behindRelease, behindPre, behindPost, behindDev,
    back, readEpoch, readFirst, hne, readRelease, hnumbers, readPre, readPost, readDev, readLabel,
    hback⟩ := readers_of_ofChars? h
  have hfront : cs.takeWhile Text.isBlank ++ Text.dropBlank cs = cs :=
    List.takeWhile_append_dropWhile
  obtain ⟨letter, hletter, hbehindFront⟩ := eq_or_of_dropLetter (Text.dropBlank cs)
  obtain ⟨epoch, hepoch, hbehindLetter, epochEq⟩ := takeEpoch_eq readEpoch
  obtain ⟨hbehindEpoch, hfirst⟩ := takeDigits_eq readFirst
  obtain ⟨others, hothers, hbehindFirst, numbersEq⟩ := takeRelease_eq _ readRelease
  obtain ⟨pre, hpre, hbehindRelease, preEq⟩ :=
    optionally_eq (P := fun m rest => MarkerSpelling.Valid preLabels m ∧ m.Closes rest)
      (fun _ _ => takeMarker?_eq_some) readPre
  obtain ⟨post, hpost, hbehindPre, postEq⟩ :=
    optionally_eq (P := fun p rest => PostSpelling.Valid p ∧ p.Closes rest)
      (fun _ _ => takePost?_eq_some) readPost
  obtain ⟨dev, hdev, hbehindPost, devEq⟩ :=
    optionally_eq (P := fun m rest => MarkerSpelling.Valid devLabels m ∧ m.Closes rest)
      (fun _ _ => takeMarker?_eq_some) readDev
  obtain ⟨label, hlabel, hbehindDev, labelEq⟩ :=
    optionally_eq (P := fun l _ => LabelSpelling.Valid l) (fun _ _ => takeLocal?_eq_some) readLabel
  subst hbehindDev hbehindPost hbehindPre hbehindRelease hbehindFirst hbehindEpoch
  refine ⟨⟨cs.takeWhile Text.isBlank, letter, epoch, first, others, pre, post, dev, label, back⟩,
    ?_, ?_, ?_⟩
  · exact ⟨fun c hc => List.mem_takeWhile_imp hc, hletter, hepoch,
      List.forall_mem_cons.mpr ⟨⟨hne, hfirst⟩, hothers⟩, hpre, hpost, fun m hm => (hdev m hm).1,
      hlabel, hback⟩
  · conv_rhs => rw [← hfront, hbehindFront, hbehindLetter]
    rfl
  · unfold VersionSpelling.version VersionSpelling.numbers
    rw [List.map_cons]
    simp only [numbersEq, hnumbers, epochEq, preEq, postEq, devEq, labelEq]

/-- The texts that are read as a version are its spellings. -/
theorem ofChars?_eq_some_iff {cs : List Char} {v : Version} :
    Version.ofChars? cs = some v ↔
      ∃ s : VersionSpelling, s.Valid ∧ s.chars = cs ∧ s.version = v := by
  refine ⟨exists_spelling, ?_⟩
  rintro ⟨s, hs, rfl, rfl⟩
  exact hs.ofChars?

end BuildCommands.Package
