import BuildCommands.Package.Version
import BuildCommands.Proofs.Lists
import Mathlib.Data.List.Find

/-!
# Spellings of versions

A version is written as a row of parts, of which only the first number is needed: white space, a
letter, an epoch, the numbers of the release, three markers, a local label, and white space.  A
`VersionSpelling` holds the characters of each part; `chars` puts them in a row and `version` says
what they stand for.

A row can be cut into parts in one way only.  A marker takes all that can belong to it: a separator
and a number behind its word are its own.  What stands behind a part begins with none of the
characters that the part could go on with.
-/

namespace BuildCommands.Package

/-! ## Definitions -/

/-- A separator or nothing. -/
def IsGap (cs : List Char) : Prop := cs = [] ∨ ∃ c, isVersionSeparator c = true ∧ cs = [c]

/-- The digits of a number. -/
def IsNumber (cs : List Char) : Prop := cs ≠ [] ∧ ∀ c ∈ cs, c.isDigit = true

def preLabels : List String := ["alpha", "a", "beta", "b", "preview", "pre", "c", "rc"]

def postLabels : List String := ["post", "rev", "r"]

def devLabels : List String := ["dev"]

/-- A marker as it is written: its word, with a gap on either side, and its digits. -/
structure MarkerSpelling where
  lead : List Char
  word : List Char
  gap : List Char
  digits : List Char

def MarkerSpelling.chars (m : MarkerSpelling) : List Char := m.lead ++ m.word ++ m.gap ++ m.digits

/-- The marker that is written: without digits its number is zero. -/
def MarkerSpelling.marker (m : MarkerSpelling) : Marker :=
  ⟨usualLabel (Text.lower (String.ofList m.word)), numberOf m.digits⟩

/-- The word is one of the labels in any letter case. -/
structure MarkerSpelling.Valid (labels : List String) (m : MarkerSpelling) : Prop where
  lead : IsGap m.lead
  word : ∃ label ∈ labels, m.word.map baseLetter = label.toList
  gap : IsGap m.gap
  digits : ∀ c ∈ m.digits, c.isDigit = true

/-- A marker that ends in its word stands before no separator, which would be its own. -/
def MarkerSpelling.Closes (m : MarkerSpelling) (rest : List Char) : Prop :=
  m.gap = [] → m.digits = [] → ∀ c ∈ rest.head?, isVersionSeparator c = false

/-- A post-release: a dash and a number, or a marker. -/
inductive PostSpelling where
  | dash (digits : List Char)
  | marker (m : MarkerSpelling)

namespace PostSpelling

def chars : PostSpelling → List Char
  | dash digits => '-' :: digits
  | marker m => m.chars

def marks : PostSpelling → Marker
  | dash digits => ⟨"post", numberOf digits⟩
  | marker m => m.marker

def Valid : PostSpelling → Prop
  | dash digits => IsNumber digits
  | marker m => m.Valid postLabels

def Closes : PostSpelling → List Char → Prop
  | dash _, _ => True
  | marker m, rest => m.Closes rest

end PostSpelling

/-- The parts of a local label: the first, and each other behind its separator. -/
structure LabelSpelling where
  first : List Char
  others : List (Char × List Char)

namespace LabelSpelling

def partChars (l : LabelSpelling) : List Char := l.first ++ l.others.flatMap fun p => p.1 :: p.2

def chars (l : LabelSpelling) : List Char := '+' :: l.partChars

def parts (l : LabelSpelling) : List (List Char) := l.first :: l.others.map Prod.snd

structure Valid (l : LabelSpelling) : Prop where
  parts : ∀ part ∈ l.parts, part ≠ [] ∧ ∀ c ∈ part, isLabelChar c = true
  separators : ∀ p ∈ l.others, isVersionSeparator p.1 = true

end LabelSpelling

/-- A version as it is written. -/
structure VersionSpelling where
  front : List Char
  letter : List Char
  epoch : Option (List Char)
  first : List Char
  others : List (List Char)
  pre : Option MarkerSpelling
  post : Option PostSpelling
  dev : Option MarkerSpelling
  label : Option LabelSpelling
  back : List Char

namespace VersionSpelling

def numbers (s : VersionSpelling) : List Nat := (s.first :: s.others).map numberOf

/-- The characters behind the development release. -/
def behindDev (s : VersionSpelling) : List Char := s.label.elim [] LabelSpelling.chars ++ s.back

/-- The characters behind the post-release. -/
def behindPost (s : VersionSpelling) : List Char :=
  s.dev.elim [] MarkerSpelling.chars ++ s.behindDev

/-- The characters behind the pre-release. -/
def behindPre (s : VersionSpelling) : List Char := s.post.elim [] PostSpelling.chars ++ s.behindPost

/-- The characters behind the release. -/
def behindRelease (s : VersionSpelling) : List Char :=
  s.pre.elim [] MarkerSpelling.chars ++ s.behindPre

/-- The characters behind the epoch. -/
def behindEpoch (s : VersionSpelling) : List Char :=
  s.first ++ (s.others.flatMap ('.' :: ·) ++ s.behindRelease)

def chars (s : VersionSpelling) : List Char :=
  s.front ++ (s.letter ++ (s.epoch.elim [] (· ++ ['!']) ++ s.behindEpoch))

/-- The version that is written. -/
def version (s : VersionSpelling) : Version where
  epoch := s.epoch.elim 0 numberOf
  release := s.numbers
  pre := s.pre.map MarkerSpelling.marker
  post := s.post.map PostSpelling.marks
  dev := s.dev.map MarkerSpelling.marker
  label := s.label.map fun l => l.parts.map segmentOf

structure Valid (s : VersionSpelling) : Prop where
  front : ∀ c ∈ s.front, Text.isBlank c = true
  letter : s.letter = [] ∨ s.letter = ['v'] ∨ s.letter = ['V']
  epoch : ∀ digits ∈ s.epoch, IsNumber digits
  release : ∀ digits ∈ s.first :: s.others, IsNumber digits
  pre : ∀ m ∈ s.pre, m.Valid preLabels ∧ m.Closes s.behindPre
  post : ∀ p ∈ s.post, p.Valid ∧ p.Closes s.behindPost
  dev : ∀ m ∈ s.dev, m.Valid devLabels
  label : ∀ l ∈ s.label, l.Valid
  back : ∀ c ∈ s.back, Text.isBlank c = true

end VersionSpelling

/-! ## Characters -/

/-- Letter case does not touch what is neither a capital nor one of four letters outside ASCII. -/
theorem baseLetter_eq_self {c : Char} (hcapital : c.toNat < 0x41 ∨ 0x5a < c.toNat)
    (hother : c.toNat ∉ [0x130, 0x131, 0x17f, 0x212a]) : baseLetter c = c := by
  simp only [List.mem_cons, List.not_mem_nil, or_false, not_or] at hother
  obtain ⟨h1, h2, h3, h4⟩ := hother
  have hlower : c.toLower = c := by
    unfold Char.toLower
    rw [dif_neg]
    rintro ⟨hge, hle⟩
    have hge : 0x41 ≤ c.toNat := hge
    have hle : c.toNat ≤ 0x5a := hle
    omega
  unfold baseLetter
  simp only [h1, h2, h3, h4, or_self, if_false]
  exact hlower

theorem eq_of_separator {c : Char} (h : isVersionSeparator c = true) :
    c = '-' ∨ c = '_' ∨ c = '.' := by
  unfold isVersionSeparator at h
  simpa [or_assoc] using h

theorem baseLetter_of_separator {c : Char} (h : isVersionSeparator c = true) :
    baseLetter c = c := by
  rcases eq_of_separator h with rfl | rfl | rfl <;> rfl

theorem isDigit_of_separator {c : Char} (h : isVersionSeparator c = true) : c.isDigit = false := by
  rcases eq_of_separator h with rfl | rfl | rfl <;> rfl

theorem isLabelChar_of_separator {c : Char} (h : isVersionSeparator c = true) :
    isLabelChar c = false := by
  rcases eq_of_separator h with rfl | rfl | rfl <;> rfl

theorem baseLetter_of_isDigit {c : Char} (h : c.isDigit = true) : baseLetter c = c := by
  have hrange : 0x30 ≤ c.toNat ∧ c.toNat ≤ 0x39 := Char.isDigit_iff_toNat.mp h
  refine baseLetter_eq_self (by omega) ?_
  simp only [List.mem_cons, List.not_mem_nil, or_false, not_or]
  omega

/-- Blanks stand before or behind the visible characters of ASCII. -/
theorem toNat_of_isBlank {c : Char} (h : Text.isBlank c = true) :
    (c.toNat ≤ 0x20 ∨ 0x7f < c.toNat) ∧ c.toNat ∉ [0x130, 0x131, 0x17f, 0x212a] := by
  unfold Text.isBlank at h
  simp only [Bool.or_eq_true, Bool.and_eq_true, decide_eq_true_eq, beq_iff_eq] at h
  simp only [List.mem_cons, List.not_mem_nil, or_false, not_or]
  omega

theorem baseLetter_of_isBlank {c : Char} (h : Text.isBlank c = true) : baseLetter c = c := by
  obtain ⟨hascii, hother⟩ := toNat_of_isBlank h
  exact baseLetter_eq_self (by omega) hother

theorem isDigit_of_isBlank {c : Char} (h : Text.isBlank c = true) : c.isDigit = false := by
  refine Bool.eq_false_iff.mpr fun hdigit => ?_
  have hrange : 0x30 ≤ c.toNat ∧ c.toNat ≤ 0x39 := Char.isDigit_iff_toNat.mp hdigit
  have := (toNat_of_isBlank h).1
  omega

theorem isLabelChar_of_isBlank {c : Char} (h : Text.isBlank c = true) : isLabelChar c = false := by
  unfold isLabelChar
  simp only [baseLetter_of_isBlank h, isDigit_of_isBlank h, Bool.false_or]
  refine Bool.eq_false_iff.mpr fun hletter => ?_
  simp only [Bool.and_eq_true, decide_eq_true_eq] at hletter
  have := (toNat_of_isBlank h).1
  omega

theorem separator_of_isBlank {c : Char} (h : Text.isBlank c = true) :
    isVersionSeparator c = false := by
  refine Bool.eq_false_iff.mpr fun hc => ?_
  rcases eq_of_separator hc with rfl | rfl | rfl <;> cases h

/-! ## First characters -/

/-- The first character, if there is one, is none of these. -/
def Avoids (p : Char → Bool) (cs : List Char) : Prop := ∀ c ∈ cs.head?, p c = false

theorem avoids_nil (p : Char → Bool) : Avoids p [] := nofun

theorem avoids_cons {p : Char → Bool} {c : Char} {cs : List Char} :
    Avoids p (c :: cs) ↔ p c = false := by
  simp [Avoids]

theorem Avoids.append {p : Char → Bool} {cs rest : List Char} (h : Avoids p cs)
    (hrest : Avoids p rest) : Avoids p (cs ++ rest) := by
  cases cs with
  | nil => exact hrest
  | cons c cs => exact avoids_cons.mpr (avoids_cons.mp h)

theorem avoids_gap {p : Char → Bool} (hp : ∀ c, isVersionSeparator c = true → p c = false)
    {gap : List Char} (h : IsGap gap) : Avoids p gap := by
  rcases h with rfl | ⟨c, hc, rfl⟩
  · exact avoids_nil p
  · exact avoids_cons.mpr (hp c hc)

theorem avoids_digits {p : Char → Bool} (hp : ∀ c, c.isDigit = true → p c = false)
    {digits : List Char} (h : ∀ c ∈ digits, c.isDigit = true) : Avoids p digits :=
  fun c hc => hp c (h c (List.mem_of_mem_head? hc))

theorem avoids_blanks {p : Char → Bool} (hp : ∀ c, Text.isBlank c = true → p c = false)
    {cs : List Char} (h : ∀ c ∈ cs, Text.isBlank c = true) : Avoids p cs :=
  fun c hc => hp c (h c (List.mem_of_mem_head? hc))

/-! ## Labels -/

/-- The labels of all markers. -/
def markerLabels : List String := preLabels ++ postLabels ++ devLabels

/-- The letters that would make another label of one that they stand behind. -/
def prolongs (c : Char) : Bool := ['l', 'e', 'v', 'c'].contains (baseLetter c)

theorem prolongs_of_separator {c : Char} (h : isVersionSeparator c = true) :
    prolongs c = false := by
  rcases eq_of_separator h with rfl | rfl | rfl <;> rfl

theorem prolongs_of_isDigit {c : Char} (h : c.isDigit = true) : prolongs c = false := by
  unfold prolongs
  rw [baseLetter_of_isDigit h, Bool.eq_false_iff, ne_eq, List.contains_iff_mem]
  intro hmem
  simp only [List.mem_cons, List.not_mem_nil, or_false] at hmem
  rcases hmem with rfl | rfl | rfl | rfl <;> cases h

/-- Where a label begins another one, a letter that prolongs stands behind it. -/
theorem prolongs_of_prefix : ∀ label ∈ markerLabels, ∀ longer ∈ markerLabels,
    label.toList <+: longer.toList → label = longer ∨
      (['l', 'e', 'v', 'c'].any fun c => (label.toList ++ [c]).isPrefixOf longer.toList) := by
  decide +kernel

/-- Which labels a word begins with does not depend on what stands behind it. -/
theorem isPrefixOf_word {word rest : List Char} {label : String} (hlabel : label ∈ markerLabels)
    (hword : word.map baseLetter = label.toList) (hrest : Avoids prolongs rest) {other : String}
    (hother : other ∈ markerLabels) :
    other.toList.isPrefixOf ((word ++ rest).map baseLetter) =
      other.toList.isPrefixOf label.toList := by
  rw [Bool.eq_iff_iff, List.isPrefixOf_iff_prefix, List.isPrefixOf_iff_prefix, List.map_append,
    hword]
  refine ⟨fun h => ?_, fun h => h.trans (List.prefix_append _ _)⟩
  rcases Nat.le_total other.toList.length label.toList.length with hle | hle
  · exact List.prefix_of_prefix_length_le h (List.prefix_append _ _) hle
  have hlonger := List.prefix_of_prefix_length_le (List.prefix_append _ _) h hle
  rcases prolongs_of_prefix label hlabel other hother hlonger with rfl | hprolonged
  · exact List.prefix_rfl
  · -- the letter that prolongs the label would have to begin the rest
    obtain ⟨c, hc, hbegins⟩ := List.any_eq_true.mp hprolonged
    obtain ⟨tail, htail⟩ := (List.prefix_append_right_inj _).mp
      ((List.isPrefixOf_iff_prefix.mp hbegins).trans h)
    cases rest with
    | nil => cases htail
    | cons d rest =>
      have hd := avoids_cons.mp hrest
      rw [List.map_cons, List.singleton_append, List.cons.injEq] at htail
      unfold prolongs at hd
      rw [← htail.1, Bool.eq_false_iff, ne_eq, List.contains_iff_mem] at hd
      exact absurd hc hd

theorem takeLabel?_word {word rest : List Char} {label : String} {labels : List String}
    (hlabels : labels ⊆ markerLabels) (hlabel : label ∈ markerLabels)
    (hword : word.map baseLetter = label.toList) (hrest : Avoids prolongs rest) :
    takeLabel? labels (word ++ rest) =
      (labels.find? fun other => other.toList.isPrefixOf label.toList).map fun found =>
        ((word ++ rest).take found.length, (word ++ rest).drop found.length) := by
  unfold takeLabel?
  congr 1
  refine List.find?_congr fun other hother => ?_
  exact isPrefixOf_word hlabel hword hrest (hlabels hother)

/-! ## Markers -/

theorem takeDigits_append {digits rest : List Char} (h : ∀ c ∈ digits, c.isDigit = true)
    (hrest : Avoids Char.isDigit rest) : takeDigits (digits ++ rest) = (digits, rest) := by
  obtain ⟨htake, hdrop⟩ := takeWhile_dropWhile_append h hrest
  unfold takeDigits
  rw [htake, hdrop]

/-- Of two gaps at most one is dropped, so behind a gap no separator may stand. -/
theorem dropSeparator_append {gap rest : List Char} (h : IsGap gap)
    (hrest : gap = [] → Avoids isVersionSeparator rest) : dropSeparator (gap ++ rest) = rest := by
  rcases h with rfl | ⟨c, hc, rfl⟩
  · rw [List.nil_append]
    cases rest with
    | nil => rfl
    | cons c rest => rw [dropSeparator, if_neg (by rw [avoids_cons.mp (hrest rfl)]; decide)]
  · rw [List.singleton_append, dropSeparator, if_pos hc]

/-- The letters that a label can begin with. -/
def firstLetters : List Char := ['a', 'b', 'p', 'c', 'r', 'd']

theorem head?_label : ∀ label ∈ markerLabels, label.toList.head? ∈ firstLetters.map some := by
  decide +kernel

/-- A test that fails for each of these characters fails for one that is among them. -/
theorem eq_false_of_mem {p : Char → Bool} {cs : List Char} (h : cs.all (! p ·) = true) {c : Char}
    (hc : c ∈ cs) : p c = false := by
  simpa using List.all_eq_true.mp h c hc

/-- A digit or a separator is no letter. -/
theorem isDigit_of_firstLetter {c : Char} (h : baseLetter c ∈ firstLetters) :
    c.isDigit = false := by
  refine Bool.eq_false_iff.mpr fun hc => ?_
  rw [baseLetter_of_isDigit hc] at h
  revert hc
  exact Bool.eq_false_iff.mp (eq_false_of_mem (by decide) h)

theorem separator_of_firstLetter {c : Char} (h : baseLetter c ∈ firstLetters) :
    isVersionSeparator c = false := by
  refine Bool.eq_false_iff.mpr fun hc => ?_
  rw [baseLetter_of_separator hc] at h
  revert hc
  exact Bool.eq_false_iff.mp (eq_false_of_mem (by decide) h)

/-- A word begins with a letter that its label can begin with. -/
theorem avoids_word {p : Char → Bool} {letters : List Char}
    (hp : ∀ c, baseLetter c ∈ letters → p c = false) {word rest : List Char} {label : String}
    (hhead : label.toList.head? ∈ letters.map some)
    (hword : word.map baseLetter = label.toList) : Avoids p (word ++ rest) := by
  obtain ⟨letter, hletter, hhead⟩ := List.mem_map.mp hhead
  rw [← hword, List.head?_map, eq_comm, Option.map_eq_some_iff] at hhead
  obtain ⟨c, hc, rfl⟩ := hhead
  obtain ⟨word, rfl⟩ := List.head?_eq_some_iff.mp hc
  exact avoids_cons.mpr (hp c hletter)

/-- The first label that a label of the same list begins with is the label itself. -/
theorem find?_label : ∀ labels ∈ [preLabels, postLabels, devLabels], labels ⊆ markerLabels ∧
    ∀ label ∈ labels,
      labels.find? (fun other => other.toList.isPrefixOf label.toList) = some label := by
  decide +kernel

section

variable {m : MarkerSpelling} {labels : List String} {rest : List Char}

theorem MarkerSpelling.chars_append (m : MarkerSpelling) (rest : List Char) :
    m.chars ++ rest = m.lead ++ (m.word ++ (m.gap ++ (m.digits ++ rest))) := by
  simp [chars]

theorem MarkerSpelling.Valid.avoids_tail (hm : m.Valid labels) (hrest : Avoids prolongs rest) :
    Avoids prolongs (m.gap ++ (m.digits ++ rest)) :=
  (avoids_gap (fun _ => prolongs_of_separator) hm.gap).append
    ((avoids_digits (fun _ => prolongs_of_isDigit) hm.digits).append hrest)

/-- The separator before a word is dropped, and no more. -/
theorem MarkerSpelling.Valid.dropSeparator_chars (hlabels : labels ⊆ markerLabels)
    (hm : m.Valid labels) (rest : List Char) :
    dropSeparator (m.chars ++ rest) = m.word ++ (m.gap ++ (m.digits ++ rest)) := by
  obtain ⟨label, hlabel, hword⟩ := hm.word
  rw [m.chars_append]
  refine dropSeparator_append hm.lead fun _ => ?_
  exact avoids_word (fun _ => separator_of_firstLetter) (head?_label label (hlabels hlabel)) hword

/-- A marker that is written is read. -/
theorem takeMarker?_chars (hlabels : labels ∈ [preLabels, postLabels, devLabels])
    (hm : m.Valid labels) (hdigit : Avoids Char.isDigit rest) (hprolongs : Avoids prolongs rest)
    (hcloses : m.Closes rest) :
    takeMarker? labels (m.chars ++ rest) = some (m.marker, rest) := by
  obtain ⟨hsubset, hfind⟩ := find?_label labels hlabels
  obtain ⟨label, hlabel, hword⟩ := hm.word
  have hlength : label.length = m.word.length := by
    rw [← String.length_toList, ← hword, List.length_map]
  have hgap : dropSeparator (m.gap ++ (m.digits ++ rest)) = m.digits ++ rest := by
    refine dropSeparator_append hm.gap fun hgap => ?_
    cases hdigits : m.digits with
    | nil => exact fun c hc => hcloses hgap hdigits c hc
    | cons d digits =>
      have hd := hm.digits d (by rw [hdigits]; exact List.mem_cons_self)
      refine avoids_cons.mpr (Bool.eq_false_iff.mpr fun hseparator => ?_)
      rw [isDigit_of_separator hseparator] at hd
      cases hd
  unfold takeMarker?
  rw [hm.dropSeparator_chars hsubset, takeLabel?_word hsubset (hsubset hlabel) hword
    (hm.avoids_tail hprolongs), hfind label hlabel]
  simp only [Option.map_some, hlength, List.take_left, List.drop_left, hgap,
    takeDigits_append hm.digits hdigit]
  rfl

/-- A marker is not taken for one of another sort. -/
theorem takeMarker?_other {others : List String} (hlabels : labels ⊆ markerLabels)
    (hothers : others ⊆ markerLabels)
    (hfind : ∀ label ∈ labels,
      others.find? (fun other => other.toList.isPrefixOf label.toList) = none)
    (hm : m.Valid labels) (hprolongs : Avoids prolongs rest) :
    takeMarker? others (m.chars ++ rest) = none := by
  obtain ⟨label, hlabel, hword⟩ := hm.word
  unfold takeMarker?
  rw [hm.dropSeparator_chars hlabels, takeLabel?_word hothers (hlabels hlabel) hword
    (hm.avoids_tail hprolongs), hfind label hlabel]
  rfl

end

/-- The character is a letter that a label can begin with. -/
def begins (c : Char) : Bool := firstLetters.contains (baseLetter c)

/-- Where no letter stands that a label can begin with, there is no marker. -/
theorem takeMarker?_none {labels : List String} (hlabels : labels ⊆ markerLabels) {cs : List Char}
    (h : Avoids begins (dropSeparator cs)) : takeMarker? labels cs = none := by
  unfold takeMarker? takeLabel?
  rw [Option.map_eq_none_iff, Option.map_eq_none_iff, List.find?_eq_none]
  intro label hlabel hfront
  obtain ⟨letter, hletter, hhead⟩ := List.mem_map.mp (head?_label label (hlabels hlabel))
  rw [List.isPrefixOf_iff_prefix] at hfront
  obtain ⟨tail, htail⟩ := hfront
  have hfirst : ((dropSeparator cs).map baseLetter).head? = some letter := by
    rw [← htail, List.head?_append, ← hhead]
    rfl
  rw [List.head?_map, Option.map_eq_some_iff] at hfirst
  obtain ⟨c, hc, rfl⟩ := hfirst
  have hbegins := h c hc
  unfold begins at hbegins
  rw [Bool.eq_false_iff, ne_eq, List.contains_iff_mem] at hbegins
  exact hbegins hletter

/-! ## What stands behind a part -/

/-- The test fails for all that can stand behind a number or a word, if the parts to come begin with
these letters. -/
structure Harmless (letters : List Char) (p : Char → Bool) : Prop where
  separator : ∀ c, isVersionSeparator c = true → p c = false
  blank : ∀ c, Text.isBlank c = true → p c = false
  plus : p '+' = false
  letter : ∀ c, baseLetter c ∈ letters → p c = false

theorem harmless_isDigit : Harmless firstLetters Char.isDigit where
  separator _ := isDigit_of_separator
  blank _ := isDigit_of_isBlank
  plus := rfl
  letter _ := isDigit_of_firstLetter

theorem harmless_prolongs : Harmless ['p', 'r', 'd'] prolongs where
  separator _ := prolongs_of_separator
  blank c hc := by
    refine Bool.eq_false_iff.mpr fun h => ?_
    unfold prolongs at h
    rw [baseLetter_of_isBlank hc, List.contains_iff_mem] at h
    revert hc
    exact Bool.eq_false_iff.mp (eq_false_of_mem (by decide) h)
  plus := rfl
  letter c hc := by
    unfold prolongs
    exact eq_false_of_mem (p := fun b => ['l', 'e', 'v', 'c'].contains b) (by decide) hc

theorem harmless_begins : Harmless [] begins where
  separator c hc := by
    refine Bool.eq_false_iff.mpr fun h => ?_
    rw [begins, List.contains_iff_mem] at h
    rw [separator_of_firstLetter h] at hc
    cases hc
  blank c hc := by
    refine Bool.eq_false_iff.mpr fun h => ?_
    rw [begins, baseLetter_of_isBlank hc, List.contains_iff_mem] at h
    revert hc
    exact Bool.eq_false_iff.mp (eq_false_of_mem (by decide) h)
  plus := rfl
  letter := nofun

theorem begins_of_isDigit {c : Char} (h : c.isDigit = true) : begins c = false := by
  refine Bool.eq_false_iff.mpr fun hbegins => ?_
  rw [begins, List.contains_iff_mem] at hbegins
  rw [isDigit_of_firstLetter hbegins] at h
  cases h

theorem harmless_bang : Harmless firstLetters (· == '!') where
  separator c hc := by
    refine Bool.eq_false_iff.mpr fun h => ?_
    rw [eq_of_beq h] at hc
    cases hc
  blank c hc := by
    refine Bool.eq_false_iff.mpr fun h => ?_
    rw [eq_of_beq h] at hc
    cases hc
  plus := rfl
  letter c hc := by
    refine Bool.eq_false_iff.mpr fun h => ?_
    rw [eq_of_beq h] at hc
    exact absurd hc (by decide)

/-- A marker begins with a separator or a letter. -/
theorem MarkerSpelling.Valid.avoids {m : MarkerSpelling} {labels : List String}
    {letters : List Char} {p : Char → Bool} (hm : m.Valid labels) (hp : Harmless letters p)
    (hhead : ∀ label ∈ labels, label.toList.head? ∈ letters.map some) (rest : List Char) :
    Avoids p (m.chars ++ rest) := by
  obtain ⟨label, hlabel, hword⟩ := hm.word
  rw [m.chars_append]
  exact (avoids_gap hp.separator hm.lead).append (avoids_word hp.letter (hhead label hlabel) hword)

namespace VersionSpelling

variable {s : VersionSpelling} {p : Char → Bool}

theorem Valid.avoids_behindDev (hs : s.Valid)
    (hblank : ∀ c, Text.isBlank c = true → p c = false) (hplus : p '+' = false) :
    Avoids p s.behindDev := by
  have hback := avoids_blanks hblank hs.back
  unfold behindDev
  cases s.label with
  | none => exact hback
  | some l => exact avoids_cons.mpr hplus

theorem Valid.avoids_behindPost (hs : s.Valid) {letters : List Char} (hp : Harmless letters p)
    (hhead : ∀ label ∈ devLabels, label.toList.head? ∈ letters.map some) :
    Avoids p s.behindPost := by
  have hbehind := hs.avoids_behindDev hp.blank hp.plus
  have hdev := hs.dev
  unfold behindPost
  cases h : s.dev with
  | none => exact hbehind
  | some m => exact (hdev m h).avoids hp hhead _

theorem Valid.avoids_behindPre (hs : s.Valid) {letters : List Char} (hp : Harmless letters p)
    (hhead : ∀ label ∈ postLabels ++ devLabels, label.toList.head? ∈ letters.map some) :
    Avoids p s.behindPre := by
  obtain ⟨hpostHead, hdevHead⟩ := List.forall_mem_append.mp hhead
  have hbehind := hs.avoids_behindPost hp hdevHead
  have hpost := hs.post
  unfold behindPre
  cases h : s.post with
  | none => exact hbehind
  | some post =>
    cases post with
    | dash digits => exact avoids_cons.mpr (hp.separator '-' rfl)
    | marker m => exact (hpost _ h).1.avoids hp hpostHead _

theorem Valid.avoids_behindRelease (hs : s.Valid) {letters : List Char} (hp : Harmless letters p)
    (hhead : ∀ label ∈ markerLabels, label.toList.head? ∈ letters.map some) :
    Avoids p s.behindRelease := by
  have hhead' : ∀ label ∈ preLabels ++ (postLabels ++ devLabels),
      label.toList.head? ∈ letters.map some := hhead
  obtain ⟨hpreHead, hpostHead⟩ := List.forall_mem_append.mp hhead'
  have hbehind := hs.avoids_behindPre hp hpostHead
  have hpre := hs.pre
  unfold behindRelease
  cases h : s.pre with
  | none => exact hbehind
  | some m => exact (hpre m h).1.avoids hp hpreHead _

end VersionSpelling

/-- Behind the gap before a marker a word begins, and no number. -/
theorem MarkerSpelling.Valid.avoids_dropSeparator {m : MarkerSpelling} {labels : List String}
    (hlabels : labels ⊆ markerLabels) (hm : m.Valid labels) (rest : List Char) :
    Avoids Char.isDigit (dropSeparator (m.chars ++ rest)) := by
  obtain ⟨label, hlabel, hword⟩ := hm.word
  rw [hm.dropSeparator_chars hlabels]
  exact avoids_word (fun _ => isDigit_of_firstLetter) (head?_label label (hlabels hlabel)) hword

end BuildCommands.Package
