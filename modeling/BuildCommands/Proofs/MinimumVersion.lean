import BuildCommands.Proofs.FileWriting
import BuildCommands.Proofs.PackageReport
import BuildCommands.Proofs.VersionNumerals
import Mathlib.Data.Option.Basic

/-!
# Minimum versions

Versions are ordered: the check of an installed version against a minimum is reflexive, total and
transitive.  It does not depend on how versions are spelled.  The check that fails on a package that
is not good enough does so exactly where the other check says so.  Of the library that reads and
compares versions this needs two things (`VersionLibrary.Conforms`): it reads exactly the texts that
PEP 440 has for versions, but for numbers with too many digits for the system, and compares what it
reads in the order that PEP 440 defines.  A version with a number that is too long ends the check
(`overlong_version_not_judged`).

    Meets a a
    Meets a b ∨ Meets b a
    Meets b a → Meets a m → Meets b m
    Respelled a a' → Respelled m m' → (Meets a m ↔ Meets a' m')         (status_coherent)
-/

namespace BuildCommands.Package

/-! ## Definitions -/

namespace PostSpelling

/-- The word of a post-release; a dash stands for the usual one. -/
def word : PostSpelling → List Char
  | dash _ => ['p', 'o', 's', 't']
  | marker m => m.word

end PostSpelling

/-- The text spells the version. -/
def Spells (text : String) (v : Version) : Prop :=
  ∃ s : VersionSpelling, s.Valid ∧ s.chars = text.toList ∧ s.version = v

/-- The library reads the versions with numbers up to the limit, and compares what it reads by the
order of versions. -/
structure VersionLibrary.Conforms (library : VersionLibrary) (limit? : Option Nat) : Prop where
  reads : ∀ text, library.fault? text = none ↔ IsVersion limit? text
  compares : ∀ {text text' : String} {v v' : Version}, Spells text v → Spells text' v' →
    library.fault? text = none → library.fault? text' = none →
    library.atLeast text text' = v.meets v'

/-- The check finds the installed version good enough, whatever else is installed beside the
library. -/
def Meets (library : VersionLibrary) (version minimum : String) : Prop :=
  ∀ (installed : Installed) (package : String), installed.library = library →
    installed.version? package = some version →
    status installed package (some minimum) = .ok (.installed version true)

/-- The failure says that a package is missing or too old. -/
def Failure.complains : Failure → Bool
  | .notInstalled .. => true
  | .tooOld .. => true
  | .noRequirement _ => false
  | .unreadVersion .. => false

/-- Words that stand for one label. -/
def synonyms : List (List String) :=
  [["a", "alpha"], ["b", "beta"], ["rc", "c", "pre", "preview"], ["post", "rev", "r"]]

/-- The words are the same in lower case, or stand for one label. -/
def SameWord (word word' : List Char) : Prop :=
  Text.lower (String.ofList word) = Text.lower (String.ofList word') ∨
    ∃ words ∈ synonyms, Text.lower (String.ofList word) ∈ words ∧
      Text.lower (String.ofList word') ∈ words

/-- The markers have the same word and number, behind whatever separators. -/
def SameMarker (m m' : MarkerSpelling) : Prop :=
  SameWord m.word m'.word ∧ numberOf m.digits = numberOf m'.digits

def SamePost (p p' : PostSpelling) : Prop :=
  SameWord p.word p'.word ∧ numberOf p.digits = numberOf p'.digits

/-- The parts of local labels are the same number, or the same word in lower case. -/
def SamePart (part part' : List Char) : Prop :=
  if part.all Char.isDigit = true then
    part'.all Char.isDigit = true ∧ numberOf part = numberOf part'
  else
    part'.all Char.isDigit = false ∧
      Text.lower (String.ofList part) = Text.lower (String.ofList part')

/-- The labels have the same parts, behind whatever separators. -/
def SameLabel (l l' : LabelSpelling) : Prop := List.Forall₂ SamePart l.parts l'.parts

/-- The spellings differ in white space, the letter in front, letter case, separators, the words of
markers, zeros before a number or in place of none, and zeros at the end of the release. -/
structure VersionSpelling.Same (s s' : VersionSpelling) : Prop where
  epoch : s.epoch.elim 0 numberOf = s'.epoch.elim 0 numberOf
  release : ∃ m n, s.numbers ++ List.replicate m 0 = s'.numbers ++ List.replicate n 0
  pre : Option.Rel SameMarker s.pre s'.pre
  post : Option.Rel SamePost s.post s'.post
  dev : Option.Rel SameMarker s.dev s'.dev
  label : Option.Rel SameLabel s.label s'.label

/-- The texts are spellings of the same version. -/
def Respelled (text text' : String) : Prop :=
  ∃ s s' : VersionSpelling, s.Valid ∧ s'.Valid ∧ s.chars = text.toList ∧ s'.chars = text'.toList ∧
    s.Same s'

/-! ## Order -/

instance : Std.TransOrd Rank :=
  inferInstanceAs (Std.TransCmp (compareLex (compareOn Rank.side)
    (compareLex (compareOn Rank.label) (compareOn Rank.number))))

instance : Std.TransOrd Version :=
  inferInstanceAs (Std.TransCmp (compareLex (compareOn Version.epoch)
    (compareLex (compareOn Version.significantRelease) (compareLex (compareOn Version.preRank)
      (compareLex (compareOn Version.postRank) (compareLex (compareOn Version.devRank)
        (compareOn Version.labelRank)))))))

theorem Version.meets_refl (v : Version) : v.meets v = true := by
  have hself : compare v v = .eq := Std.ReflCmp.compare_self
  unfold Version.meets
  rw [hself]
  rfl

theorem Version.meets_total (v w : Version) : v.meets w = true ∨ w.meets v = true := by
  have hswap : compare w v = (compare v w).swap := Std.OrientedCmp.eq_swap
  unfold Version.meets
  rw [hswap]
  cases compare v w <;> decide

theorem Version.meets_trans {u v w : Version} (huv : u.meets v = true) (hvw : v.meets w = true) :
    u.meets w = true :=
  Std.TransCmp.isGE_trans huv hvw

/-- The versions have the same parts, but for zeros at the end of the release. -/
structure Version.Equivalent (v v' : Version) : Prop where
  epoch : v.epoch = v'.epoch
  release : v.significantRelease = v'.significantRelease
  pre : v.pre = v'.pre
  post : v.post = v'.post
  dev : v.dev = v'.dev
  label : v.label = v'.label

theorem Version.Equivalent.ranks {v v' : Version} (h : v.Equivalent v') :
    v.preRank = v'.preRank ∧ v.postRank = v'.postRank ∧ v.devRank = v'.devRank ∧
      v.labelRank = v'.labelRank := by
  unfold Version.preRank Version.postRank Version.devRank Version.labelRank
  rw [h.pre, h.post, h.dev, h.label]
  exact ⟨rfl, rfl, rfl, rfl⟩

theorem Version.Equivalent.meets_eq {v v' w w' : Version} (hv : v.Equivalent v')
    (hw : w.Equivalent w') : v.meets w = v'.meets w' := by
  have hcompare : compare v w = compare v' w' := by
    simp only [compare, compareLex, compareOn, hv.epoch, hw.epoch, hv.release, hw.release, hv.ranks,
      hw.ranks]
  unfold Version.meets
  rw [hcompare]

/-! ## Spellings of one version -/

/-- The words of one label have one usual spelling. -/
theorem usualLabel_of_mem_synonyms : ∀ words ∈ synonyms, ∀ word ∈ words, ∀ word' ∈ words,
    usualLabel word = usualLabel word' := by
  decide

theorem SameWord.usualLabel_eq {word word' : List Char} (h : SameWord word word') :
    usualLabel (Text.lower (String.ofList word)) =
      usualLabel (Text.lower (String.ofList word')) := by
  rcases h with h | ⟨words, hwords, hword, hword'⟩
  · rw [h]
  · exact usualLabel_of_mem_synonyms words hwords _ hword _ hword'

theorem SameMarker.marker_eq {m m' : MarkerSpelling} (h : SameMarker m m') :
    m.marker = m'.marker := by
  unfold MarkerSpelling.marker
  rw [h.1.usualLabel_eq, h.2]

/-- A post-release has the word and the number that it is written with. -/
theorem PostSpelling.marks_eq (p : PostSpelling) :
    p.marks = ⟨usualLabel (Text.lower (String.ofList p.word)), numberOf p.digits⟩ := by
  cases p with
  | dash digits =>
    have hpost : usualLabel (Text.lower (String.ofList ['p', 'o', 's', 't'])) = "post" := by
      decide +kernel
    show Marker.mk "post" (numberOf digits) = _
    rw [← hpost]
    rfl
  | marker m => rfl

theorem SamePost.marks_eq {p p' : PostSpelling} (h : SamePost p p') : p.marks = p'.marks := by
  rw [p.marks_eq, p'.marks_eq, h.1.usualLabel_eq, h.2]

theorem SamePart.segmentOf_eq {part part' : List Char} (h : SamePart part part') :
    segmentOf part = segmentOf part' := by
  unfold SamePart at h
  unfold segmentOf
  split at h
  · next hdigits => rw [if_pos hdigits, if_pos h.1, h.2]
  · next hword => rw [if_neg hword, if_neg (by rw [h.1]; decide), h.2]

theorem map_segmentOf_eq {parts parts' : List (List Char)}
    (h : List.Forall₂ SamePart parts parts') : parts.map segmentOf = parts'.map segmentOf := by
  induction h with
  | nil => rfl
  | cons hpart _ ih => rw [List.map_cons, List.map_cons, hpart.segmentOf_eq, ih]

theorem SameLabel.segments_eq {l l' : LabelSpelling} (h : SameLabel l l') :
    l.parts.map segmentOf = l'.parts.map segmentOf :=
  map_segmentOf_eq h

/-- Parts that are optional are written or not alike. -/
theorem map_eq_of_rel {α β : Type} {R : α → α → Prop} {o o' : Option α} (h : Option.Rel R o o')
    {f : α → β} (hf : ∀ a a', R a a' → f a = f a') : o.map f = o'.map f := by
  cases h with
  | some h => exact congrArg some (hf _ _ h)
  | none => rfl

/-- Zeros at the end of a release do not count. -/
theorem significantRelease_of_zeros {v v' : Version} {m n : Nat}
    (h : v.release ++ List.replicate m 0 = v'.release ++ List.replicate n 0) :
    v.significantRelease = v'.significantRelease := by
  have hzeros : ∀ (numbers : List Nat) k,
      (numbers ++ List.replicate k 0).reverse.dropWhile (· == 0) =
        numbers.reverse.dropWhile (· == 0) := by
    intro numbers k
    rw [List.reverse_append, List.reverse_replicate,
      List.dropWhile_append_of_pos fun n hn => beq_iff_eq.mpr (List.eq_of_mem_replicate hn)]
  unfold Version.significantRelease
  rw [← hzeros v.release m, ← hzeros v'.release n, h]

theorem VersionSpelling.Same.equivalent {s s' : VersionSpelling} (h : s.Same s') :
    s.version.Equivalent s'.version := by
  obtain ⟨m, n, hnumbers⟩ := h.release
  have hrelease : s.version.release ++ List.replicate m 0 =
      s'.version.release ++ List.replicate n 0 := hnumbers
  have hpre := map_eq_of_rel h.pre fun _ _ => SameMarker.marker_eq
  have hpost := map_eq_of_rel h.post fun _ _ => SamePost.marks_eq
  have hdev := map_eq_of_rel h.dev fun _ _ => SameMarker.marker_eq
  have hlabel := map_eq_of_rel h.label fun _ _ => SameLabel.segments_eq
  exact ⟨h.epoch, significantRelease_of_zeros hrelease, hpre, hpost, hdev, hlabel⟩

/-! ## Texts -/

theorem isNumber_iff {cs : List Char} : IsNumber cs ↔ cs ≠ [] ∧ cs.all Char.isDigit = true := by
  rw [List.all_eq_true]
  rfl

section

variable {library : VersionLibrary} {limit? : Option Nat} {a a' m : String}

theorem parse?_eq_some_iff {text : String} {v : Version} :
    Version.parse? text = some v ↔ Spells text v :=
  ofChars?_eq_some_iff

/-- The library of this reader and this order conforms on a system that reads up to 4300 digits. -/
theorem conforms_pep440 : VersionLibrary.pep440.Conforms (some Text.maxDigits) where
  reads _ := versionFault?_eq_none_iff
  compares := by
    intro text text' v v' hv hv' _ _
    simp [VersionLibrary.pep440, parse?_eq_some_iff.mpr hv, parse?_eq_some_iff.mpr hv']

theorem IsVersion.exists_spells (h : IsVersion limit? a) : ∃ v, Spells a v := by
  obtain ⟨s, hs, hchars, -⟩ := h
  exact ⟨s.version, s, hs, hchars, rfl⟩

/-- Texts that spell one version are texts of versions that count the same. -/
theorem Respelled.exists_equivalent (h : Respelled a a') :
    ∃ v v', Spells a v ∧ Spells a' v' ∧ v.Equivalent v' := by
  obtain ⟨s, s', hs, hs', hchars, hchars', hsame⟩ := h
  exact ⟨s.version, s'.version, ⟨s, hs, hchars, rfl⟩, ⟨s', hs', hchars', rfl⟩, hsame.equivalent⟩

/-- With a minimum that is given, the check judges the package by it. -/
theorem status_some (installed : Installed) (package minimum : String) :
    status installed package (some minimum) = judge installed package minimum := rfl

/-- Whatever else is installed, versions are compared. -/
theorem status_of_versions (hlibrary : library.Conforms limit?) (ha : IsVersion limit? a)
    (hm : IsVersion limit? m) {v w : Version} (hv : Spells a v) (hw : Spells m w)
    {installed : Installed} {package : String} (hinstalled : installed.library = library)
    (h : installed.version? package = some a) :
    status installed package (some m) = .ok (.installed a (v.meets w)) := by
  have hread := (hlibrary.reads a).mpr ha
  have hread' := (hlibrary.reads m).mpr hm
  subst hinstalled
  rw [status_some, ← hlibrary.compares hv hw hread hread']
  exact judge_eq_ok_iff.mpr (.installed h hread hread')

/-- The check comes to a verdict on an installed version exactly if both texts are read. -/
theorem exists_status_iff (hlibrary : library.Conforms limit?) {installed : Installed}
    {package text minimum : String} (hinstalled : installed.library = library)
    (h : installed.version? package = some text) :
    (∃ s, status installed package (some minimum) = .ok s) ↔
      IsVersion limit? text ∧ IsVersion limit? minimum := by
  subst hinstalled
  rw [← hlibrary.reads, ← hlibrary.reads, status_some]
  simp only [judge_eq_ok_iff]
  constructor
  · rintro ⟨s, hstands⟩
    cases hstands with
    | missing hnone =>
      rw [h] at hnone
      cases hnone
    | installed hsome hread hread' =>
      rw [h] at hsome
      cases hsome
      exact ⟨hread, hread'⟩
  · rintro ⟨hread, hread'⟩
    exact ⟨_, .installed h hread hread'⟩

theorem meets_iff (hlibrary : library.Conforms limit?) (ha : IsVersion limit? a)
    (hm : IsVersion limit? m) {v w : Version} (hv : Spells a v) (hw : Spells m w) :
    Meets library a m ↔ v.meets w = true := by
  constructor
  · intro h
    have hversion : Installed.version? ⟨[("", a)], library⟩ "" = some a := rfl
    have hstatus := h _ _ rfl hversion
    rw [status_of_versions hlibrary ha hm hv hw rfl hversion] at hstatus
    exact (Status.installed.inj (Except.ok.inj hstatus)).2
  · intro h installed package hinstalled hversion
    rw [status_of_versions hlibrary ha hm hv hw hinstalled hversion, h]

end

/-- A version that is one number with too many digits is not judged, whatever the minimum. -/
theorem status_of_long {digits : List Char} (h : IsNumber digits)
    (hlong : Text.maxDigits < digits.length) (package minimum : String) :
    status ⟨[(package, String.ofList digits)], .pep440⟩ package (some minimum) =
      .error (.unreadVersion (String.ofList digits) (.overlong digits.length)) :=
  judge_of_unreadable ⟨by simp [Installed.version?], versionFault?_of_long h hlong⟩

/-! ## Complaints -/

section

variable {installed : Installed} {package : String} {minimum? : Option String} {s : Status}
  {failure : Failure}

theorem complains_of_minimumFor (h : minimumFor package minimum? = .error failure) :
    failure.complains = false := by
  unfold minimumFor at h
  split at h
  · cases h
  · split at h
    · cases h
    · cases h
      rfl

theorem complains_of_judge {minimum : String}
    (h : judge installed package minimum = .error failure) :
    failure.complains = false := by
  have hread : ∀ {text}, installed.library.read text = .error failure →
      failure.complains = false := by
    intro text h
    unfold VersionLibrary.read at h
    split at h
    · cases h
    · cases h
      rfl
  unfold judge at h
  split at h
  · cases h
  · rcases bind_eq_error_iff.mp h with h | ⟨version, -, h⟩
    · exact hread h
    · rcases bind_eq_error_iff.mp h with h | ⟨least, -, h⟩
      · exact hread h
      · cases h

/-- Where the one check cannot tell, the other fails alike, and does not complain. -/
theorem verify_of_error (h : status installed package minimum? = .error failure) :
    verify installed package minimum? = .error failure ∧ failure.complains = false := by
  unfold verify
  rcases bind_eq_error_iff.mp h with h | ⟨minimum, hminimum, h⟩
  · rw [h]
    exact ⟨rfl, complains_of_minimumFor h⟩
  · refine ⟨bind_eq_error_iff.mpr (Or.inr ⟨minimum, hminimum, ?_⟩), complains_of_judge h⟩
    exact bind_eq_error_iff.mpr (Or.inl h)

theorem verify_of_good (h : status installed package minimum? = .ok s) (hgood : s.isGood = true) :
    verify installed package minimum? = .ok s := by
  obtain ⟨minimum, hminimum, h⟩ := bind_eq_ok_iff.mp h
  unfold verify
  refine bind_eq_ok_iff.mpr ⟨minimum, hminimum, bind_eq_ok_iff.mpr ⟨s, h, ?_⟩⟩
  cases s with
  | missing => cases hgood
  | installed version sufficient =>
    cases show sufficient = true from hgood
    rfl

theorem verify_of_not_good (h : status installed package minimum? = .ok s)
    (hgood : s.isGood = false) :
    ∃ failure, verify installed package minimum? = .error failure ∧ failure.complains = true := by
  obtain ⟨minimum, hminimum, h⟩ := bind_eq_ok_iff.mp h
  unfold verify
  cases s with
  | missing =>
    refine ⟨.notInstalled package minimum, ?_, rfl⟩
    refine bind_eq_error_iff.mpr (Or.inr ⟨minimum, hminimum, ?_⟩)
    exact bind_eq_error_iff.mpr (Or.inr ⟨.missing, h, rfl⟩)
  | installed version sufficient =>
    cases show sufficient = false from hgood
    refine ⟨.tooOld package version minimum, ?_, rfl⟩
    refine bind_eq_error_iff.mpr (Or.inr ⟨minimum, hminimum, ?_⟩)
    exact bind_eq_error_iff.mpr (Or.inr ⟨.installed version false, h, rfl⟩)

end

/-- The check that fails complains exactly where the other check finds the package not good enough,
and otherwise comes to the same. -/
theorem verify_iff (installed : Installed) (package : String) (minimum? : Option String) :
    ((∃ failure, verify installed package minimum? = .error failure ∧ failure.complains = true) ↔
        ∃ s, status installed package minimum? = .ok s ∧ s.isGood = false) ∧
      ((¬ ∃ s, status installed package minimum? = .ok s ∧ s.isGood = false) →
        verify installed package minimum? = status installed package minimum?) := by
  cases hstatus : status installed package minimum? with
  | error failure =>
    obtain ⟨hverify, hcomplains⟩ := verify_of_error hstatus
    rw [hverify]
    refine ⟨⟨?_, ?_⟩, fun _ => rfl⟩
    · rintro ⟨_, ⟨⟩, h⟩
      rw [hcomplains] at h
      cases h
    · rintro ⟨_, h, -⟩
      cases h
  | ok s =>
    cases hgood : s.isGood with
    | true =>
      have hverify := verify_of_good hstatus hgood
      rw [hverify]
      refine ⟨⟨?_, ?_⟩, fun _ => rfl⟩
      · rintro ⟨_, h, -⟩
        cases h
      · rintro ⟨_, ⟨⟩, h⟩
        rw [hgood] at h
        cases h
    | false =>
      have hverify := verify_of_not_good hstatus hgood
      have hbad : ∃ found, (.ok s : Except Failure Status) = .ok found ∧ found.isGood = false :=
        ⟨s, rfl, hgood⟩
      exact ⟨⟨fun _ => hbad, fun _ => hverify⟩, fun h => absurd hbad h⟩

/-! ## Top theorem -/

/-- With a library that conforms, the check of installed versions against minimum versions is
reflexive, total and transitive, and does not depend on how versions are spelled.  In every
environment it comes to a verdict on versions that the system reads, and on no other text; the check
that fails complains exactly where that verdict is not good, and otherwise comes to the same. -/
theorem status_coherent {library : VersionLibrary} {limit? : Option Nat}
    (hlibrary : library.Conforms limit?) {a b m : String} (ha : IsVersion limit? a)
    (hb : IsVersion limit? b) (hm : IsVersion limit? m) :
    Meets library a a ∧ (Meets library a b ∨ Meets library b a) ∧
      (Meets library b a → Meets library a m → Meets library b m) ∧
      (∀ a' m', IsVersion limit? a' → IsVersion limit? m' → Respelled a a' → Respelled m m' →
        (Meets library a m ↔ Meets library a' m')) ∧
      (∀ (installed : Installed) (package : String), installed.library = library →
        (installed.version? package = none →
          status installed package (some m) = .ok .missing) ∧
        (installed.version? package = some a → ∃ sufficient,
          status installed package (some m) = .ok (.installed a sufficient) ∧
            (sufficient = true ↔ Meets library a m)) ∧
        ∀ text minimum, installed.version? package = some text →
          ((∃ s, status installed package (some minimum) = .ok s) ↔
            IsVersion limit? text ∧ IsVersion limit? minimum)) ∧
      ∀ (installed : Installed) (package : String) (minimum? : Option String),
        ((∃ failure, verify installed package minimum? = .error failure ∧
            failure.complains = true) ↔
          ∃ s, status installed package minimum? = .ok s ∧ s.isGood = false) ∧
        ((¬ ∃ s, status installed package minimum? = .ok s ∧ s.isGood = false) →
          verify installed package minimum? = status installed package minimum?) := by
  obtain ⟨u, hu⟩ := ha.exists_spells
  obtain ⟨v, hv⟩ := hb.exists_spells
  obtain ⟨w, hw⟩ := hm.exists_spells
  refine ⟨(meets_iff hlibrary ha ha hu hu).mpr u.meets_refl, ?_, ?_, ?_,
    fun installed package hinstalled => ⟨?_, ?_, fun _ _ => exists_status_iff hlibrary hinstalled⟩,
    verify_iff⟩
  · rw [meets_iff hlibrary ha hb hu hv, meets_iff hlibrary hb ha hv hu]
    exact u.meets_total v
  · rw [meets_iff hlibrary hb ha hv hu, meets_iff hlibrary ha hm hu hw,
      meets_iff hlibrary hb hm hv hw]
    exact Version.meets_trans
  · intro a' m' ha' hm' hrespelled hrespelled'
    obtain ⟨u, u', hu, hu', hequivalent⟩ := hrespelled.exists_equivalent
    obtain ⟨w, w', hw, hw', hequivalent'⟩ := hrespelled'.exists_equivalent
    rw [meets_iff hlibrary ha hm hu hw, meets_iff hlibrary ha' hm' hu' hw',
      hequivalent.meets_eq hequivalent']
  · intro hversion
    rw [status_some]
    exact judge_eq_ok_iff.mpr (.missing hversion)
  · intro hversion
    exact ⟨u.meets w, status_of_versions hlibrary ha hm hu hw hinstalled hversion,
      (meets_iff hlibrary ha hm hu hw).symm⟩

/-- A release and its first pre-release, in two spellings each, on a system that reads numbers of up
to 4300 digits. -/
theorem status_coherent_respelled :
    VersionLibrary.pep440.Conforms (some Text.maxDigits) ∧
      IsVersion (some Text.maxDigits) "1.0" ∧ IsVersion (some Text.maxDigits) "1.0rc1" ∧
      IsVersion (some Text.maxDigits) " v1.0.0 " ∧ IsVersion (some Text.maxDigits) "1-C.01" ∧
      Respelled "1.0" " v1.0.0 " ∧ Respelled "1.0rc1" "1-C.01" ∧
      Meets .pep440 "1.0" "1.0rc1" ∧ Meets .pep440 " v1.0.0 " "1-C.01" ∧
      ¬ Meets .pep440 "1-C.01" " v1.0.0 " := by
  have hplain : VersionSpelling.Valid ⟨[], [], none, ['1'], [['0']], none, none, none, none, []⟩ :=
    ⟨nofun, Or.inl rfl, nofun, by simp only [isNumber_iff]; decide, nofun, nofun, nofun, nofun,
      nofun⟩
  have hlong : VersionSpelling.Valid
      ⟨[' '], ['v'], none, ['1'], [['0'], ['0']], none, none, none, none, [' ']⟩ :=
    ⟨List.all_eq_true.mp rfl, Or.inr (Or.inl rfl), nofun, by simp only [isNumber_iff]; decide,
      nofun, nofun, nofun, nofun, List.all_eq_true.mp rfl⟩
  have hcandidate : MarkerSpelling.Valid preLabels ⟨[], ['r', 'c'], [], ['1']⟩ :=
    ⟨Or.inl rfl, by decide, Or.inl rfl, List.all_eq_true.mp rfl⟩
  have hcandidate' : MarkerSpelling.Valid preLabels ⟨['-'], ['C'], ['.'], ['0', '1']⟩ :=
    ⟨Or.inr ⟨'-', rfl, rfl⟩, by decide, Or.inr ⟨'.', rfl, rfl⟩, List.all_eq_true.mp rfl⟩
  have hpre : VersionSpelling.Valid
      ⟨[], [], none, ['1'], [['0']], some ⟨[], ['r', 'c'], [], ['1']⟩, none, none, none, []⟩ :=
    ⟨nofun, Or.inl rfl, nofun, by simp only [isNumber_iff]; decide,
      by rintro _ ⟨⟩; exact ⟨hcandidate, nofun⟩, nofun, nofun, nofun, nofun⟩
  have hpre' : VersionSpelling.Valid
      ⟨[], [], none, ['1'], [], some ⟨['-'], ['C'], ['.'], ['0', '1']⟩, none, none, none, []⟩ :=
    ⟨nofun, Or.inl rfl, nofun, by simp only [isNumber_iff]; decide,
      by rintro _ ⟨⟩; exact ⟨hcandidate', nofun⟩, nofun, nofun, nofun, nofun⟩
  have hrelease : Respelled "1.0" " v1.0.0 " :=
    ⟨_, _, hplain, hlong, rfl, rfl, rfl, ⟨1, 0, rfl⟩, .none, .none, .none, .none⟩
  have hword : SameWord ['r', 'c'] ['C'] :=
    Or.inr ⟨["rc", "c", "pre", "preview"], by decide, by decide +kernel, by decide +kernel⟩
  have hfirst : Respelled "1.0rc1" "1-C.01" :=
    ⟨_, _, hpre, hpre', rfl, rfl, rfl, ⟨0, 1, rfl⟩, .some ⟨hword, rfl⟩, .none, .none, .none⟩
  have hversion : IsVersion (some Text.maxDigits) "1.0" :=
    ⟨_, hplain, rfl, by rintro _ ⟨⟩; decide⟩
  have hversion' : IsVersion (some Text.maxDigits) "1.0rc1" :=
    ⟨_, hpre, rfl, by rintro _ ⟨⟩; decide⟩
  have hspelled : IsVersion (some Text.maxDigits) " v1.0.0 " :=
    ⟨_, hlong, rfl, by rintro _ ⟨⟩; decide⟩
  have hspelled' : IsVersion (some Text.maxDigits) "1-C.01" :=
    ⟨_, hpre', rfl, by rintro _ ⟨⟩; decide⟩
  have hlibrary := conforms_pep440
  have hmeets : ¬ Meets .pep440 "1.0rc1" "1.0" := by
    rw [meets_iff hlibrary hversion' hversion ⟨_, hpre, rfl, rfl⟩ ⟨_, hplain, rfl, rfl⟩]
    decide +kernel
  have hholds := (status_coherent hlibrary hversion hversion' hversion').2.1.resolve_right hmeets
  obtain ⟨-, -, -, hspelling, -⟩ := status_coherent hlibrary hversion hversion' hversion'
  obtain ⟨-, -, -, hspelling', -⟩ := status_coherent hlibrary hversion' hversion hversion
  exact ⟨hlibrary, hversion, hversion', hspelled, hspelled', hrelease, hfirst, hholds,
    (hspelling _ _ hspelled hspelled' hrelease hfirst).mp hholds,
    fun h => hmeets ((hspelling' _ _ hspelled' hspelled hfirst hrelease).mpr h)⟩

/-- The check of a version of 4301 digits against itself ends with a failure that does not complain
of the package. -/
theorem overlong_version_not_judged :
    let version := String.ofList (List.replicate 4301 '1')
    IsVersion none version ∧
      status ⟨[("packaging", version)], .pep440⟩ "packaging" (some version) =
        .error (.unreadVersion version (.overlong 4301)) ∧
      ¬Meets .pep440 version version := by
  have hnumber : IsNumber (List.replicate 4301 '1') := isNumber_replicate (by decide) rfl
  have hlength : (List.replicate 4301 '1').length = 4301 := List.length_replicate
  generalize List.replicate 4301 '1' = digits at hnumber hlength ⊢
  intro version
  have hlong : Text.maxDigits < digits.length := by
    rw [hlength]
    decide
  have hstatus := status_of_long hnumber hlong "packaging" version
  rw [hlength] at hstatus
  refine ⟨⟨_, valid_number hnumber, ?_, nofun⟩, hstatus, fun h => ?_⟩
  · rw [String.toList_ofList]
    exact List.append_nil _
  · have hmeets := h ⟨[("packaging", version)], .pep440⟩ "packaging" rfl rfl
    rw [hstatus] at hmeets
    cases hmeets

end BuildCommands.Package
