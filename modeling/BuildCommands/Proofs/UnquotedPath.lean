import BuildCommands.CommandLine.Executable
import Mathlib.Data.List.Infix

/-!
# Executable paths without quotes

A path without quotes ends behind the first `.exe` of the command line, in any letter case.  The
suffix is sought in the lower case form, where each letter stands for itself but for the capital I
with a dot, which takes two places there.  So the cut lies as many characters too far to the right
as such letters stand before it:

    splitExecutable commandLine = .ok ⟨text.take n, dropBlank (text.drop n)⟩
        where n = path.length + path.count 'İ'                       (splitExecutable_unquoted)

`path` is the shortest front of the text that ends with the suffix.
-/

namespace BuildCommands.CommandLine

/-! ## Definitions -/

/-- The text ends with the executable suffix, in any letter case of ASCII. -/
def EndsExecutable (cs : List Char) : Prop := executableSuffix <:+ cs.map Char.toLower

instance (cs : List Char) : Decidable (EndsExecutable cs) :=
  inferInstanceAs (Decidable (_ <:+ _))

/-- The shortest front of a text that ends with the executable suffix. -/
structure IsExecutablePath (text path : List Char) : Prop where
  front : path <+: text
  ends : EndsExecutable path
  shortest : ∀ other, other <+: text → EndsExecutable other → path.length ≤ other.length

theorem isExecutablePath_iff (text path : List Char) :
    IsExecutablePath text path ↔ path <+: text ∧ EndsExecutable path ∧
      ∀ other ∈ text.inits, EndsExecutable other → path.length ≤ other.length := by
  simp only [List.mem_inits]
  exact ⟨fun h => ⟨h.front, h.ends, h.shortest⟩, fun ⟨h1, h2, h3⟩ => ⟨h1, h2, h3⟩⟩

instance (text path : List Char) : Decidable (IsExecutablePath text path) :=
  decidable_of_iff' _ (isExecutablePath_iff text path)

/-- There is one shortest front. -/
theorem IsExecutablePath.unique {text path other : List Char} (h : IsExecutablePath text path)
    (h' : IsExecutablePath text other) : path = other := by
  have hle := h.shortest other h'.front h'.ends
  have hge := h'.shortest path h.front h.ends
  exact (List.prefix_of_prefix_length_le h.front h'.front hle).eq_of_length
    (Nat.le_antisymm hle hge)

/-! ## Searching -/

theorem offsetOf?_cons (pattern rest : List Char) (c : Char) :
    offsetOf? pattern (c :: rest) =
      if pattern <+: c :: rest then some 0 else (offsetOf? pattern rest).map (· + 1) := by
  rw [offsetOf?]
  simp only [List.isPrefixOf_iff_prefix]

/-- A pattern is found where it stands first. -/
theorem of_offsetOf?_eq_some {pattern : List Char} (hne : pattern ≠ []) (cs : List Char) :
    ∀ i, offsetOf? pattern cs = some i →
      pattern <+: cs.drop i ∧ ∀ j < i, ¬pattern <+: cs.drop j := by
  induction cs with
  | nil =>
    intro i h
    rw [offsetOf?, if_neg (by simpa using hne)] at h
    cases h
  | cons c rest ih =>
    intro i h
    rw [offsetOf?_cons] at h
    split at h
    · next hhere =>
      cases h
      exact ⟨hhere, fun j hj => absurd hj (Nat.not_lt_zero j)⟩
    · next hhere =>
      obtain ⟨k, hk, rfl⟩ := Option.map_eq_some_iff.mp h
      obtain ⟨hfound, hfirst⟩ := ih k hk
      refine ⟨hfound, fun j hj => ?_⟩
      cases j with
      | zero => exact hhere
      | succ j => exact hfirst j (Nat.lt_of_succ_lt_succ hj)

/-- A pattern that is not found stands nowhere. -/
theorem of_offsetOf?_eq_none {pattern : List Char} (hne : pattern ≠ []) (cs : List Char)
    (h : offsetOf? pattern cs = none) : ∀ i, ¬pattern <+: cs.drop i := by
  induction cs with
  | nil =>
    intro i
    rw [List.drop_nil, List.prefix_nil]
    exact hne
  | cons c rest ih =>
    rw [offsetOf?_cons] at h
    split at h
    · cases h
    · next hhere =>
      intro i
      cases i with
      | zero => exact hhere
      | succ i => exact ih (Option.map_eq_none_iff.mp h) i

/-! ## Lower case -/

/-- No letter outside ASCII has a letter of the suffix as its lower case form. -/
theorem image_not_suffix : ∀ r ∈ Text.lowerRanges,
    0x78 < r.image ∨ r.first = r.last ∧ r.image = 0x6b := by
  decide +kernel

theorem lowerChar_of_ascii {c : Char} (h : c.toNat < 0x80) :
    Text.lowerChar c = [c.toLower] := by
  have hall : ∀ n < 0x80, Text.lowerChar (Char.ofNat n) = [(Char.ofNat n).toLower] := by decide
  have hc := hall c.toNat h
  rwa [Char.ofNat_toNat] at hc

/-- The suffix has letters of ASCII only. -/
theorem ascii_of_mem_suffix {c : Char} (h : c ∈ executableSuffix) :
    c.toNat = 0x2e ∨ c.toNat = 0x65 ∨ c.toNat = 0x78 := by
  simp only [executableSuffix, List.mem_cons, List.not_mem_nil, or_false] at h
  rcases h with rfl | rfl | rfl | rfl <;> decide

theorem toLower_of_not_ascii {c : Char} (h : 0x80 ≤ c.toNat) : c.toLower = c := by
  unfold Char.toLower
  rw [dif_neg]
  rintro ⟨-, hc⟩
  have : c.toNat ≤ 90 := hc
  omega

theorem not_mem_suffix_of_lt {c : Char} (h : 0x78 < c.toNat) : c ∉ executableSuffix := by
  intro hc
  rcases ascii_of_mem_suffix hc with h' | h' | h' <;> omega

/-- A number that is no code point counts as zero. -/
theorem toNat_ofNat_cases (n : Nat) : (Char.ofNat n).toNat = n ∨ (Char.ofNat n).toNat = 0 := by
  unfold Char.ofNat
  by_cases h : n.isValidChar
  · rw [dif_pos h]
    exact Or.inl rfl
  · rw [dif_neg h]
    exact Or.inr rfl

/-- A letter outside ASCII has no letter of the suffix as its lower case form. -/
theorem lowerChar_not_suffix {c : Char} (hc : 0x80 ≤ c.toNat) (hdot : c ≠ 'İ') :
    ∃ d, Text.lowerChar c = [d] ∧ d ∉ executableSuffix := by
  have hne : c.toNat ≠ 0x130 := fun he => hdot (by rw [← Char.ofNat_toNat c, he])
  unfold Text.lowerChar
  simp only
  rw [if_neg (by omega), if_neg hne]
  split
  · next r hr =>
    have himage := image_not_suffix r (List.mem_of_find?_eq_some hr)
    have hin := List.find?_some hr
    simp only [Bool.and_eq_true, decide_eq_true_eq] at hin
    refine ⟨_, rfl, fun hmem => ?_⟩
    have hcode := ascii_of_mem_suffix hmem
    rcases toNat_ofNat_cases (r.image + (c.toNat - r.first)) with hvalid | hvalid <;> omega
  · exact ⟨c, rfl, not_mem_suffix_of_lt (by omega)⟩

/-- In lower case a character stands for itself as far as the suffix goes, but for the capital I
with a dot, which becomes two characters. -/
theorem lowerFrom_cons (before rest : List Char) (c : Char) :
    (c = 'İ' ∧ ∃ mark, mark ∉ executableSuffix ∧
      Text.lowerFrom before (c :: rest) = 'i' :: mark :: Text.lowerFrom (c :: before) rest) ∨
    c ≠ 'İ' ∧ ∃ d, (∀ x ∈ executableSuffix, x = d ↔ x = c.toLower) ∧
      Text.lowerFrom before (c :: rest) = d :: Text.lowerFrom (c :: before) rest := by
  by_cases hdot : c = 'İ'
  · subst hdot
    exact Or.inl ⟨rfl, Char.ofNat 0x307, by decide, rfl⟩
  right
  refine ⟨hdot, ?_⟩
  rw [Text.lowerFrom]
  rcases Nat.lt_or_ge c.toNat 0x80 with hascii | hhigh
  · rw [if_neg (by omega), lowerChar_of_ascii hascii]
    exact ⟨c.toLower, fun x _ => Iff.rfl, rfl⟩
  have hother : ∀ d, d ∉ executableSuffix → ∀ x ∈ executableSuffix, x = d ↔ x = c.toLower := by
    rw [toLower_of_not_ascii hhigh]
    intro d hd x hx
    refine iff_of_false (fun h => hd (h ▸ hx)) fun h => ?_
    exact not_mem_suffix_of_lt (by omega) (h ▸ hx)
  by_cases hsigma : c.toNat = 0x3a3
  · rw [if_pos hsigma]
    refine ⟨_, hother _ ?_, rfl⟩
    split <;> decide
  · obtain ⟨d, hd, hnot⟩ := lowerChar_not_suffix hhigh hdot
    rw [if_neg hsigma, hd]
    exact ⟨d, hother d hnot, rfl⟩

/-- Letters of the suffix begin the lower case form exactly if they begin the text, in any case. -/
theorem prefix_lowerFrom_iff (pattern : List Char) : ∀ before cs : List Char,
    (∀ x ∈ pattern, x ∈ executableSuffix) →
    (pattern <+: Text.lowerFrom before cs ↔ pattern <+: cs.map Char.toLower) := by
  induction pattern with
  | nil => simp
  | cons x pattern ih =>
    intro before cs hsuffix
    obtain ⟨hx, hrest⟩ := List.forall_mem_cons.mp hsuffix
    cases cs with
    | nil => rfl
    | cons c cs =>
      rw [List.map_cons]
      rcases lowerFrom_cons before cs c with ⟨rfl, mark, hmark, he⟩ | ⟨-, d, hd, he⟩
      · rw [he, List.cons_prefix_cons, List.cons_prefix_cons]
        refine iff_of_false (fun h => ?_) fun h => ?_
        · exact absurd (h.1 ▸ hx) (by decide)
        · exact absurd (h.1 ▸ hx) (by decide)
      · rw [he, List.cons_prefix_cons, List.cons_prefix_cons, hd x hx, ih _ _ hrest]

/-- The suffix stands in the lower case form where it stands in the text, but for one place more for
each capital I with a dot before it. -/
theorem offsetOf?_lowerFrom (cs : List Char) : ∀ before : List Char,
    offsetOf? executableSuffix (Text.lowerFrom before cs) =
      (offsetOf? executableSuffix (cs.map Char.toLower)).map fun i =>
        i + (cs.take i).count 'İ' := by
  induction cs with
  | nil =>
    intro before
    rfl
  | cons c cs ih =>
    intro before
    have hhere := prefix_lowerFrom_iff executableSuffix before (c :: cs) fun _ h => h
    rw [List.map_cons] at hhere ⊢
    rw [offsetOf?_cons executableSuffix (cs.map Char.toLower)]
    rcases lowerFrom_cons before cs c with ⟨rfl, mark, hmark, he⟩ | ⟨hc, d, -, he⟩
    · have hmark' : ¬executableSuffix <+: mark :: Text.lowerFrom ('İ' :: before) cs := by
        rw [executableSuffix, List.cons_prefix_cons]
        exact fun h => hmark (h.1 ▸ by decide)
      have hdot : ¬executableSuffix <+: ('İ').toLower :: cs.map Char.toLower := by
        rw [executableSuffix, List.cons_prefix_cons]
        exact fun h => absurd h.1 (by decide)
      rw [← hhere, he] at hdot
      rw [he, offsetOf?_cons, if_neg hdot, offsetOf?_cons, if_neg hmark', ih,
        if_neg (by rwa [← hhere, he]), Option.map_map, Option.map_map, Option.map_map]
      congr 1
      funext i
      simp
      omega
    · rw [he] at hhere
      rw [he, offsetOf?_cons]
      by_cases hsuffix : executableSuffix <+: d :: Text.lowerFrom (c :: before) cs
      · rw [if_pos hsuffix, if_pos (hhere.mp hsuffix)]
        rfl
      · rw [if_neg hsuffix, if_neg (fun h => hsuffix (hhere.mpr h)), ih, Option.map_map,
          Option.map_map]
        congr 1
        funext i
        simp [hc]
        omega

/-! ## Fronts -/

/-- A front ends with the suffix exactly if it ends where the suffix stands. -/
theorem front_endsExecutable_iff {text path : List Char} :
    path <+: text ∧ EndsExecutable path ↔
      ∃ i, executableSuffix <+: (text.map Char.toLower).drop i ∧
        path = text.take (i + executableSuffix.length) := by
  constructor
  · rintro ⟨⟨tail, rfl⟩, before, hbefore⟩
    have hlength := congrArg List.length hbefore
    rw [List.length_append, List.length_map] at hlength
    refine ⟨before.length, ?_, by rw [hlength, List.take_left]⟩
    rw [List.map_append, ← hbefore, List.append_assoc, List.drop_left]
    exact List.prefix_append _ _
  · rintro ⟨i, ⟨tail, htail⟩, rfl⟩
    refine ⟨List.take_prefix _ _, (text.map Char.toLower).take i, ?_⟩
    rw [List.map_take, List.take_add, ← htail, List.take_left]

/-- The suffix ends within the text. -/
theorem add_length_suffix_le {text : List Char} {i : Nat}
    (h : executableSuffix <+: (text.map Char.toLower).drop i) :
    i + executableSuffix.length ≤ text.length := by
  have hle := h.length_le
  have hpos : 0 < executableSuffix.length := by decide
  rw [List.length_drop, List.length_map] at hle
  omega

/-- A path that ends where the suffix stands first is the shortest. -/
theorem isExecutablePath_take {text : List Char} {i : Nat}
    (hfound : executableSuffix <+: (text.map Char.toLower).drop i)
    (hfirst : ∀ j < i, ¬executableSuffix <+: (text.map Char.toLower).drop j) :
    IsExecutablePath text (text.take (i + executableSuffix.length)) := by
  obtain ⟨hfront, hends⟩ := front_endsExecutable_iff.mpr ⟨i, hfound, rfl⟩
  refine ⟨hfront, hends, fun other hother hotherEnds => ?_⟩
  obtain ⟨j, hj, rfl⟩ := front_endsExecutable_iff.mp ⟨hother, hotherEnds⟩
  have hij : i ≤ j := Nat.le_of_not_lt fun hlt => hfirst j hlt hj
  rw [List.length_take_of_le (add_length_suffix_le hfound),
    List.length_take_of_le (add_length_suffix_le hj)]
  omega

/-- No capital I with a dot stands in the suffix itself. -/
theorem count_take_suffix {text : List Char} {i : Nat}
    (h : executableSuffix <+: (text.map Char.toLower).drop i) :
    (text.take (i + executableSuffix.length)).count 'İ' = (text.take i).count 'İ' := by
  obtain ⟨tail, htail⟩ := h
  have hsuffix : ((text.drop i).take executableSuffix.length).map Char.toLower =
      executableSuffix := by
    rw [List.map_take, List.map_drop, ← htail, List.take_left]
  have hnone : 'İ' ∉ (text.drop i).take executableSuffix.length := by
    intro hmem
    have hlower := List.mem_map_of_mem (f := Char.toLower) hmem
    rw [hsuffix] at hlower
    exact absurd hlower (by decide)
  rw [List.take_add, List.count_append, List.count_eq_zero.mpr hnone, Nat.add_zero]

/-- The length that the cut is made at. -/
theorem unquotedLength?_eq (cs : List Char) :
    unquotedLength? cs =
      (offsetOf? executableSuffix (cs.map Char.toLower)).map fun i =>
        i + (cs.take i).count 'İ' + executableSuffix.length := by
  unfold unquotedLength? Text.lowerCase
  rw [offsetOf?_lowerFrom, Option.map_map]
  rfl

/-! ## Cutting -/

theorem splitTrimmed_unquoted {c : Char} (hc : c ≠ '"') (rest : List Char) :
    splitTrimmed (c :: rest) =
      match unquotedLength? (c :: rest) with
      | some n => .ok ((c :: rest).take n, Text.dropBlank ((c :: rest).drop n))
      | none => .error .noExecutable := by
  unfold splitTrimmed
  split
  · next h => cases h
  · next tail h => exact absurd (List.cons.inj h).1 hc
  · rfl

/-- A cut is right if it is made behind the path, or if the path is all there is. -/
theorem cut_eq_iff {text path : List Char} (hfront : path <+: text) {n : Nat} :
    (text.take (path.length + n) = path ∧
        Text.dropBlank (text.drop (path.length + n)) = Text.dropBlank (text.drop path.length)) ↔
      n = 0 ∨ path = text := by
  obtain ⟨tail, rfl⟩ := hfront
  have htake : (path ++ tail).take (path.length + n) = path ++ tail.take n :=
    List.take_length_add_append n
  have hdrop : (path ++ tail).drop (path.length + n) = tail.drop n :=
    List.drop_length_add_append n
  rw [htake, hdrop, List.drop_left, List.append_right_eq_self, List.self_eq_append_right]
  constructor
  · rintro ⟨h, -⟩
    exact List.take_eq_nil_iff.mp h
  · rintro (rfl | rfl)
    · exact ⟨List.take_zero, rfl⟩
    · exact ⟨List.take_nil, by rw [List.drop_nil]⟩

/-- A command line that starts with no quote is refused exactly if no front of it ends with the
executable suffix.  Otherwise the cut is made behind the shortest such front and as many characters
further on as the front has capital I with a dot; so the path is that front exactly if it has none
of them, or if nothing follows. -/
theorem splitExecutable_unquoted {commandLine : String} {c : Char} {rest : List Char}
    (htext : Text.dropBlank commandLine.toList = c :: rest) (hc : c ≠ '"') :
    ((∃ fault, splitExecutable commandLine = .error fault) ↔
        ¬∃ front, front <+: c :: rest ∧ EndsExecutable front) ∧
      (∀ fault, splitExecutable commandLine = .error fault →
        fault = ⟨.noExecutable, commandLine⟩) ∧
      ∀ split, splitExecutable commandLine = .ok split →
        ∃ path, IsExecutablePath (c :: rest) path ∧
          split = ⟨String.ofList ((c :: rest).take (path.length + path.count 'İ')),
            String.ofList (Text.dropBlank ((c :: rest).drop (path.length + path.count 'İ')))⟩ ∧
          (split = ⟨String.ofList path,
              String.ofList (Text.dropBlank ((c :: rest).drop path.length))⟩ ↔
            'İ' ∉ path ∨ path = c :: rest) := by
  have hne : executableSuffix ≠ [] := List.cons_ne_nil _ _
  unfold splitExecutable
  rw [htext, splitTrimmed_unquoted hc, unquotedLength?_eq]
  cases hoffset : offsetOf? executableSuffix ((c :: rest).map Char.toLower) with
  | none =>
    have hnone := of_offsetOf?_eq_none hne _ hoffset
    refine ⟨iff_of_true ⟨_, rfl⟩ ?_, fun fault h => (Except.error.inj h).symm, nofun⟩
    rintro ⟨front, hfront⟩
    obtain ⟨i, hi, -⟩ := front_endsExecutable_iff.mp hfront
    exact hnone i hi
  | some i =>
    obtain ⟨hfound, hfirst⟩ := of_offsetOf?_eq_some hne _ i hoffset
    have hpath := isExecutablePath_take hfound hfirst
    have hlength := List.length_take_of_le (add_length_suffix_le hfound)
    have hcount := count_take_suffix hfound
    generalize (c :: rest).take (i + executableSuffix.length) = path at hpath hlength hcount
    have hcut : i + ((c :: rest).take i).count 'İ' + executableSuffix.length =
        path.length + path.count 'İ' := by omega
    simp only [Option.map_some, hcut]
    refine ⟨iff_of_false nofun (not_not_intro ⟨path, hpath.front, hpath.ends⟩), nofun, ?_⟩
    rintro split ⟨rfl⟩
    refine ⟨path, hpath, rfl, ?_⟩
    rw [← List.count_eq_zero, ← cut_eq_iff hpath.front, Split.mk.injEq, String.ofList_inj,
      String.ofList_inj]

/-- Two such letters take the cut two characters too far; the second suffix does not count. -/
theorem splitExecutable_unquoted_dotted :
    Text.dropBlank " İİ.EXE /c a.exe".toList = "İİ.EXE /c a.exe".toList ∧
      IsExecutablePath "İİ.EXE /c a.exe".toList "İİ.EXE".toList ∧
      splitExecutable " İİ.EXE /c a.exe" = .ok ⟨"İİ.EXE /", "c a.exe"⟩ ∧
      "İİ.EXE /" = String.ofList ("İİ.EXE /c a.exe".toList.take (6 + 2)) := by
  have htext : Text.dropBlank " İİ.EXE /c a.exe".toList = 'İ' :: "İ.EXE /c a.exe".toList := by
    decide
  have hshortest : IsExecutablePath "İİ.EXE /c a.exe".toList "İİ.EXE".toList := by decide +kernel
  have hsplit : splitExecutable " İİ.EXE /c a.exe" = .ok ⟨"İİ.EXE /", "c a.exe"⟩ := by
    decide +kernel
  obtain ⟨-, -, hcut⟩ := splitExecutable_unquoted htext (by decide)
  obtain ⟨path, hpath, he, -⟩ := hcut _ hsplit
  have hsame : path = "İİ.EXE".toList := hpath.unique hshortest
  subst hsame
  exact ⟨htext, hshortest, hsplit, (Split.mk.inj he).1⟩

/-- The path of this command line has seven characters, and the cut is made behind the eighth. -/
theorem dotted_capital_moves_cut :
    Text.dropBlank "İcl.exe /c".toList = "İcl.exe /c".toList ∧
      IsExecutablePath "İcl.exe /c".toList "İcl.exe".toList ∧
      Text.dropBlank ("İcl.exe /c".toList.drop 7) = "/c".toList ∧
      splitExecutable "İcl.exe /c" = .ok ⟨"İcl.exe ", "/c"⟩ ∧
      splitExecutable "İcl.exe /c" ≠ .ok ⟨"İcl.exe", "/c"⟩ := by
  have hsplit : splitExecutable "İcl.exe /c" = .ok ⟨"İcl.exe ", "/c"⟩ := by decide +kernel
  refine ⟨by decide, by decide +kernel, by decide, hsplit, ?_⟩
  rw [hsplit]
  decide

end BuildCommands.CommandLine
