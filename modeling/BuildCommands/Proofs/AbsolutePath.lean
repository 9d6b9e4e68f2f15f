import BuildCommands.Proofs.Canonical
import BuildCommands.Proofs.UnquotedPath

/-!
# Which resolved paths are absolute

Resolving from an absolute directory settles a path at once.  The result is absolute unless the
directory is a Windows one and the path strays from it: it names a drive of its own, which is no
letter, or is another one than the directory's and has no root behind it.  Such a path keeps its
drive and nothing of the directory.

    resolve base (resolve base path) = resolve base path                        (resolve_resolve)
    IsAbsolute (resolve base path) ↔ strays base path = false            (isAbsolute_resolve_iff)
-/

namespace BuildCommands.Path

/-! ## Definitions -/

/-- Whether a path names a drive that a Windows directory does not complete: a colon stands behind
its first character, and that is no letter, or the path is not rooted behind the colon and the
directory is on another drive. -/
def strays (base : List Char) : List Char → Bool
  | a :: ':' :: rest =>
    Windows.isAbsolute base && a != '/' && (!a.isAlpha || !Windows.isRooted rest &&
      Text.lowerCase [a, ':'] != Text.lowerCase (Windows.splitDrive base).1)
  | _ => false

/-! ## Paths with a drive's letter -/

namespace Windows

/-- Two backslashes are not a letter and a colon, in lower case either. -/
theorem lowerCase_colon_ne (a : Char) (d : List Char) :
    Text.lowerCase [a, ':'] ≠ Text.lowerCase ('\\' :: '\\' :: d) := by
  have hshare : Text.lowerCase ('\\' :: '\\' :: d) =
      '\\' :: '\\' :: Text.lowerFrom ['\\', '\\'] d := rfl
  have hcolon : Text.lowerFrom [a] [':'] = [':'] := rfl
  rw [hshare, Text.lowerCase]
  rcases CommandLine.lowerFrom_cons [] [':'] a with ⟨-, mark, -, he⟩ | ⟨-, x, -, he⟩
  · rw [he]
    exact fun h => absurd (List.cons.inj h).1 (by decide)
  · rw [he, hcolon]
    exact fun h => absurd (List.cons.inj (List.cons.inj h).2).1 (by decide)

/-- A directory on a drive with this letter has a root behind it. -/
theorem back_ne_nil_of_lowerCase_eq {base : List Char} (hb : isAbsolute base = true) {a : Char}
    (h : Text.lowerCase [a, ':'] = Text.lowerCase (splitDrive base).1) :
    (splitDrive base).2 ≠ [] := by
  rcases isAbsolute_iff.mp hb with ⟨rest, rfl⟩ | ⟨x, c, rest, rfl, -, -⟩
  · obtain ⟨d, hd⟩ := splitDrive_separators rest (a := '\\') (b := '\\') rfl rfl
    rw [hd] at h
    exact absurd h (lowerCase_colon_ne a d)
  · rw [splitDrive_colon]
    exact List.cons_ne_nil _ _

/-- A joined path keeps its drive's letter, and is rooted behind it if it was, or if the directory
is on that drive. -/
theorem exists_join_colon_rooted {base : List Char} (hb : isAbsolute base = true) (a : Char)
    (rest : List Char) :
    ∃ tail, join base (a :: ':' :: rest) = a :: ':' :: tail ∧
      (isRooted tail = true ↔ isRooted rest = true ∨
        Text.lowerCase [a, ':'] = Text.lowerCase (splitDrive base).1) := by
  by_cases hr : isRooted rest = true
  · exact ⟨rest, join_colon (Or.inl hr), iff_of_true hr (Or.inl hr)⟩
  by_cases hl : Text.lowerCase [a, ':'] = Text.lowerCase (splitDrive base).1
  · obtain ⟨tail, hj, hkeep⟩ := exists_join_colon hb a rest
    have hspared : ¬Spares base a :=
      not_or.mpr ⟨not_not_intro hl, back_ne_nil_of_lowerCase_eq hb hl⟩
    exact ⟨tail, hj, iff_of_true (hkeep.resolve_right hspared) (Or.inr hl)⟩
  · exact ⟨rest, join_colon (Or.inr (Or.inl hl)), iff_of_false hr (not_or.mpr ⟨hr, hl⟩)⟩

end Windows

theorem isAbsolute_colon_iff {a : Char} (ha : a ≠ '/') (tail : List Char) :
    IsAbsolute (a :: ':' :: tail) ↔ a.isAlpha = true ∧ Windows.isRooted tail = true := by
  have hposix : Posix.isAbsolute (a :: ':' :: tail) = false := by simpa [Posix.isAbsolute] using ha
  unfold IsAbsolute
  rw [hposix, or_iff_left Bool.false_ne_true]
  cases tail with
  | nil => simp [Windows.isAbsolute, Windows.isRooted]
  | cons c tail => simp [Windows.isAbsolute, Windows.isRooted]

theorem strays_colon_eq_false_iff {base : List Char} (hb : Windows.isAbsolute base = true)
    {a : Char} (ha : a ≠ '/') (rest : List Char) :
    strays base (a :: ':' :: rest) = false ↔ a.isAlpha = true ∧ (Windows.isRooted rest = true ∨
      Text.lowerCase [a, ':'] = Text.lowerCase (Windows.splitDrive base).1) := by
  cases halpha : a.isAlpha with
  | false => simp [strays, hb, ha, halpha]
  | true =>
    cases hr : Windows.isRooted rest with
    | false => simp [strays, hb, ha, halpha, hr]
    | true => simp [strays, hb, halpha, hr]

/-! ## Absolute results -/

/-- An absolute path does not depend on the directory. -/
theorem resolveFrom_congr {path : List Char} (h : IsAbsolute path) (base other : List Char) :
    resolveFrom base path = resolveFrom other path := by
  rcases h with h | h
  · rw [resolveFrom_of_windows h, resolveFrom_of_windows h]
  · rw [resolveFrom_of_posix h, resolveFrom_of_posix h]

theorem strays_of_not_colon (base : List Char) {path : List Char}
    (h : ∀ a rest, path ≠ a :: ':' :: rest) : strays base path = false := by
  unfold strays
  split
  · exact absurd rfl (h _ _)
  · rfl

/-- An absolute path does not stray. -/
theorem strays_of_isAbsolute (base : List Char) {path : List Char} (h : IsAbsolute path) :
    strays base path = false := by
  by_cases hcolon : ∃ a rest, path = a :: ':' :: rest
  · obtain ⟨a, rest, rfl⟩ := hcolon
    by_cases ha : a = '/'
    · simp [strays, ha]
    · obtain ⟨halpha, hr⟩ := (isAbsolute_colon_iff ha rest).mp h
      simp [strays, halpha, hr]
  · exact strays_of_not_colon base fun a rest he => hcolon ⟨a, rest, he⟩

/-- A path joined with an absolute Windows directory and normalized is absolute unless it strays. -/
theorem isAbsolute_normalize_join_iff {base path : List Char} (hb : Windows.isAbsolute base = true)
    (hp : Posix.isAbsolute path = false) :
    IsAbsolute (Windows.normalize (Windows.join base path)) ↔ strays base path = false := by
  rcases Windows.driveLength_cases path with hzero | ⟨a, rest, rfl⟩ | ⟨a, b, rest, rfl, ha, hb'⟩
  · have hjoin : Windows.isAbsolute (Windows.join base path) = true :=
      Windows.isAbsolute_join hb (by simp [Windows.splitDrive, hzero])
    refine iff_of_true (Or.inl (Windows.normalize_of_isAbsolute hjoin).1) ?_
    refine strays_of_not_colon base ?_
    rintro a rest rfl
    rw [Windows.driveLength_colon] at hzero
    cases hzero
  · have hslash : a ≠ '/' := by simpa [Posix.isAbsolute] using hp
    obtain ⟨tail, hj, hr⟩ := Windows.exists_join_colon_rooted hb a rest
    obtain ⟨-, tail', hn, hr'⟩ := Windows.normalize_colon tail hslash
    rw [hj, hn, isAbsolute_colon_iff hslash, hr', hr, strays_colon_eq_false_iff hb hslash]
  · obtain ⟨t, ht⟩ := Windows.join_eq_append base (a :: b :: rest)
    obtain ⟨d, hd⟩ := Windows.splitDrive_separators rest ha hb'
    rw [hd] at ht
    obtain ⟨-, tail, hn⟩ := Windows.normalize_separators (d ++ t) ha hb'
    rw [show Windows.join base (a :: b :: rest) = a :: b :: (d ++ t) from ht, hn]
    refine iff_of_true (Or.inl rfl) (strays_of_not_colon base ?_)
    rintro a' rest' he
    obtain ⟨-, hb⟩ := List.cons.inj he
    rw [(List.cons.inj hb).1] at hb'
    exact absurd hb' (by decide)

theorem isAbsolute_resolveFrom_iff {base : List Char} (h : IsAbsolute base) (path : List Char) :
    IsAbsolute (resolveFrom base path) ↔ strays base path = false := by
  by_cases hw : Windows.isAbsolute path = true
  · rw [resolveFrom_of_windows hw]
    exact iff_of_true (Or.inl (Windows.normalize_of_isAbsolute hw).1)
      (strays_of_isAbsolute base (Or.inl hw))
  by_cases hp : Posix.isAbsolute path = true
  · rw [resolveFrom_of_posix hp]
    exact iff_of_true (Or.inr (Posix.isAbsolute_normalize hp))
      (strays_of_isAbsolute base (Or.inr hp))
  unfold resolveFrom
  rw [if_neg hw, if_neg hp]
  by_cases hb : Windows.isAbsolute base = true
  · rw [if_pos hb]
    exact isAbsolute_normalize_join_iff hb (by simpa using hp)
  · rw [if_neg hb]
    have hjoin : Posix.isAbsolute (Posix.join base path) = true :=
      Posix.isAbsolute_join (h.resolve_left hb)
    refine iff_of_true (Or.inr (Posix.isAbsolute_normalize hjoin)) ?_
    unfold strays
    split
    · simp [hb]
    · rfl

/-! ## Top theorems -/

/-- Resolving from an absolute directory a second time changes nothing, and once the result is
absolute it is the same from any directory. -/
theorem resolve_resolve {base : String} (h : IsAbsolute base.toList) (path : String) :
    resolve base (resolve base path) = resolve base path ∧
      (IsAbsolute (resolve base path).toList →
        ∀ other, resolve other (resolve base path) = resolve base path) := by
  have hsame : resolve base (resolve base path) = resolve base path := by
    unfold resolve
    rw [String.toList_ofList, resolveFrom_resolveFrom h]
  refine ⟨hsame, fun habsolute other => ?_⟩
  conv => rhs; rw [← hsame]
  rw [resolve, resolveFrom_congr habsolute other.toList base.toList]
  rfl

/-- A path on another drive keeps its drive without a root; one on the same drive is completed. -/
theorem resolve_resolve_drives :
    IsAbsolute "C:\\b".toList ∧
      resolve "C:\\b" "D:x/..\\cl.exe" = "D:cl.exe" ∧
      resolve "C:\\b" "D:cl.exe" = "D:cl.exe" ∧
      resolve "C:\\b" "c:x/..\\cl.exe" = "c:\\b\\cl.exe" ∧
      IsAbsolute "c:\\b\\cl.exe".toList ∧
      resolve "/work" "c:\\b\\cl.exe" = "c:\\b\\cl.exe" := by
  have hbase : IsAbsolute "C:\\b".toList := by decide
  have hother : resolve "C:\\b" "D:x/..\\cl.exe" = "D:cl.exe" := by decide +kernel
  have hsame : resolve "C:\\b" "c:x/..\\cl.exe" = "c:\\b\\cl.exe" := by decide +kernel
  have habsolute : IsAbsolute "c:\\b\\cl.exe".toList := by decide
  have htwice := (resolve_resolve hbase "D:x/..\\cl.exe").1
  have hmoved := (resolve_resolve hbase "c:x/..\\cl.exe").2
  rw [hother] at htwice
  rw [hsame] at hmoved
  exact ⟨hbase, hother, htwice, hsame, habsolute, hmoved habsolute "/work"⟩

/-- From an absolute directory a path becomes absolute exactly if it does not stray, and that path is
what a canonical command has in its first quotes. -/
theorem isAbsolute_resolve_iff {base : String} (h : IsAbsolute base.toList) (path : String) :
    (IsAbsolute (resolve base path).toList ↔ strays base.toList path.toList = false) ∧
      ∀ tokens, ∃ arguments, (CommandLine.canonical base path tokens).toList =
        '"' :: ((resolve base path).toList ++ '"' :: arguments) := by
  refine ⟨?_, fun tokens => ⟨_, by rw [CommandLine.canonical_eq, String.toList_ofList]⟩⟩
  rw [resolve, String.toList_ofList]
  exact isAbsolute_resolveFrom_iff h path.toList

/-- A rooted path takes the directory's drive, and a path on another drive takes nothing. -/
theorem isAbsolute_resolve_iff_drives :
    IsAbsolute "C:\\b".toList ∧
      (strays "C:\\b".toList "\\cl.exe".toList = false ∧
        IsAbsolute (resolve "C:\\b" "\\cl.exe").toList) ∧
      strays "C:\\b".toList "D:cl.exe".toList = true ∧
      ¬IsAbsolute (resolve "C:\\b" "D:cl.exe").toList := by
  have hbase : IsAbsolute "C:\\b".toList := by decide
  have hrooted : strays "C:\\b".toList "\\cl.exe".toList = false := by decide
  have hother : strays "C:\\b".toList "D:cl.exe".toList = true := by decide +kernel
  refine ⟨hbase, ⟨hrooted, (isAbsolute_resolve_iff hbase "\\cl.exe").1.mpr hrooted⟩, hother, ?_⟩
  rw [(isAbsolute_resolve_iff hbase "D:cl.exe").1, hother]
  decide

/-- A path on drive D, seen from a directory on drive C, does not become absolute. -/
theorem other_drive_not_absolute :
    IsAbsolute "C:\\b".toList ∧ resolve "C:\\b" "D:cl.exe" = "D:cl.exe" ∧
      ¬IsAbsolute "D:cl.exe".toList := by
  exact ⟨by decide, by decide +kernel, by decide⟩

end BuildCommands.Path
