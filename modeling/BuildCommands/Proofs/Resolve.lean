import BuildCommands.Path.Resolve
import BuildCommands.Proofs.Drive

/-!
# Resolved paths are settled

Seen from an absolute directory, a path that was resolved before stays as it is.  A Windows path
need not become absolute: with a letter of another drive it keeps that letter, and is joined again
in the same way, so both kinds of result are followed through a second join.

    IsAbsolute base → resolveFrom base (resolveFrom base path) = resolveFrom base path
-/

namespace BuildCommands.Path

/-- An absolute path of either kind. -/
def IsAbsolute (path : List Char) : Prop :=
  Windows.isAbsolute path = true ∨ Posix.isAbsolute path = true

instance (path : List Char) : Decidable (IsAbsolute path) := inferInstanceAs (Decidable (_ ∨ _))

namespace Windows

/-! ## Absolute paths -/

theorem isAbsolute_iff {path : List Char} :
    isAbsolute path = true ↔ (∃ rest, path = '\\' :: '\\' :: rest) ∨
      ∃ a c rest, path = a :: ':' :: c :: rest ∧ a.isAlpha = true ∧ isSeparator c = true := by
  constructor
  · intro h
    unfold isAbsolute at h
    split at h
    · exact Or.inl ⟨_, rfl⟩
    · exact Or.inr ⟨_, _, _, rfl, by simpa using h⟩
    · cases h
  · rintro (⟨rest, rfl⟩ | ⟨a, c, rest, rfl, ha, hc⟩)
    · rfl
    · simp [isAbsolute, ha, hc]

theorem splitDrive_colon (a : Char) (rest : List Char) :
    splitDrive (a :: ':' :: rest) = ([a, ':'], rest) := by
  unfold splitDrive
  rw [driveLength_colon]
  rfl

/-- The drive of a path with two separators in front starts with them. -/
theorem splitDrive_separators {a b : Char} (rest : List Char) (ha : isSeparator a = true)
    (hb : isSeparator b = true) : ∃ d, (splitDrive (a :: b :: rest)).1 = a :: b :: d := by
  have htwo := two_le_driveLength rest ha hb
  refine ⟨rest.take (driveLength (a :: b :: rest) - 2), ?_⟩
  unfold splitDrive
  generalize driveLength (a :: b :: rest) = n at htwo ⊢
  obtain ⟨m, rfl⟩ : ∃ m, n = m + 2 := ⟨n - 2, by omega⟩
  rfl

/-- What stands behind the drive of an absolute path is empty or starts with a separator. -/
theorem back_of_isAbsolute {base : List Char} (h : isAbsolute base = true) :
    (splitDrive base).2 = [] ∨ isRooted (splitDrive base).2 = true := by
  rcases isAbsolute_iff.mp h with ⟨rest, rfl⟩ | ⟨a, c, rest, rfl, -, hc⟩
  · rcases driveLength_of_separators rest (a := '\\') (b := '\\') rfl rfl with
      hall | ⟨d, c, tail, hdc, hc, hlen, -⟩
    · left
      simp [splitDrive, hall]
    · right
      unfold splitDrive
      rw [hlen, hdc, List.drop_left]
      simpa [isRooted] using hc
  · right
    rw [splitDrive_colon]
    simpa [isRooted] using hc

/-! ## Normal forms of absolute paths -/

/-- A normalized path has two backslashes in front where the path has two separators. -/
theorem normalize_separators {a b : Char} (rest : List Char) (ha : isSeparator a = true)
    (hb : isSeparator b = true) :
    drive (a :: b :: rest) ≠ [] ∧ ∃ tail, normalize (a :: b :: rest) = '\\' :: '\\' :: tail := by
  have hback : ∀ c : Char, isSeparator c = true → (if c = '/' then '\\' else c) = '\\' := by
    intro c hc
    by_cases hs : c = '/'
    · rw [if_pos hs]
    · rw [if_neg hs]
      simpa [isSeparator, hs] using hc
  obtain ⟨d, hd⟩ := splitDrive_separators (a := '\\') (b := '\\') (backslashed rest) rfl rfl
  have hdrive : drive (a :: b :: rest) = '\\' :: '\\' :: d := by
    unfold drive
    rw [backslashed_cons, backslashed_cons, hback a ha, hback b hb, hd]
  have hne : drive (a :: b :: rest) ≠ [] := hdrive ▸ List.cons_ne_nil _ _
  refine ⟨hne, d ++ normalBack (a :: b :: rest), ?_⟩
  rw [normalize_eq hne, hdrive]
  rfl

/-- A normalized path keeps its drive's letter, and a separator behind it. -/
theorem normalize_colon {a : Char} (rest : List Char) (ha : a ≠ '/') :
    drive (a :: ':' :: rest) ≠ [] ∧
      ∃ tail, normalize (a :: ':' :: rest) = a :: ':' :: tail ∧ isRooted tail = isRooted rest := by
  have hsplit : splitDrive (backslashed (a :: ':' :: rest)) = ([a, ':'], backslashed rest) := by
    rw [backslashed_cons, if_neg ha]
    exact splitDrive_colon a _
  have hdrive : drive (a :: ':' :: rest) = [a, ':'] := by
    unfold drive
    rw [hsplit]
  have hne : drive (a :: ':' :: rest) ≠ [] := hdrive ▸ List.cons_ne_nil _ _
  refine ⟨hne, normalBack (a :: ':' :: rest), by rw [normalize_eq hne, hdrive]; rfl, ?_⟩
  have hhead := head?_normalBack (a :: ':' :: rest)
  have hslash : '/' ∉ normalBack (a :: ':' :: rest) := by
    have h := not_mem_normalize hne
    rw [normalize_eq hne] at h
    exact fun hm => h (List.mem_append_right _ hm)
  unfold back at hhead
  rw [hsplit] at hhead
  unfold isRooted
  generalize normalBack (a :: ':' :: rest) = tail at hhead hslash
  have htail : tail.head?.any isSeparator = (tail.head? == some '\\') := by
    cases tail with
    | nil => rfl
    | cons c tail =>
      have hc : c ≠ '/' := fun hc => hslash (hc ▸ List.mem_cons_self)
      simp [isSeparator, hc]
  rw [htail, hhead]
  cases rest with
  | nil => rfl
  | cons c rest =>
    rw [backslashed_cons]
    by_cases hc : c = '/'
    · simp [hc, isSeparator]
    · simp [hc, isSeparator]

/-- The normal form of an absolute path is absolute and settled. -/
theorem normalize_of_isAbsolute {path : List Char} (h : isAbsolute path = true) :
    isAbsolute (normalize path) = true ∧ normalize (normalize path) = normalize path := by
  rcases isAbsolute_iff.mp h with ⟨rest, rfl⟩ | ⟨a, c, rest, rfl, ha, hc⟩
  · obtain ⟨hne, tail, ht⟩ := normalize_separators rest (a := '\\') (b := '\\') rfl rfl
    refine ⟨?_, normalize_normalize hne⟩
    rw [ht]
    rfl
  · have hslash : a ≠ '/' := by
      rintro rfl
      exact absurd ha (by decide)
    obtain ⟨hne, tail, ht, hr⟩ := normalize_colon (c :: rest) hslash
    refine ⟨?_, normalize_normalize hne⟩
    have hrooted : isRooted tail = true := by
      rw [hr]
      simpa [isRooted] using hc
    rw [ht, isAbsolute_iff]
    cases tail with
    | nil => cases hrooted
    | cons c' tail => exact Or.inr ⟨a, c', tail, rfl, ha, by simpa [isRooted] using hrooted⟩

/-! ## Joined paths -/

theorem attach_colon (a : Char) (rest : List Char) : attach [a, ':'] rest = a :: ':' :: rest := by
  simp [attach]

theorem attach_eq_append (d rest : List Char) : ∃ t, attach d rest = d ++ t := by
  unfold attach
  split
  · exact ⟨_, rfl⟩
  · exact ⟨_, rfl⟩

/-- A joined path starts with the drive of the second path, or of the first. -/
theorem join_eq_append (directory path : List Char) :
    ∃ t, join directory path =
      (if (splitDrive path).1.isEmpty then (splitDrive directory).1 else (splitDrive path).1) ++ t := by
  unfold join
  simp only
  split
  · exact attach_eq_append _ _
  split
  · next h =>
    have hne : (splitDrive path).1.isEmpty = false := by
      simp only [Bool.and_eq_true, Bool.not_eq_true'] at h
      exact h.1
    rw [hne]
    exact attach_eq_append _ _
  · exact attach_eq_append _ _

/-- A path without a drive becomes absolute. -/
theorem isAbsolute_join {base path : List Char} (hb : isAbsolute base = true)
    (hp : (splitDrive path).1 = []) : isAbsolute (join base path) = true := by
  rcases isAbsolute_iff.mp hb with ⟨rest, rfl⟩ | ⟨a, c, rest, rfl, ha, hc⟩
  · obtain ⟨t, ht⟩ := join_eq_append ('\\' :: '\\' :: rest) path
    obtain ⟨d, hd⟩ := splitDrive_separators rest (a := '\\') (b := '\\') rfl rfl
    rw [ht, hp, hd]
    rfl
  · rw [isAbsolute_iff]
    right
    unfold join
    simp only [splitDrive_colon, hp]
    split
    · next hr =>
      simp only [List.isEmpty_nil, if_true, attach_colon]
      cases hrest : (splitDrive path).2 with
      | nil =>
        rw [hrest] at hr
        cases hr
      | cons c' rest' =>
        rw [hrest] at hr
        exact ⟨a, c', rest', rfl, ha, by simpa [isRooted] using hr⟩
    · simp only [List.isEmpty_nil, Bool.not_true, Bool.false_and, Bool.false_eq_true, if_false,
        if_true, attach_colon]
      exact ⟨a, c, _, rfl, ha, hc⟩

/-- A directory leaves paths of this drive alone: it is on another drive, or has nothing else. -/
def Spares (base : List Char) (a : Char) : Prop :=
  Text.lowerCase [a, ':'] ≠ Text.lowerCase (splitDrive base).1 ∨ (splitDrive base).2 = []

/-- A path with a drive's letter is kept where it is rooted or the directory leaves it alone. -/
theorem join_colon {base rest : List Char} {a : Char}
    (h : isRooted rest = true ∨ Spares base a) : join base (a :: ':' :: rest) = a :: ':' :: rest := by
  unfold join
  simp only [splitDrive_colon]
  by_cases hr : isRooted rest = true
  · rw [if_pos hr]
    exact attach_colon a rest
  rw [if_neg hr]
  rcases h.resolve_left hr with hl | hnil
  · rw [if_pos (by simpa using hl)]
    exact attach_colon a rest
  · rw [hnil]
    split
    · exact attach_colon a rest
    · exact attach_colon a rest

/-- A path with a drive's letter keeps the letter, and is rooted or left alone from then on. -/
theorem exists_join_colon {base : List Char} (hb : isAbsolute base = true) (a : Char)
    (rest : List Char) :
    ∃ tail, join base (a :: ':' :: rest) = a :: ':' :: tail ∧
      (isRooted tail = true ∨ Spares base a) := by
  by_cases h : isRooted rest = true ∨ Spares base a
  · exact ⟨rest, join_colon h, h⟩
  rw [not_or] at h
  obtain ⟨hr, hs⟩ := h
  unfold Spares at hs
  rw [not_or, Decidable.not_not] at hs
  obtain ⟨hl, hne⟩ := hs
  have hrooted := (back_of_isAbsolute hb).resolve_left hne
  unfold join
  simp only [splitDrive_colon]
  rw [if_neg hr, if_neg (by simp [hl])]
  refine ⟨_, attach_colon a _, Or.inl ?_⟩
  obtain ⟨c, tail, hc⟩ := List.exists_cons_of_ne_nil hne
  rw [hc] at hrooted ⊢
  exact hrooted

end Windows

/-! ## Settled paths -/

theorem resolveFrom_of_windows {base path : List Char} (h : Windows.isAbsolute path = true) :
    resolveFrom base path = Windows.normalize path := by
  unfold resolveFrom
  rw [if_pos h]

theorem not_windows_of_posix {path : List Char} (h : Posix.isAbsolute path = true) :
    Windows.isAbsolute path = false := by
  unfold Posix.isAbsolute at h
  cases hw : Windows.isAbsolute path with
  | false => rfl
  | true =>
    rcases Windows.isAbsolute_iff.mp hw with ⟨rest, rfl⟩ | ⟨a, c, rest, rfl, ha, -⟩
    · simp at h
    · have : a = '/' := by simpa using h
      subst this
      exact absurd ha (by decide)

theorem resolveFrom_of_posix {base path : List Char} (h : Posix.isAbsolute path = true) :
    resolveFrom base path = Posix.normalize path := by
  unfold resolveFrom
  rw [not_windows_of_posix h, if_neg Bool.false_ne_true, if_pos h]

/-- A normalized POSIX path is settled. -/
theorem settled_posix {base path : List Char} (h : Posix.isAbsolute path = true) :
    resolveFrom base (Posix.normalize path) = Posix.normalize path := by
  rw [resolveFrom_of_posix (Posix.isAbsolute_normalize h), Posix.normalize_normalize]

/-- A normalized Windows path is settled if it is absolute. -/
theorem settled_windows {base path : List Char} (h : Windows.isAbsolute path = true) :
    resolveFrom base (Windows.normalize path) = Windows.normalize path := by
  obtain ⟨habs, hn⟩ := Windows.normalize_of_isAbsolute h
  rw [resolveFrom_of_windows habs, hn]

/-- A path joined with an absolute Windows directory and normalized is settled. -/
theorem settled_join {base path : List Char} (hb : Windows.isAbsolute base = true)
    (hp : Posix.isAbsolute path = false) :
    resolveFrom base (Windows.normalize (Windows.join base path)) =
      Windows.normalize (Windows.join base path) := by
  rcases Windows.driveLength_cases path with hzero | ⟨a, rest, rfl⟩ | ⟨a, b, rest, rfl, ha, hb'⟩
  · exact settled_windows (Windows.isAbsolute_join hb (by simp [Windows.splitDrive, hzero]))
  · have hslash : a ≠ '/' := by simpa [Posix.isAbsolute] using hp
    obtain ⟨tail, hj, hkeep⟩ := Windows.exists_join_colon hb a rest
    obtain ⟨hne, tail', hn, hr⟩ := Windows.normalize_colon tail hslash
    have hsettled := Windows.normalize_normalize hne
    rw [hj]
    rw [hn] at hsettled ⊢
    rw [← hr] at hkeep
    -- the letter may be that of a drive without a root, which is joined once more
    by_cases habs : Windows.isAbsolute (a :: ':' :: tail') = true
    · rw [resolveFrom_of_windows habs, hsettled]
    · unfold resolveFrom
      rw [if_neg habs, if_neg (by simpa [Posix.isAbsolute] using hslash), if_pos hb,
        Windows.join_colon hkeep, hsettled]
  · obtain ⟨t, ht⟩ := Windows.join_eq_append base (a :: b :: rest)
    obtain ⟨d, hd⟩ := Windows.splitDrive_separators rest ha hb'
    rw [hd] at ht
    obtain ⟨hne, tail, hn⟩ := Windows.normalize_separators (d ++ t) ha hb'
    have hsettled := Windows.normalize_normalize hne
    rw [show Windows.join base (a :: b :: rest) = a :: b :: (d ++ t) from ht]
    rw [hn] at hsettled ⊢
    rw [resolveFrom_of_windows rfl, hsettled]

/-- Resolving a second time from an absolute directory changes nothing. -/
theorem resolveFrom_resolveFrom {base : List Char} (h : IsAbsolute base) (path : List Char) :
    resolveFrom base (resolveFrom base path) = resolveFrom base path := by
  by_cases hw : Windows.isAbsolute path = true
  · rw [resolveFrom_of_windows hw]
    exact settled_windows hw
  by_cases hp : Posix.isAbsolute path = true
  · rw [resolveFrom_of_posix hp]
    exact settled_posix hp
  by_cases hb : Windows.isAbsolute base = true
  · have hr : resolveFrom base path = Windows.normalize (Windows.join base path) := by
      unfold resolveFrom
      rw [if_neg hw, if_neg hp, if_pos hb]
    rw [hr]
    exact settled_join hb (by simpa using hp)
  · have hr : resolveFrom base path = Posix.normalize (Posix.join base path) := by
      unfold resolveFrom
      rw [if_neg hw, if_neg hp, if_neg hb]
    rw [hr]
    exact settled_posix (Posix.isAbsolute_join (h.resolve_left hb))

end BuildCommands.Path
