import BuildCommands.Proofs.NormalForm
import Mathlib.Data.List.TakeWhile

/-!
# Drives and normal forms of Windows paths

A drive ends where its letter's colon stands, or at the separator behind the share, or with the
path.  What stands behind the drive does not matter for its length (`driveLength_append`), so a
normalized path has the drive of the path, and normalizing it again changes nothing.
-/

namespace BuildCommands.Path.Windows

/-! ## Backslashes -/

theorem backslashed_cons (c : Char) (cs : List Char) :
    backslashed (c :: cs) = (if c = '/' then '\\' else c) :: backslashed cs :=
  rfl

theorem not_mem_backslashed (path : List Char) : '/' ∉ backslashed path := by
  intro h
  obtain ⟨c, -, hc⟩ := List.mem_map.mp h
  split at hc
  · cases hc
  · next hne => exact hne hc

theorem backslashed_of_not_mem {path : List Char} (h : '/' ∉ path) : backslashed path = path := by
  induction path with
  | nil => rfl
  | cons c rest ih =>
    rw [List.mem_cons, not_or] at h
    rw [backslashed_cons, if_neg (Ne.symm h.1), ih h.2]

/-- Without slashes only the backslash separates. -/
theorem eq_of_isSeparator {path : List Char} (h : '/' ∉ path) {c : Char} (hc : c ∈ path)
    (hs : isSeparator c = true) : c = '\\' := by
  unfold isSeparator at hs
  simp only [Bool.or_eq_true, beq_iff_eq] at hs
  rcases hs with hs | rfl
  · exact hs
  · exact absurd hc h

/-! ## Runs without separators -/

theorem separatorBehind?_append {run : List Char} {c : Char} (tail : List Char)
    (hrun : ∀ x ∈ run, isSeparator x = false) (hc : isSeparator c = true) :
    separatorBehind? (run ++ c :: tail) = some run.length := by
  have htake : (run ++ c :: tail).takeWhile (! isSeparator ·) = run := by
    rw [List.takeWhile_append_of_pos (by simpa using hrun), List.takeWhile_cons_of_neg (by simp [hc]),
      List.append_nil]
  unfold separatorBehind?
  rw [htake, if_pos (by simp)]

theorem exists_of_separatorBehind? {path : List Char} {n : Nat}
    (h : separatorBehind? path = some n) :
    ∃ run c tail, path = run ++ c :: tail ∧ run.length = n ∧
      (∀ x ∈ run, isSeparator x = false) ∧ isSeparator c = true := by
  unfold separatorBehind? at h
  simp only at h
  split at h
  · next hlt =>
    cases h
    have hsplit := List.takeWhile_append_dropWhile (p := (! isSeparator ·)) (l := path)
    cases hd : path.dropWhile (! isSeparator ·) with
    | nil =>
      rw [hd, List.append_nil] at hsplit
      rw [hsplit] at hlt
      exact absurd hlt (Nat.lt_irrefl _)
    | cons c tail =>
      have hc := List.head?_dropWhile_not (! isSeparator ·) path
      rw [hd] at hsplit hc
      refine ⟨_, c, tail, hsplit.symm, rfl, fun x hx => ?_, by simpa using hc⟩
      simpa using List.mem_takeWhile_imp hx
  · cases h

/-! ## The length of a drive -/

theorem driveLength_colon (a : Char) (rest : List Char) : driveLength (a :: ':' :: rest) = 2 := by
  simp [driveLength, isSeparator]

theorem two_le_serverOffset (path : List Char) : 2 ≤ serverOffset path := by
  unfold serverOffset
  split <;> omega

/-- A path that starts with two separators has a drive that does. -/
theorem two_le_driveLength {a b : Char} (rest : List Char) (ha : isSeparator a = true)
    (hb : isSeparator b = true) : 2 ≤ driveLength (a :: b :: rest) := by
  have hs := two_le_serverOffset (backslashed (a :: b :: rest))
  simp only [driveLength, ha, hb, Bool.and_self, if_true]
  split
  · simp
  split
  · simp
  · omega

/-- A path with a drive has a colon behind its first character, or two separators in front. -/
theorem driveLength_cases (path : List Char) :
    driveLength path = 0 ∨ (∃ a rest, path = a :: ':' :: rest) ∨
      ∃ a b rest, path = a :: b :: rest ∧ isSeparator a = true ∧ isSeparator b = true := by
  match path with
  | [] => exact Or.inl rfl
  | [_] => exact Or.inl rfl
  | a :: b :: rest =>
    by_cases hsep : isSeparator a = true ∧ isSeparator b = true
    · exact Or.inr (Or.inr ⟨a, b, rest, rfl, hsep⟩)
    by_cases hb : b = ':'
    · exact Or.inr (Or.inl ⟨a, rest, by rw [hb]⟩)
    · left
      have hneg : ¬ (isSeparator a && isSeparator b) = true := by simpa using hsep
      simp only [driveLength, if_neg hneg, if_neg hb]

/-! ## Shares -/

/-- A drive with a server and a share, the server's name starting at the given place. -/
def IsShare (start : Nat) (drive : List Char) : Prop :=
  ∃ lead server c share, drive = lead ++ (server ++ c :: share) ∧ lead.length = start ∧
    (∀ x ∈ server, isSeparator x = false) ∧ isSeparator c = true ∧
    ∀ x ∈ share, isSeparator x = false

/-- The drive of a path with two separators in front is the path, or ends in front of a separator
behind a server and a share. -/
theorem driveLength_of_separators {a b : Char} (rest : List Char) (ha : isSeparator a = true)
    (hb : isSeparator b = true) :
    driveLength (a :: b :: rest) = (a :: b :: rest).length ∨
      ∃ drive c tail, a :: b :: rest = drive ++ c :: tail ∧ isSeparator c = true ∧
        driveLength (a :: b :: rest) = drive.length ∧
        IsShare (serverOffset (backslashed (a :: b :: rest))) drive := by
  simp only [driveLength, ha, hb, Bool.and_self, if_true]
  generalize a :: b :: rest = path
  generalize serverOffset (backslashed path) = start
  split
  · exact Or.inl rfl
  next server h1 =>
  split
  · exact Or.inl rfl
  next share h2 =>
  right
  obtain ⟨run1, c1, tail1, e1, rfl, hrun1, hc1⟩ := exists_of_separatorBehind? h1
  obtain ⟨run2, c2, tail2, e2, rfl, hrun2, hc2⟩ := exists_of_separatorBehind? h2
  have hle : start ≤ path.length := by
    rcases Nat.le_total start path.length with hle | hle
    · exact hle
    · rw [List.drop_eq_nil_of_le hle] at e1
      simp at e1
  have hlead : (path.take start).length = start := List.length_take_of_le hle
  have e3 : tail1 = run2 ++ c2 :: tail2 := by
    rw [← e2, Nat.add_assoc, ← List.drop_drop, e1]
    simp
  refine ⟨path.take start ++ (run1 ++ c1 :: run2), c2, tail2, ?_, hc2, ?_,
    path.take start, run1, c1, run2, rfl, hlead, hrun1, hc1, hrun2⟩
  · conv => lhs; rw [← List.take_append_drop start path, e1, e3]
    simp
  · simp only [List.length_append, List.length_cons, hlead]
    omega

theorem driveLength_of_isShare {a b : Char} {drive tail : List Char}
    (ha : isSeparator a = true) (hb : isSeparator b = true) (hd : drive.take 2 = [a, b])
    (h : IsShare (serverOffset (backslashed (drive ++ '\\' :: tail))) drive) :
    driveLength (drive ++ '\\' :: tail) = drive.length := by
  obtain ⟨lead, server, c, share, hdrive, hlead, hserver, hc, hshare⟩ := h
  obtain ⟨d, hcons⟩ : ∃ d, drive ++ '\\' :: tail = a :: b :: d := by
    refine ⟨drive.drop 2 ++ '\\' :: tail, ?_⟩
    conv => lhs; rw [← List.take_append_drop 2 drive, hd]
    rfl
  have e1 : (drive ++ '\\' :: tail).drop lead.length =
      server ++ c :: (share ++ '\\' :: tail) := by
    rw [hdrive]
    simp
  have e2 : (drive ++ '\\' :: tail).drop (lead.length + server.length + 1) =
      share ++ '\\' :: tail := by
    rw [Nat.add_assoc, ← List.drop_drop, e1]
    simp
  have h1 := separatorBehind?_append (share ++ '\\' :: tail) hserver hc
  have h2 := separatorBehind?_append (c := '\\') tail hshare rfl
  rw [hcons] at e1 e2 hlead ⊢
  simp only [driveLength, ha, hb, Bool.and_self, if_true, ← hlead, e1, e2, h1, h2]
  rw [hdrive]
  simp only [List.length_append, List.length_cons]
  omega

/-! ## What stands behind a drive -/

/-- The text behind a drive does not matter for where its server's name starts. -/
theorem serverOffset_append {drive : List Char} (hlen : 3 ≤ drive.length)
    (hslash : drive.length = 3 → drive[2]? = some '\\') (tail tail' : List Char) :
    serverOffset (drive ++ '\\' :: tail) = serverOffset (drive ++ '\\' :: tail') := by
  have hget : ∀ {path : List Char}, (path.take 8).map Char.toLower = deviceLead → ∀ k < 8,
      path[k]?.map Char.toLower = deviceLead[k]? := by
    intro path h k hk
    rw [← h, List.getElem?_map, List.getElem?_take_of_lt hk]
  have himp : ∀ tail tail' : List Char,
      ((drive ++ '\\' :: tail).take 8).map Char.toLower = deviceLead →
      ((drive ++ '\\' :: tail').take 8).map Char.toLower = deviceLead := by
    intro tail tail' h
    rcases Nat.lt_or_ge drive.length 7 with hlt | hge
    · -- the backslash behind the drive would have to be one of the lead's, or its third character
      exfalso
      have hnext := hget h drive.length (by omega)
      rw [List.getElem?_append_right (Nat.le_refl _), Nat.sub_self, List.getElem?_cons_zero]
        at hnext
      rcases Nat.lt_or_eq_of_le hlen with h4 | h3
      · have hcases : drive.length = 4 ∨ drive.length = 5 ∨ drive.length = 6 := by omega
        rcases hcases with hk | hk | hk <;> rw [hk] at hnext <;> exact absurd hnext (by decide)
      · have htwo := hget h 2 (by omega)
        rw [List.getElem?_append_left (by omega), hslash h3.symm] at htwo
        exact absurd htwo (by decide)
    · have htake : ∀ t : List Char, (drive ++ '\\' :: t).take 8 = (drive ++ ['\\']).take 8 := by
        intro t
        rw [show drive ++ '\\' :: t = (drive ++ ['\\']) ++ t by simp,
          List.take_append_of_le_length (by simp; omega)]
      rw [htake] at h ⊢
      exact h
  unfold serverOffset
  by_cases h : ((drive ++ '\\' :: tail).take 8).map Char.toLower = deviceLead
  · rw [if_pos h, if_pos (himp _ _ h)]
  · rw [if_neg h, if_neg fun h' => h (himp _ _ h')]

/-- The text behind a drive with a share does not matter for its length. -/
theorem driveLength_append {a b : Char} {drive tail : List Char} (tail' : List Char)
    (ha : isSeparator a = true) (hb : isSeparator b = true) (hd : drive.take 2 = [a, b])
    (hs : '/' ∉ drive ++ '\\' :: tail) (hs' : '/' ∉ drive ++ '\\' :: tail')
    (hshare : IsShare (serverOffset (drive ++ '\\' :: tail)) drive) :
    driveLength (drive ++ '\\' :: tail') = drive.length := by
  apply driveLength_of_isShare ha hb hd
  rw [backslashed_of_not_mem hs']
  obtain ⟨lead, server, c, share, hdrive, hlead, -, hc, -⟩ := id hshare
  have htwo := two_le_serverOffset (drive ++ '\\' :: tail)
  have hlen : drive.length = lead.length + (server.length + (share.length + 1)) := by
    rw [hdrive]
    simp
  have hcs : c = '\\' := by
    refine eq_of_isSeparator hs (List.mem_append_left _ ?_) hc
    rw [hdrive]
    simp
  have hthird : drive.length = 3 → drive[2]? = some '\\' := by
    intro h3
    have h2 : lead.length = 2 := by omega
    have h0 : server = [] := List.length_eq_zero_iff.mp (by omega)
    rw [hdrive, h0, hcs, List.getElem?_append_right (by omega), h2]
    rfl
  rw [serverOffset_append (by omega) hthird tail' tail]
  exact hshare

/-! ## Normal form -/

/-- The drive of a path, with backslashes. -/
def drive (path : List Char) : List Char := (splitDrive (backslashed path)).1

/-- The text behind the drive of a path, with backslashes. -/
def back (path : List Char) : List Char := (splitDrive (backslashed path)).2

/-- The drive of a path and the backslash right behind it, if there is one. -/
def front (path : List Char) : List Char :=
  if (back path).head? == some '\\' then drive path ++ ['\\'] else drive path

/-- What the normal form of a path has behind the drive. -/
def normalBack (path : List Char) : List Char :=
  (if (back path).head? == some '\\' then ['\\'] else []) ++
    reducedText ((front path).getLast? == some '\\') '\\' (back path)

theorem front_append (path text : List Char) :
    front path ++ text =
      drive path ++ ((if (back path).head? == some '\\' then ['\\'] else []) ++ text) := by
  unfold front
  split
  · simp
  · simp

theorem normalize_front (path : List Char) :
    normalize path =
      if (front path).isEmpty &&
          (reduce ((front path).getLast? == some '\\') (splitAt (· == '\\') (back path))).isEmpty
        then here
      else front path ++ reducedText ((front path).getLast? == some '\\') '\\' (back path) :=
  rfl

/-- The normal form of a path with a drive. -/
theorem normalize_eq {path : List Char} (h : drive path ≠ []) :
    normalize path = drive path ++ normalBack path := by
  have hfront : (front path).isEmpty = false := by
    unfold front
    split
    · simp
    · simpa using h
  rw [normalize_front, hfront, Bool.false_and, if_neg Bool.false_ne_true, front_append]
  rfl

/-- A backslash behind the drive stays, and none is put there. -/
theorem head?_normalBack (path : List Char) :
    ((normalBack path).head? == some '\\') = ((back path).head? == some '\\') := by
  unfold normalBack
  split
  · next h => simp [h]
  · next h =>
    rw [List.nil_append, Bool.eq_false_iff.mpr h]
    simpa using head?_reducedText _ '\\' (back path)

theorem not_mem_normalize {path : List Char} (h : drive path ≠ []) : '/' ∉ normalize path := by
  rw [normalize_eq h]
  have hb := not_mem_backslashed path
  intro hmem
  rcases List.mem_append.mp hmem with hmem | hmem
  · exact hb (List.mem_of_mem_take hmem)
  rcases List.mem_append.mp hmem with hmem | hmem
  · split at hmem
    · simp at hmem
    · cases hmem
  · rcases mem_reducedText _ _ _ hmem with hmem | hmem
    · cases hmem
    · exact hb (List.mem_of_mem_drop hmem)

/-- A normalized path has the drive of the path. -/
theorem splitDrive_normalize {path : List Char} (h : drive path ≠ []) :
    splitDrive (normalize path) = (drive path, normalBack path) := by
  suffices hlen : driveLength (normalize path) = (drive path).length by
    unfold splitDrive
    rw [hlen, normalize_eq h, List.take_left, List.drop_left]
  have hslash := not_mem_normalize h
  have hb := not_mem_backslashed path
  have hsplit : backslashed path = drive path ++ back path :=
    (List.take_append_drop _ _).symm
  rw [normalize_eq h] at hslash ⊢
  rcases driveLength_cases (backslashed path) with hzero | ⟨a, rest, hcolon⟩ | ⟨a, b, rest, hab, ha, hb'⟩
  · exact absurd (by simp [drive, splitDrive, hzero]) h
  · have hd : drive path = [a, ':'] := by
      simp [drive, splitDrive, hcolon, driveLength_colon]
    rw [hd]
    exact driveLength_colon a _
  · rcases driveLength_of_separators rest ha hb' with hall | ⟨d, c, tail, hdc, hc, hlen, hshare⟩
    · rw [← hab] at hall
      have hd : drive path = backslashed path := by simp [drive, splitDrive, hall]
      have hnil : back path = [] := by simp [back, splitDrive, hall]
      have hn : normalBack path = [] := by
        unfold normalBack
        rw [hnil]
        rfl
      rw [hn, List.append_nil, hd, hall]
    · rw [← hab] at hdc hlen hshare
      have hcs : c = '\\' := eq_of_isSeparator hb (by simp [hdc]) hc
      subst hcs
      have hd : drive path = d := by
        unfold drive splitDrive
        rw [hlen, hdc, List.take_left]
      have hback : back path = '\\' :: tail := by
        unfold back splitDrive
        rw [hlen, hdc, List.drop_left]
      have htwo : 2 ≤ d.length := by
        rw [← hlen, hab]
        exact two_le_driveLength rest ha hb'
      have htake : d.take 2 = [a, b] := by
        have h := congrArg (List.take 2) (hab.symm.trans hdc)
        rw [List.take_append_of_le_length htwo] at h
        exact h.symm
      rw [hd] at hslash ⊢
      unfold normalBack at hslash ⊢
      rw [hback] at hslash ⊢
      rw [backslashed_of_not_mem hb, hdc] at hshare
      rw [hdc] at hb
      exact driveLength_append _ ha hb' htake hb hslash hshare

/-- Normalizing a path with a drive a second time changes nothing. -/
theorem normalize_normalize {path : List Char} (h : drive path ≠ []) :
    normalize (normalize path) = normalize path := by
  have hslash := backslashed_of_not_mem (not_mem_normalize h)
  have hdrive : drive (normalize path) = drive path := by
    unfold drive
    rw [hslash, splitDrive_normalize h]
    rfl
  have hback : back (normalize path) = normalBack path := by
    unfold back
    rw [hslash, splitDrive_normalize h]
  have hfront : front (normalize path) = front path := by
    unfold front
    rw [hdrive, hback, head?_normalBack]
  have htext : reducedText ((front path).getLast? == some '\\') '\\' (normalBack path) =
      reducedText ((front path).getLast? == some '\\') '\\' (back path) := by
    unfold normalBack
    split
    · rw [List.singleton_append, reducedText_cons_self, reducedText_reducedText]
    · rw [List.nil_append, reducedText_reducedText]
  have hnormal : normalBack (normalize path) = normalBack path := by
    conv => lhs; unfold normalBack
    rw [hfront, hback, head?_normalBack, htext]
    rfl
  calc normalize (normalize path)
      = drive (normalize path) ++ normalBack (normalize path) := normalize_eq (hdrive ▸ h)
    _ = drive path ++ normalBack path := by rw [hdrive, hnormal]
    _ = normalize path := (normalize_eq h).symm

end BuildCommands.Path.Windows
