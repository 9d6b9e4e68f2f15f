import BuildCommands.Path.Posix
import BuildCommands.Path.Windows
import BuildCommands.Proofs.Lists

/-!
# Normal forms of paths

`reduce` works on a stack of components; `Kept` is what holds of the stack at all times, and a stack
of that form is reduced already.  So the components of a normalized path are its reduced components,
and normalizing a second time changes nothing:

    reduce rooted (splitAt (· == sep) (joinWith sep (reduce rooted cs))) = reduce rooted cs
    Posix.normalize (Posix.normalize path) = Posix.normalize path          (normalize_normalize)
-/

namespace BuildCommands.Path

/-! ## Splitting and joining -/

theorem splitAt_eq_splitOnP (isSeparator : Char → Bool) (cs : List Char) :
    splitAt isSeparator cs = cs.splitOnP isSeparator := by
  induction cs with
  | nil => rfl
  | cons c rest ih =>
    rw [splitAt, ih, List.splitOnP_cons_eq_if_modifyHead]
    split
    · rfl
    · cases h : rest.splitOnP isSeparator with
      | nil => exact absurd h (List.splitOnP_ne_nil _ _)
      | cons piece pieces => rfl

/-- The pieces hold the characters of the text that do not separate. -/
theorem of_mem_splitAt {isSeparator : Char → Bool} {x : Char} (cs : List Char) :
    ∀ piece ∈ splitAt isSeparator cs, x ∈ piece → isSeparator x = false ∧ x ∈ cs := by
  induction cs with
  | nil => simp [splitAt]
  | cons c rest ih =>
    have hrest : ∀ piece ∈ splitAt isSeparator rest, x ∈ piece →
        isSeparator x = false ∧ x ∈ c :: rest := by
      intro piece hp hx
      obtain ⟨h1, h2⟩ := ih piece hp hx
      exact ⟨h1, List.mem_cons_of_mem _ h2⟩
    intro piece hp hx
    rw [splitAt_eq_splitOnP, List.splitOnP_cons_eq_if_modifyHead, ← splitAt_eq_splitOnP] at hp
    split at hp
    · rcases List.mem_cons.mp hp with rfl | hp
      · cases hx
      · exact hrest piece hp hx
    · next hc =>
      cases h : splitAt isSeparator rest with
      | nil =>
        rw [splitAt_eq_splitOnP] at h
        exact absurd h (List.splitOnP_ne_nil _ _)
      | cons first pieces =>
        rw [h, List.modifyHead_cons] at hp
        rw [h] at hrest
        rcases List.mem_cons.mp hp with rfl | hp
        · rcases List.mem_cons.mp hx with rfl | hx
          · exact ⟨by simpa using hc, List.mem_cons_self⟩
          · exact hrest first List.mem_cons_self hx
        · exact hrest piece (List.mem_cons_of_mem _ hp) hx

theorem splitAt_joinWith {s : Char} {components : List (List Char)}
    (hs : ∀ c ∈ components, s ∉ c) (hne : components ≠ []) :
    splitAt (· == s) (joinWith s components) = components := by
  rw [splitAt_eq_splitOnP]
  exact List.splitOn_intercalate s hs hne

/-- A separator in front adds an empty piece. -/
theorem splitAt_cons_self (s : Char) (cs : List Char) :
    splitAt (· == s) (s :: cs) = [] :: splitAt (· == s) cs := by
  rw [splitAt, if_pos (by simp)]

/-! ## Stacks of components -/

/-- A stack that the reduction leaves as it is: no component is empty or names the directory itself,
and one that names the directory above has only such components below, and no root. -/
def Kept (rooted : Bool) : List (List Char) → Prop
  | [] => True
  | c :: rest => c ≠ [] ∧ c ≠ here ∧ (c = above → rooted = false ∧ ∀ d ∈ rest, d = above) ∧
    Kept rooted rest

theorem Kept.ne_nil {rooted : Bool} {components : List (List Char)}
    (h : Kept rooted components.reverse) : ∀ c ∈ components, c ≠ [] := by
  have hkept : ∀ kept : List (List Char), Kept rooted kept → ∀ c ∈ kept, c ≠ [] := by
    intro kept
    induction kept with
    | nil => simp
    | cons d rest ih =>
      intro hk c hc
      rcases List.mem_cons.mp hc with rfl | hc
      · exact hk.1
      · exact ih hk.2.2.2 c hc
  exact fun c hc => hkept _ h c (List.mem_reverse.mpr hc)

theorem above_ne_nil : above ≠ [] := List.cons_ne_nil _ _

theorem above_ne_here : above ≠ here := by decide

theorem pushComponent_kept {rooted : Bool} {kept : List (List Char)} (c : List Char)
    (h : Kept rooted kept) : Kept rooted (pushComponent rooted kept c) := by
  unfold pushComponent
  by_cases hskip : c = [] ∨ c = here
  · rw [if_pos hskip]
    exact h
  rw [if_neg hskip]
  by_cases ha : c = above
  · rw [if_pos ha]
    cases kept with
    | nil =>
      cases rooted with
      | true => exact h
      | false => exact ⟨above_ne_nil, above_ne_here, fun _ => ⟨rfl, by simp⟩, trivial⟩
    | cons last rest =>
      by_cases hl : last = above
      · obtain ⟨hr, hrest⟩ := h.2.2.1 hl
        simp only [if_pos hl]
        refine ⟨above_ne_nil, above_ne_here, fun _ => ⟨hr, ?_⟩, h⟩
        intro d hd
        rcases List.mem_cons.mp hd with rfl | hd
        · exact hl
        · exact hrest d hd
      · simp only [if_neg hl]
        exact h.2.2.2
  · rw [if_neg ha]
    exact ⟨fun hc => hskip (Or.inl hc), fun hc => hskip (Or.inr hc), fun hc => absurd hc ha, h⟩

/-- On a stack of this form the top is where the reduction puts it. -/
theorem pushComponent_of_kept {rooted : Bool} {c : List Char} {rest : List (List Char)}
    (h : Kept rooted (c :: rest)) : pushComponent rooted rest c = c :: rest := by
  obtain ⟨hnil, hhere, habove, -⟩ := h
  unfold pushComponent
  rw [if_neg (by simp [hnil, hhere])]
  by_cases ha : c = above
  · obtain ⟨hr, hrest⟩ := habove ha
    rw [if_pos ha, ha]
    cases rest with
    | nil => simp [hr]
    | cons last rest => simp [hrest last List.mem_cons_self]
  · rw [if_neg ha]

theorem foldl_pushComponent_kept {rooted : Bool} (components : List (List Char)) :
    ∀ kept, Kept rooted kept → Kept rooted (components.foldl (pushComponent rooted) kept) := by
  induction components with
  | nil => exact fun kept h => h
  | cons c components ih => exact fun kept h => ih _ (pushComponent_kept c h)

theorem foldl_reverse_of_kept {rooted : Bool} {kept : List (List Char)} (h : Kept rooted kept) :
    kept.reverse.foldl (pushComponent rooted) [] = kept := by
  induction kept with
  | nil => rfl
  | cons c rest ih =>
    rw [List.reverse_cons, List.foldl_append, ih h.2.2.2]
    exact pushComponent_of_kept h

theorem reduce_kept (rooted : Bool) (components : List (List Char)) :
    Kept rooted (reduce rooted components).reverse := by
  unfold reduce
  rw [List.reverse_reverse]
  exact foldl_pushComponent_kept components [] trivial

/-- Reducing a second time changes nothing. -/
theorem reduce_reduce (rooted : Bool) (components : List (List Char)) :
    reduce rooted (reduce rooted components) = reduce rooted components := by
  have h := foldl_reverse_of_kept (reduce_kept rooted components)
  rw [List.reverse_reverse] at h
  rw [reduce, h, List.reverse_reverse]

/-- An empty component in front is dropped. -/
@[simp] theorem reduce_nil_cons (rooted : Bool) (components : List (List Char)) :
    reduce rooted ([] :: components) = reduce rooted components := by
  simp [reduce, pushComponent]

theorem mem_pushComponent {rooted : Bool} {kept : List (List Char)} {c d : List Char}
    (h : d ∈ pushComponent rooted kept c) : d ∈ kept ∨ d = c := by
  unfold pushComponent at h
  split at h
  · exact Or.inl h
  split at h
  · next ha =>
    subst ha
    split at h
    · split at h <;> simp_all
    · split at h
      · exact (List.mem_cons.mp h).symm
      · exact Or.inl (List.mem_cons_of_mem _ h)
  · exact (List.mem_cons.mp h).symm

/-- What is left are components of the path. -/
theorem mem_of_mem_reduce {rooted : Bool} {components : List (List Char)} {d : List Char}
    (h : d ∈ reduce rooted components) : d ∈ components := by
  have hfold : ∀ (components kept : List (List Char)),
      d ∈ components.foldl (pushComponent rooted) kept → d ∈ kept ∨ d ∈ components := by
    intro components
    induction components with
    | nil => exact fun kept h => Or.inl h
    | cons c components ih =>
      intro kept h
      rcases ih _ h with h | h
      · rcases mem_pushComponent h with h | rfl
        · exact Or.inl h
        · exact Or.inr List.mem_cons_self
      · exact Or.inr (List.mem_cons_of_mem _ h)
  rcases hfold components [] (List.mem_reverse.mp h) with h | h
  · cases h
  · exact h

/-! ## Reduced texts -/

/-- The reduced components of a text with separators between them. -/
def reducedText (rooted : Bool) (s : Char) (cs : List Char) : List Char :=
  joinWith s (reduce rooted (splitAt (· == s) cs))

section
variable (rooted : Bool) (s : Char) (cs : List Char)

theorem not_mem_reduce : ∀ c ∈ reduce rooted (splitAt (· == s) cs), s ∉ c := by
  intro c hc hs
  have h := (of_mem_splitAt cs c (mem_of_mem_reduce hc) hs).1
  simp at h

/-- A reduced text has its components. -/
theorem reduce_reducedText :
    reduce rooted (splitAt (· == s) (reducedText rooted s cs)) =
      reduce rooted (splitAt (· == s) cs) := by
  unfold reducedText
  by_cases hne : reduce rooted (splitAt (· == s) cs) = []
  · rw [hne]
    rfl
  · rw [splitAt_joinWith (not_mem_reduce rooted s cs) hne, reduce_reduce]

/-- Reducing a text a second time changes nothing. -/
theorem reducedText_reducedText :
    reducedText rooted s (reducedText rooted s cs) = reducedText rooted s cs := by
  rw [reducedText, reduce_reducedText]
  rfl

/-- A separator in front is dropped. -/
@[simp] theorem reducedText_cons_self :
    reducedText rooted s (s :: cs) = reducedText rooted s cs := by
  unfold reducedText
  rw [splitAt_cons_self, reduce_nil_cons]

/-- A reduced text does not start with a separator. -/
theorem head?_reducedText : (reducedText rooted s cs).head? ≠ some s := by
  unfold reducedText joinWith
  have hsep := not_mem_reduce rooted s cs
  have hkept := (reduce_kept rooted (splitAt (· == s) cs)).ne_nil
  cases h : reduce rooted (splitAt (· == s) cs) with
  | nil => simp
  | cons c components =>
    rw [h] at hsep hkept
    obtain ⟨x, c', rfl⟩ := List.exists_cons_of_ne_nil (hkept c (by simp))
    have hx : x ≠ s := fun hx => hsep _ List.mem_cons_self (hx ▸ List.mem_cons_self)
    cases components with
    | nil => simpa using hx
    | cons d components => simpa [List.intercalate_cons_cons] using hx

/-- A reduced text holds separators and characters of the text. -/
theorem mem_reducedText {x : Char} (h : x ∈ reducedText rooted s cs) : x = s ∨ x ∈ cs := by
  rcases of_mem_intercalate h with h | ⟨c, hc, hx⟩
  · exact Or.inl h
  · exact Or.inr (of_mem_splitAt cs c (mem_of_mem_reduce hc) hx).2

end

/-! ## POSIX paths -/

namespace Posix

/-- There are no leading slashes, one or two. -/
theorem leadingSlashes_cases (path : List Char) :
    (leadingSlashes path = [] ∧ path.head? ≠ some '/') ∨
      ((leadingSlashes path = ['/'] ∨ leadingSlashes path = ['/', '/']) ∧
        path.head? = some '/') := by
  unfold leadingSlashes
  cases path with
  | nil => exact Or.inl ⟨rfl, by simp⟩
  | cons c rest =>
    by_cases hc : c = '/'
    · right
      subst hc
      rw [List.takeWhile_cons_of_pos (by simp)]
      refine ⟨?_, rfl⟩
      split
      · next h => cases h
      · exact Or.inr rfl
      · exact Or.inl rfl
    · left
      rw [List.takeWhile_cons_of_neg (by simpa using hc)]
      exact ⟨rfl, by simpa using hc⟩

theorem leadingSlashes_append {lead text : List Char}
    (hl : lead = [] ∨ lead = ['/'] ∨ lead = ['/', '/']) (ht : text.head? ≠ some '/') :
    leadingSlashes (lead ++ text) = lead := by
  have htake : text.takeWhile (· == '/') = [] := by
    cases text with
    | nil => rfl
    | cons c rest => exact List.takeWhile_cons_of_neg (by simpa using ht)
  unfold leadingSlashes
  rcases hl with rfl | rfl | rfl
  · simp [htake]
  · simp [htake]
  · simp [htake]

/-- A normalized path in its two parts. -/
theorem normalize_eq (path : List Char) :
    normalize path =
      if (leadingSlashes path ++
          reducedText (!(leadingSlashes path).isEmpty) '/' path).isEmpty then here
      else leadingSlashes path ++ reducedText (!(leadingSlashes path).isEmpty) '/' path :=
  rfl

/-- Normalizing a second time changes nothing. -/
theorem normalize_normalize (path : List Char) : normalize (normalize path) = normalize path := by
  rw [normalize_eq path]
  split
  · rfl
  next hne =>
  generalize hrooted : (!(leadingSlashes path).isEmpty) = rooted at hne ⊢
  have hlead : leadingSlashes path = [] ∨ leadingSlashes path = ['/'] ∨
      leadingSlashes path = ['/', '/'] := by
    rcases leadingSlashes_cases path with ⟨h, -⟩ | ⟨h, -⟩
    · exact Or.inl h
    · exact Or.inr h
  have hdrop : reducedText rooted '/' (leadingSlashes path ++ reducedText rooted '/' path) =
      reducedText rooted '/' path := by
    rcases hlead with h | h | h
    · rw [h, List.nil_append, reducedText_reducedText]
    · rw [h, List.singleton_append, reducedText_cons_self, reducedText_reducedText]
    · rw [h, List.cons_append, List.singleton_append, reducedText_cons_self,
        reducedText_cons_self, reducedText_reducedText]
  rw [normalize_eq, leadingSlashes_append hlead (head?_reducedText rooted '/' path), hrooted, hdrop,
    if_neg hne]

/-- An absolute path stays absolute. -/
theorem isAbsolute_normalize {path : List Char} (h : isAbsolute path = true) :
    isAbsolute (normalize path) = true := by
  have hhead : path.head? = some '/' := by simpa [isAbsolute] using h
  rcases leadingSlashes_cases path with ⟨-, hn⟩ | ⟨hlead, -⟩
  · exact absurd hhead hn
  · rw [normalize_eq]
    rcases hlead with hl | hl
    · simp [hl, isAbsolute]
    · simp [hl, isAbsolute]

/-- What is seen from an absolute directory is absolute. -/
theorem isAbsolute_join {directory path : List Char} (h : isAbsolute directory = true) :
    isAbsolute (join directory path) = true := by
  obtain ⟨rest, rfl⟩ : ∃ rest, directory = '/' :: rest := by
    unfold isAbsolute at h
    cases directory with
    | nil => simp at h
    | cons c rest => exact ⟨rest, by simpa using h⟩
  unfold join
  split
  · next hp => exact hp
  · split
    · rfl
    · rfl

end Posix

end BuildCommands.Path
