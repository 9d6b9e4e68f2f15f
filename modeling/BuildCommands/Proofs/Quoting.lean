import BuildCommands.CommandLine.Argument
import BuildCommands.Proofs.Lists
import Mathlib.Data.List.Induction

/-!
# Quotes and separators by position

The scan keeps two flags.  Here is what they stand for, said of the text alone: a quote is active
when an even run of backslashes ends right before it, and a space or tab separates when an even
number of active quotes stands before it.

    ScanState.after cs = ⟨odd run at the end, odd number of active quotes⟩   (after_eq)
    (after pre).separates c ↔ Separator (pre ++ c :: rest) pre.length        (separates_iff)
-/

namespace BuildCommands.Argument

/-! ## Definitions -/

/-- The length of the run of backslashes that ends a text. -/
def backslashRun (cs : List Char) : Nat := trailingRun (· == '\\') cs

/-- A quote at this position opens or closes a quoted run. -/
def ActiveQuote (cs : List Char) (i : Nat) : Prop :=
  cs[i]? = some '"' ∧ backslashRun (cs.take i) % 2 = 0

instance (cs : List Char) (i : Nat) : Decidable (ActiveQuote cs i) :=
  inferInstanceAs (Decidable (_ ∧ _))

/-- How many quotes of a text are active. -/
def activeQuotes (cs : List Char) : Nat := (List.range cs.length).countP (ActiveQuote cs ·)

/-- A space or tab at this position stands outside quotes. -/
def Separator (cs : List Char) (i : Nat) : Prop :=
  (cs[i]? = some ' ' ∨ cs[i]? = some '\t') ∧ activeQuotes (cs.take i) % 2 = 0

instance (cs : List Char) (i : Nat) : Decidable (Separator cs i) :=
  inferInstanceAs (Decidable (_ ∧ _))

/-! ## One more character -/

@[simp] theorem backslashRun_nil : backslashRun [] = 0 := rfl

theorem backslashRun_concat (cs : List Char) (c : Char) :
    backslashRun (cs ++ [c]) = if c = '\\' then backslashRun cs + 1 else 0 := by
  unfold backslashRun
  rw [trailingRun_concat]
  simp only [beq_iff_eq]

@[simp] theorem activeQuotes_nil : activeQuotes [] = 0 := rfl

/-- Whether a quote is active depends on the text up to it. -/
theorem activeQuote_append (cs rest : List Char) {i : Nat} (hi : i < cs.length) :
    ActiveQuote (cs ++ rest) i ↔ ActiveQuote cs i := by
  unfold ActiveQuote
  rw [List.getElem?_append_left hi, List.take_append_of_le_length (Nat.le_of_lt hi)]

theorem activeQuote_length (cs rest : List Char) (c : Char) :
    ActiveQuote (cs ++ c :: rest) cs.length ↔ c = '"' ∧ backslashRun cs % 2 = 0 := by
  unfold ActiveQuote
  rw [List.getElem?_append_right (Nat.le_refl _), List.take_left]
  simp

theorem activeQuotes_concat (cs : List Char) (c : Char) :
    activeQuotes (cs ++ [c]) =
      activeQuotes cs + if c = '"' ∧ backslashRun cs % 2 = 0 then 1 else 0 := by
  unfold activeQuotes
  rw [List.length_append, List.length_singleton, List.range_succ, List.countP_append,
    List.countP_singleton]
  congr 1
  · refine List.countP_congr fun i hi => ?_
    rw [List.mem_range] at hi
    simp only [decide_eq_true_eq]
    exact activeQuote_append cs [c] hi
  · simp only [decide_eq_true_eq, activeQuote_length]

theorem Separator.lt_length {cs : List Char} {k : Nat} (h : Separator cs k) : k < cs.length := by
  rcases Nat.lt_or_ge k cs.length with hk | hk
  · exact hk
  · have hc := h.1
    rw [List.getElem?_eq_none hk] at hc
    simp at hc

/-- Whether a character separates depends on the text up to it. -/
theorem separator_append (cs rest : List Char) {k : Nat} (hk : k < cs.length) :
    Separator (cs ++ rest) k ↔ Separator cs k := by
  unfold Separator
  rw [List.getElem?_append_left hk, List.take_append_of_le_length (Nat.le_of_lt hk)]

/-! ## The scan -/

@[simp] theorem after_nil : ScanState.after [] = .start := rfl

theorem after_concat (cs : List Char) (c : Char) :
    ScanState.after (cs ++ [c]) = (ScanState.after cs).next c := by
  unfold ScanState.after
  rw [List.foldl_append]
  rfl

/-- One more changes the parity. -/
theorem odd_succ (n : Nat) : decide ((n + 1) % 2 = 1) = !decide (n % 2 = 1) := by
  rw [← decide_not, decide_eq_decide]
  omega

/-- The flags of the scan behind a text. -/
theorem after_eq (cs : List Char) :
    ScanState.after cs =
      ⟨decide (backslashRun cs % 2 = 1), decide (activeQuotes cs % 2 = 1)⟩ := by
  induction cs using List.reverseRecOn with
  | nil => rfl
  | append_singleton cs c ih =>
    rw [after_concat, ih, backslashRun_concat, activeQuotes_concat]
    by_cases hb : c = '\\'
    · subst hb
      simp only [ScanState.next, if_true, odd_succ]
      simp
    by_cases hq : c = '"'
    · subst hq
      rcases Nat.mod_two_eq_zero_or_one (backslashRun cs) with hr | hr
      · simp only [hr, and_self, if_true, odd_succ]
        simp [ScanState.next]
      · simp [ScanState.next, hr]
    · simp [ScanState.next, hb, hq]

/-- The scan stops at the separators. -/
theorem separates_iff (pre rest : List Char) (c : Char) :
    (ScanState.after pre).separates c = true ↔ Separator (pre ++ c :: rest) pre.length := by
  unfold ScanState.separates Separator isSeparator
  rw [after_eq, List.getElem?_append_right (Nat.le_refl _), List.take_left]
  simp only [Bool.and_eq_true, Bool.not_eq_true', decide_eq_false_iff_not, Bool.or_eq_true,
    beq_iff_eq, Nat.sub_self, List.getElem?_cons_zero, Option.some.injEq]
  constructor
  · rintro ⟨h, hc⟩
    exact ⟨hc, by omega⟩
  · rintro ⟨hc, h⟩
    exact ⟨by omega, hc⟩

end BuildCommands.Argument
