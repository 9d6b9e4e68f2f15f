import Mathlib.Algebra.GroupWithZero.Nat
import Mathlib.Data.List.Forall2
import Mathlib.Data.List.Induction

/-!
# Lists

What a list holds that was put together from others, the values up to the first without a partner,
sums over some of a list's values, and the run of values of one sort at either end of a list.
-/

namespace BuildCommands

/-! ## Lists with something between them -/

/-- What stands in lists with one value between them stands in one of them, or is that value. -/
theorem of_mem_intercalate {α : Type} {s x : α} {lists : List (List α)}
    (h : x ∈ [s].intercalate lists) : x = s ∨ ∃ l ∈ lists, x ∈ l := by
  induction lists with
  | nil => cases h
  | cons l lists ih =>
    cases lists with
    | nil =>
      rw [List.intercalate_singleton] at h
      exact Or.inr ⟨l, List.mem_cons_self, h⟩
    | cons m lists =>
      rw [List.intercalate_cons_cons] at h
      rcases List.mem_append.mp h with h | h
      · rcases List.mem_append.mp h with h | h
        · exact Or.inr ⟨l, List.mem_cons_self, h⟩
        · exact Or.inl (List.mem_singleton.mp h)
      · rcases ih h with h | ⟨k, hk, hx⟩
        · exact Or.inl h
        · exact Or.inr ⟨k, List.mem_cons_of_mem _ hk, hx⟩

/-- Lists with something between them begin with the first. -/
theorem exists_intercalate_cons {α : Type} (s l : List α) (lists : List (List α)) :
    ∃ tail, s.intercalate (l :: lists) = l ++ tail := by
  cases lists with
  | nil => exact ⟨[], by rw [List.intercalate_singleton, List.append_nil]⟩
  | cons m lists => exact ⟨_, by rw [List.intercalate_cons_cons, List.append_assoc]⟩

/-! ## Up to the first value without a partner -/

/-- Every value has its partner, or the values before the first that has none have theirs. -/
theorem exists_forall₂_or_first {α β : Type} (R : α → β → Prop) (l : List α) :
    (∃ partners, List.Forall₂ R l partners) ∨
      ∃ before a after partners, l = before ++ a :: after ∧ List.Forall₂ R before partners ∧
        ∀ b, ¬R a b := by
  induction l with
  | nil => exact Or.inl ⟨[], .nil⟩
  | cons a l ih =>
    by_cases ha : ∃ b, R a b
    · obtain ⟨b, hb⟩ := ha
      rcases ih with ⟨partners, h⟩ | ⟨before, a', after, partners, rfl, h, hnone⟩
      · exact Or.inl ⟨b :: partners, .cons hb h⟩
      · exact Or.inr ⟨a :: before, a', after, b :: partners, rfl, .cons hb h, hnone⟩
    · exact Or.inr ⟨[], a, l, [], rfl, .nil, not_exists.mp ha⟩

/-! ## Sums over some values -/

/-- What only some values of a list add is the sum over these. -/
theorem sum_map_ite {α : Type} (p : α → Prop) [DecidablePred p] (f : α → Nat) (l : List α) :
    (l.map fun a => if p a then f a else 0).sum = ((l.filter (p ·)).map f).sum := by
  induction l with
  | nil => rfl
  | cons a l ih =>
    rw [List.map_cons, List.sum_cons, ih, List.filter_cons]
    by_cases h : p a <;> simp [h]

/-- Values that add one each add as many as they are. -/
theorem sum_map_ite_one {α : Type} (p : α → Prop) [DecidablePred p] (l : List α) :
    (l.map fun a => if p a then 1 else 0).sum = l.countP (p ·) := by
  rw [sum_map_ite, List.map_const', List.sum_replicate_nat, Nat.mul_one,
    List.countP_eq_length_filter]

/-! ## Runs at the beginning -/

/-- A run of values of one sort reaches to the first of another. -/
theorem takeWhile_dropWhile_append {α : Type} {p : α → Bool} {run rest : List α}
    (h : ∀ a ∈ run, p a = true) (hrest : ∀ a ∈ rest.head?, p a = false) :
    (run ++ rest).takeWhile p = run ∧ (run ++ rest).dropWhile p = rest := by
  rw [List.takeWhile_append_of_pos h, List.dropWhile_append_of_pos h]
  cases rest with
  | nil => exact ⟨List.append_nil run, rfl⟩
  | cons a rest =>
    rw [List.takeWhile_cons, List.dropWhile_cons, hrest a rfl]
    exact ⟨List.append_nil run, rfl⟩

/-! ## Runs at the end -/

/-- How many values of the sort end a list without a break. -/
def trailingRun {α : Type} (p : α → Bool) (l : List α) : Nat := (l.reverse.takeWhile p).length

/-- One more value prolongs the run or breaks it. -/
theorem trailingRun_concat {α : Type} (p : α → Bool) (l : List α) (a : α) :
    trailingRun p (l ++ [a]) = if p a then trailingRun p l + 1 else 0 := by
  unfold trailingRun
  rw [List.reverse_concat, List.takeWhile_cons]
  split
  · rw [List.length_cons]
  · rfl

section

variable {α : Type} {p : α → Bool} {a : α}

/-- A value of another sort in front prolongs no run at the end. -/
theorem trailingRun_cons_neg (h : p a = false) (l : List α) :
    trailingRun p (a :: l) = trailingRun p l := by
  induction l using List.reverseRecOn with
  | nil => simp [trailingRun, h]
  | append_singleton l c ih => rw [← List.cons_append, trailingRun_concat, trailingRun_concat, ih]

/-- A value of the sort and one behind it prolong a run by both or not at all. -/
theorem trailingRun_cons_cons (h : p a = true) (b : α) (l : List α) :
    trailingRun p (a :: b :: l) % 2 = trailingRun p l % 2 := by
  induction l using List.reverseRecOn with
  | nil =>
    show trailingRun p ([a] ++ [b]) % 2 = 0
    have ha : trailingRun p [a] = 1 := by simp [trailingRun, h]
    rw [trailingRun_concat, ha]
    split <;> rfl
  | append_singleton l c ih =>
    rw [← List.cons_append, ← List.cons_append, trailingRun_concat, trailingRun_concat]
    split
    · omega
    · rfl

end

end BuildCommands
