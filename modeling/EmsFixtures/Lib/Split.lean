import Mathlib.Data.List.DropRight

/-!
# Trimming a list and splitting it at its last separator

What is trimmed ends in nothing to trim and is found again within any padding (`trim_of_bare`); a list splits at the
last `c` into what is before it and what is behind it without a `c` (`rsplitOnce_eq_some_iff`).
-/

namespace EmsFixtures.Split

variable {α : Type*} {p : α → Bool} {l : List α}

/-- The list without the elements with `p` at either end. -/
def trim (p : α → Bool) (l : List α) : List α := (l.dropWhile p).rdropWhile p

/-- Nothing to trim. -/
def Bare (p : α → Bool) (l : List α) : Prop := (∀ x ∈ l.head?, ¬ p x) ∧ ∀ x ∈ l.getLast?, ¬ p x

theorem rdropWhile_append_of_forall {right : List α} (hr : ∀ x ∈ right, p x) (l : List α) :
    (l ++ right).rdropWhile p = l.rdropWhile p := by
  induction right using List.reverseRecOn with
  | nil => rw [List.append_nil]
  | append_singleton right x ih =>
    have hx : p x := hr x (by simp)
    rw [← List.append_assoc, List.rdropWhile_concat_pos _ _ _ hx]
    exact ih fun y hy => hr y (List.mem_append_left _ hy)

theorem rdropWhile_of_getLast? (h : ∀ x ∈ l.getLast?, ¬ p x) : l.rdropWhile p = l := by
  rw [List.rdropWhile_eq_self_iff]
  intro hne
  exact h _ (List.getLast_mem_getLast? hne)

theorem trim_of_bare (h : Bare p l) {left right : List α} (hl : ∀ x ∈ left, p x) (hr : ∀ x ∈ right, p x) :
    trim p (left ++ l ++ right) = l := by
  unfold trim
  cases l with
  | nil =>
    rw [List.append_nil, List.dropWhile_append_of_pos hl, List.rdropWhile_eq_nil_iff]
    intro x hx
    exact hr x ((List.dropWhile_suffix p).subset hx)
  | cons a l =>
    have ha : ¬ p a := h.1 a rfl
    rw [List.append_assoc, List.dropWhile_append_of_pos hl, List.cons_append, List.dropWhile_cons_of_neg ha,
      ← List.cons_append, rdropWhile_append_of_forall hr, rdropWhile_of_getLast? h.2]

variable [DecidableEq α] {c : α} {a b : List α}

/-- `rsplit_once`: the list before and behind its last `c`. -/
def rsplitOnce (c : α) (l : List α) : Option (List α × List α) :=
  if c ∈ l then some ((l.rdropWhile (· ≠ c)).dropLast, l.rtakeWhile (· ≠ c)) else none

theorem rsplitOnce_eq_none_iff : rsplitOnce c l = none ↔ c ∉ l := by
  unfold rsplitOnce
  split <;> simp [*]

theorem rsplitOnce_append (hb : c ∉ b) (a : List α) : rsplitOnce c (a ++ c :: b) = some (a, b) := by
  have hne : ∀ x ∈ b, (decide (x ≠ c) : Bool) := fun x hx => decide_eq_true fun h => hb (h ▸ hx)
  have hdrop : (a ++ c :: b).rdropWhile (· ≠ c) = a ++ [c] := by
    rw [List.append_cons, rdropWhile_append_of_forall hne, List.rdropWhile_concat_neg _ _ _ (by simp)]
  have htake : (a ++ c :: b).rtakeWhile (· ≠ c) = b := by
    have hsplit : (a ++ c :: b).rdropWhile (· ≠ c) ++ (a ++ c :: b).rtakeWhile (· ≠ c) = a ++ c :: b :=
      List.rdropWhile_append_rtakeWhile
    rw [hdrop] at hsplit
    exact List.append_cancel_left (hsplit.trans (List.append_cons a c b))
  unfold rsplitOnce
  rw [if_pos (by simp), hdrop, htake, List.dropLast_concat]

theorem rsplitOnce_eq_some_iff : rsplitOnce c l = some (a, b) ↔ l = a ++ c :: b ∧ c ∉ b := by
  constructor
  · intro h
    have hmem : c ∈ l := by
      by_contra hnot
      rw [rsplitOnce_eq_none_iff.2 hnot] at h
      cases h
    obtain ⟨after, before, hl, hafter⟩ := List.eq_append_cons_of_mem (List.mem_reverse.2 hmem)
    have hl' : l = before.reverse ++ c :: after.reverse := by
      rw [← List.reverse_reverse l, hl]
      simp
    rw [hl', rsplitOnce_append (by simpa using hafter)] at h
    cases h
    exact ⟨hl', by simpa using hafter⟩
  · rintro ⟨rfl, hb⟩
    exact rsplitOnce_append hb a

end EmsFixtures.Split
