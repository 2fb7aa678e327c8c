import Mathlib.Data.Finset.Card
import Mathlib.Data.List.Pairwise

/-!
# Walks over a growing set of keys

A walker asks again and again for the least key above the last one it was given, while others add keys.  `Moves` are
the moves of such a walk.  Whatever is added, the walk returns increasing keys and misses none of the keys that were
there at its start (`Covers`); while nothing is added, each request uses up one of finitely many (`remaining`).
-/

namespace EmsFixtures

variable {α : Type*} [LinearOrder α]

/-- The keys, the key last returned (at first the start), the keys returned so far, and whether the end was reached. -/
structure Walk (α : Type*) where
  keys : Finset α
  pos : α
  returned : List α
  ended : Bool

namespace Walk

/-- The moves of a walk: others add keys, the next key is returned, or the end is answered. -/
inductive Moves : Walk α → Walk α → Prop
  | grow {w : Walk α} (keys : Finset α) (h : w.keys ⊆ keys) : Moves w { w with keys }
  | next {w : Walk α} (k : α) (he : w.ended = false) (hk : k ∈ w.keys) (hlt : w.pos < k)
      (hmin : ∀ k' ∈ w.keys, w.pos < k' → k ≤ k') : Moves w { w with pos := k, returned := w.returned ++ [k] }
  | finish {w : Walk α} (he : w.ended = false) (h : ∀ k ∈ w.keys, ¬ w.pos < k) : Moves w { w with ended := true }

/-- A walk from `start` that has met every key of `initial` up to its position. -/
structure Covers (start : α) (initial : Finset α) (w : Walk α) : Prop where
  subset : initial ⊆ w.keys
  increasing : w.returned.Pairwise (· < ·)
  start_le : start ≤ w.pos
  bounds : ∀ k ∈ w.returned, start < k ∧ k ≤ w.pos
  covered : ∀ k ∈ initial, start < k → k ≤ w.pos → k ∈ w.returned
  ended : w.ended = true → ∀ k ∈ initial, k ≤ w.pos

theorem covers_start (start : α) (keys : Finset α) : Covers start keys ⟨keys, start, [], false⟩ where
  subset := Finset.Subset.refl _
  increasing := List.Pairwise.nil
  start_le := le_rfl
  bounds := by simp
  covered k _ hlt hle := absurd hle (not_le.2 hlt)
  ended := by simp

/-- Every move keeps the coverage. -/
theorem Covers.move {start : α} {initial : Finset α} {w w' : Walk α} (h : Covers start initial w) (hm : Moves w w') :
    Covers start initial w' := by
  cases hm with
  | grow keys hsub => exact { h with subset := h.subset.trans hsub }
  | next k he hk hlt hmin =>
    refine ⟨h.subset, ?_, h.start_le.trans hlt.le, ?_, ?_, fun h' => ?_⟩
    · rw [List.pairwise_append]
      refine ⟨h.increasing, List.pairwise_singleton _ _, fun a ha b hb => ?_⟩
      rw [List.mem_singleton.1 hb]
      exact (h.bounds a ha).2.trans_lt hlt
    · intro a ha
      rcases List.mem_append.1 ha with ha | ha
      · exact ⟨(h.bounds a ha).1, (h.bounds a ha).2.trans hlt.le⟩
      · rw [List.mem_singleton.1 ha]
        exact ⟨h.start_le.trans_lt hlt, le_rfl⟩
    · -- a key between the old and the new position would have been returned instead
      intro a ha hsa hak
      rcases le_or_gt a w.pos with hle | hgt
      · exact List.mem_append_left _ (h.covered a ha hsa hle)
      · rw [le_antisymm hak (hmin a (h.subset ha) hgt)]
        exact List.mem_append_right _ (List.mem_singleton_self _)
    · exact absurd h' (by simp [he])
  | finish he hnone => exact { h with ended := fun _ k hk => not_lt.1 (hnone k (h.subset hk)) }

/-- At the end every initial key above the start has been returned, once. -/
theorem Covers.count_eq_one [BEq α] [LawfulBEq α] {start : α} {initial : Finset α} {w : Walk α}
    (h : Covers start initial w) (he : w.ended = true) {k : α} (hk : k ∈ initial) (hlt : start < k) :
    w.returned.count k = 1 :=
  List.count_eq_one_of_mem (h.increasing.imp fun hab => hab.ne) (h.covered k hk hlt (h.ended he k hk))

/-- The requests left if no key is added: one for each key above the position, and one for the end. -/
def remaining (w : Walk α) : ℕ := if w.ended then 0 else (w.keys.filter (w.pos < ·)).card + 1

theorem remaining_grow {w : Walk α} {keys : Finset α} (h : w.keys ⊆ keys) (h' : keys ⊆ w.keys) :
    remaining { w with keys } = remaining w := by
  rw [Finset.Subset.antisymm h' h]

theorem remaining_next {w : Walk α} {k : α} (he : w.ended = false) (hk : k ∈ w.keys) (hlt : w.pos < k) :
    1 + remaining { w with pos := k, returned := w.returned ++ [k] } ≤ remaining w := by
  have hsub : w.keys.filter (k < ·) ⊂ w.keys.filter (w.pos < ·) := by
    refine Finset.ssubset_iff_of_subset (fun a ha => ?_) |>.2 ⟨k, Finset.mem_filter.2 ⟨hk, hlt⟩, by simp⟩
    obtain ⟨ha, hka⟩ := Finset.mem_filter.1 ha
    exact Finset.mem_filter.2 ⟨ha, hlt.trans hka⟩
  have := Finset.card_lt_card hsub
  simp only [remaining, he, Bool.false_eq_true, if_false]
  omega

theorem remaining_finish {w : Walk α} (he : w.ended = false) : 1 + remaining { w with ended := true } ≤ remaining w := by
  simp [remaining, he]

end Walk

end EmsFixtures
