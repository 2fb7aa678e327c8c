import Mathlib.Data.List.Infix
import EmsFixtures.Lib.Panic

/-!
# First windows

`slice.windows(n).position(|w| w == needle)` and the copy into the window found.  A needle whose first element does
not come again in it cannot overlap itself; searched in `pre ++ needle ++ post`, it is found at `pre.length`, or wholly
inside `pre` (`findWindow_split`).
-/

namespace EmsFixtures

variable {α : Type*} [DecidableEq α]

/-- The first position where the (non-empty) needle stands. -/
def findWindow (needle : List α) : List α → Option Nat
  | [] => none
  | a :: l => if needle <+: a :: l then some 0 else (findWindow needle l).map (· + 1)

/-- `slice[pos..pos + len].copy_from_slice(src)`. -/
def copyFromSlice (l : List α) (pos len : Nat) (src : List α) : Except Panic (List α) :=
  if l.length < pos + len then .error .sliceRange
  else if src.length ≠ len then .error .copyLength
  else .ok (l.take pos ++ src ++ l.drop (pos + len))

omit [DecidableEq α] in
theorem copyFromSlice_append (pre old src post : List α) (h : src.length = old.length) :
    copyFromSlice (pre ++ old ++ post) pre.length old.length src = .ok (pre ++ src ++ post) := by
  have hdrop : (pre ++ old ++ post).drop (pre.length + old.length) = post := by
    rw [← List.length_append, List.drop_left]
  rw [copyFromSlice, if_neg (by simp), if_neg (by simpa using h), hdrop, List.append_assoc pre old, List.take_left]

omit [DecidableEq α] in
/-- Two places of one needle: replacing it at the later place is replacing it at the earlier one only if that changes
nothing. -/
theorem replace_eq_iff {before after pre post old new : List α} (hlen : new.length = old.length)
    (h : pre ++ old ++ post = before ++ old ++ after) (hle : pre.length + old.length ≤ before.length) :
    before ++ new ++ after = pre ++ new ++ post ↔ new = old := by
  have hstart : pre ++ old <+: before :=
    List.prefix_of_prefix_length_le ⟨post, h⟩ (by rw [List.append_assoc]; exact List.prefix_append ..)
      (by rwa [List.length_append])
  obtain ⟨rest, rfl⟩ := hstart
  constructor
  · intro h'
    rw [List.append_assoc, List.append_assoc, List.append_assoc, List.append_assoc pre] at h'
    exact ((List.append_inj (List.append_inj_right h' rfl) hlen.symm).1).symm
  · rintro rfl
    exact h.symm

omit [DecidableEq α] in
theorem getElem?_middle (pre old post : List α) {i : ℕ} (hi : i < old.length) :
    (pre ++ old ++ post)[pre.length + i]? = old[i]? := by
  rw [List.append_assoc, List.getElem?_append_right (Nat.le_add_right ..), Nat.add_sub_cancel_left,
    List.getElem?_append_left hi]

omit [DecidableEq α] in
theorem getElem?_before (pre old post : List α) {j : ℕ} (hj : j < pre.length) : (pre ++ old ++ post)[j]? = pre[j]? := by
  rw [List.append_assoc, List.getElem?_append_left hj]

omit [DecidableEq α] in
/-- A block that stands at two places of a list is constant if blanking the one is blanking the other. -/
private theorem eq_replicate_of_lt {before after pre post old : List α} {c : α}
    (h : pre ++ old ++ post = before ++ old ++ after) (hlt : before.length < pre.length)
    (hblank : before ++ List.replicate old.length c ++ after = pre ++ List.replicate old.length c ++ post) :
    old = List.replicate old.length c := by
  have hone : ∀ i, i < old.length → old[i]? = some c := by
    intro i
    induction i using Nat.strong_induction_on with
    | _ i ih =>
      intro hi
      have hhere := getElem?_middle before old after hi
      by_cases hin : before.length + i < pre.length
      · -- blanked at the first place, as it was at the second
        have hi' : i < (List.replicate old.length c).length := by rwa [List.length_replicate]
        have hsame := getElem?_middle before (List.replicate old.length c) after hi'
        rw [hblank, getElem?_before _ _ _ hin, List.getElem?_replicate, if_pos hi] at hsame
        rwa [← h, getElem?_before _ _ _ hin, hsame, eq_comm] at hhere
      · -- in both blocks: the same element stands earlier in the second
        obtain ⟨j, hj⟩ : ∃ j, before.length + i = pre.length + j := ⟨before.length + i - pre.length, by omega⟩
        rw [← h, hj, getElem?_middle pre old post (by omega)] at hhere
        rw [← hhere]
        exact ih j (by omega) (by omega)
  apply List.ext_getElem?
  intro i
  rw [List.getElem?_replicate]
  split
  · rename_i hi
    exact hone i hi
  · rename_i hi
    exact List.getElem?_eq_none (by omega)

omit [DecidableEq α] in
/-- Blanking a block at one of two places is blanking it at the other iff they are one place, or it is blank. -/
theorem blank_eq_iff {before after pre post old : List α} {c : α} (h : pre ++ old ++ post = before ++ old ++ after) :
    before ++ List.replicate old.length c ++ after = pre ++ List.replicate old.length c ++ post ↔
      before.length = pre.length ∨ old = List.replicate old.length c := by
  constructor
  · intro hblank
    rcases lt_trichotomy before.length pre.length with hlt | heq | hlt
    · exact Or.inr (eq_replicate_of_lt h hlt hblank)
    · exact Or.inl heq
    · exact Or.inr (eq_replicate_of_lt h.symm hlt hblank.symm)
  · rintro (hlen | hold)
    · rw [List.append_assoc, List.append_assoc] at h
      obtain ⟨rfl, hrest⟩ := List.append_inj h hlen.symm
      rw [List.append_cancel_left hrest]
    · rw [← hold]
      exact h.symm

theorem findWindow_prefix {needle l : List α} {q : Nat} (h : findWindow needle l = some q) : needle <+: l.drop q := by
  induction l generalizing q with
  | nil => cases h
  | cons a l ih =>
    rw [findWindow] at h
    split at h
    · cases h; assumption
    · obtain ⟨q', hq, rfl⟩ := Option.map_eq_some_iff.1 h
      exact ih hq

theorem findWindow_eq_append {needle l : List α} {q : Nat} (h : findWindow needle l = some q) :
    ∃ pre post, l = pre ++ needle ++ post ∧ pre.length = q := by
  obtain ⟨post, hpost⟩ := findWindow_prefix h
  have hlt : q ≤ l.length := by
    induction l generalizing q with
    | nil => cases h
    | cons a l ih =>
      rw [findWindow] at h
      split at h
      · cases h; simp
      · obtain ⟨q', hq, rfl⟩ := Option.map_eq_some_iff.1 h
        have := ih hq hpost
        simp; omega
  refine ⟨l.take q, post, ?_, ?_⟩
  · rw [List.append_assoc, hpost, List.take_append_drop]
  · exact List.length_take_of_le hlt

theorem findWindow_le {needle : List α} (hne : needle ≠ []) (before after : List α) :
    ∃ q, findWindow needle (before ++ needle ++ after) = some q ∧ q ≤ before.length := by
  induction before with
  | nil =>
    obtain ⟨a, needle, rfl⟩ := List.exists_cons_of_ne_nil hne
    exact ⟨0, if_pos (List.prefix_append (a :: needle) after), le_rfl⟩
  | cons x before ih =>
    by_cases hx : needle <+: x :: before ++ needle ++ after
    · exact ⟨0, if_pos hx, Nat.zero_le _⟩
    · obtain ⟨q, hq, hle⟩ := ih
      exact ⟨q + 1, (if_neg hx).trans (congrArg (Option.map (· + 1)) hq), Nat.succ_le_succ hle⟩

/-- Nothing is missed before the window found. -/
theorem findWindow_min {needle before after l : List α} (hne : needle ≠ []) (h : l = before ++ needle ++ after)
    {q : Nat} (hq : findWindow needle l = some q) : q ≤ before.length := by
  obtain ⟨q', hq', hle⟩ := findWindow_le hne before after
  rw [h, hq'] at hq
  cases hq
  exact hle

theorem ne_of_findWindow_eq_none {needle l : List α} (hne : needle ≠ []) (h : findWindow needle l = none)
    (before after : List α) : l ≠ before ++ needle ++ after := by
  rintro rfl
  obtain ⟨q, hq, -⟩ := findWindow_le hne before after
  rw [hq] at h
  cases h

omit [DecidableEq α] in
/-- A needle that starts where the same needle is followed up `pre` lies within `pre`. -/
private theorem length_le_of_prefix {a : α} {rest pre post : List α} (ha : a ∉ rest) (hne : pre ≠ [])
    (h : a :: rest <+: pre ++ (a :: rest) ++ post) : (a :: rest).length ≤ pre.length := by
  by_contra hlt
  rw [not_le] at hlt
  rw [List.append_assoc] at h
  have hget := List.IsPrefix.getElem h hlt
  rw [List.getElem_append_right le_rfl] at hget
  simp only [Nat.sub_self, List.cons_append, List.getElem_cons_zero] at hget
  obtain ⟨n, hn⟩ := Nat.exists_eq_succ_of_ne_zero (fun h => hne (List.length_eq_zero_iff.1 h))
  simp only [hn, Nat.succ_eq_add_one, List.getElem_cons_succ] at hget
  exact ha (hget ▸ List.getElem_mem _)

/-- The needle is found at its place, unless it stands wholly before it. -/
theorem findWindow_split {a : α} {rest : List α} (ha : a ∉ rest) (pre post : List α) :
    ∃ q, findWindow (a :: rest) (pre ++ (a :: rest) ++ post) = some q ∧
      ((q = pre.length ∧ ¬ a :: rest <:+: pre) ∨ (q + (a :: rest).length ≤ pre.length ∧ a :: rest <:+: pre)) := by
  induction pre with
  | nil =>
    refine ⟨0, ?_, Or.inl ⟨rfl, fun h => ?_⟩⟩
    · exact if_pos (List.prefix_append (a :: rest) post)
    · cases List.eq_nil_of_infix_nil h
  | cons x pre ih =>
    by_cases hpre : a :: rest <+: x :: pre ++ (a :: rest) ++ post
    · have hle := length_le_of_prefix ha (List.cons_ne_nil x pre) hpre
      refine ⟨0, if_pos hpre, Or.inr ⟨by simpa using hle, ?_⟩⟩
      rw [List.append_assoc] at hpre
      exact (List.prefix_of_prefix_length_le hpre (List.prefix_append ..) hle).isInfix
    · obtain ⟨q, hq, hcase⟩ := ih
      refine ⟨q + 1, ?_, ?_⟩
      · exact (if_neg hpre).trans (congrArg (Option.map (· + 1)) hq)
      · rcases hcase with ⟨rfl, hnot⟩ | ⟨hle, hin⟩
        · refine Or.inl ⟨rfl, fun h => ?_⟩
          rcases List.infix_cons_iff.1 h with h | h
          · exact hpre (h.trans (by rw [List.append_assoc]; exact List.prefix_append ..))
          · exact hnot h
        · refine Or.inr ⟨?_, List.infix_cons hin⟩
          simp only [List.length_cons] at hle ⊢
          omega

end EmsFixtures
