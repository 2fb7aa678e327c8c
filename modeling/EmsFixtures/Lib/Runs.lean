import Mathlib.Order.Basic
import Mathlib.Data.List.Infix

/-!
# Runs of a labelled transition relation

A run is a list of labels together with the states it passes through.  `Along R` says that every transition the
run can take satisfies `R`; it is how "in every run whose steps all meet a condition" and "in every state
reached" are said.

* an invariant kept by each step holds at the end of the run (`Run.invariant`), also when the step keeps it only
  under a condition met along the run (`Run.invariant_along`);
* two conditions equivalent under an invariant are equivalent along a run (`along_congr`);
* a potential that no step lowers is conserved by a run iff every step of the run conserves it
  (`Run.potential_eq_iff`);
* a run of a system is one of each of its parts, over the labels that part sees (`Run.refines`).
-/

namespace EmsFixtures.Runs

variable {σ ι : Type*} {step : σ → ι → σ → Prop}

/-- `Run step s is t`: the labels `is` lead from `s` to `t`. -/
inductive Run (step : σ → ι → σ → Prop) : σ → List ι → σ → Prop
  | nil (s : σ) : Run step s [] s
  | cons {s t u : σ} {i : ι} {is : List ι} (h : step s i t) (hs : Run step t is u) : Run step s (i :: is) u

/-- Every transition taken from `s` under the labels `is` satisfies `R`. -/
def Along (step : σ → ι → σ → Prop) (R : σ → ι → σ → Prop) : σ → List ι → Prop
  | _, [] => True
  | s, i :: is => ∀ t, step s i t → R s i t ∧ Along step R t is

theorem run_nil_iff {s t : σ} : Run step s [] t ↔ s = t := by
  constructor
  · rintro ⟨⟩; rfl
  · rintro rfl; exact Run.nil s

theorem run_cons_iff {s u : σ} {i : ι} {is : List ι} :
    Run step s (i :: is) u ↔ ∃ t, step s i t ∧ Run step t is u := by
  constructor
  · rintro (_ | ⟨h, hs⟩); exact ⟨_, h, hs⟩
  · rintro ⟨t, h, hs⟩; exact Run.cons h hs

theorem run_append_iff {s u : σ} {is js : List ι} :
    Run step s (is ++ js) u ↔ ∃ t, Run step s is t ∧ Run step t js u := by
  induction is generalizing s with
  | nil => simp [run_nil_iff]
  | cons i is ih =>
    rw [List.cons_append, run_cons_iff]
    constructor
    · intro h
      obtain ⟨t, h, hs⟩ := h
      obtain ⟨v, hv, hu⟩ := ih.1 hs
      exact ⟨v, Run.cons h hv, hu⟩
    · intro h
      obtain ⟨v, hv, hu⟩ := h
      obtain ⟨t, h, hs⟩ := run_cons_iff.1 hv
      exact ⟨t, h, ih.2 ⟨v, hs, hu⟩⟩

/-- The last step of a run. -/
theorem run_concat_iff {s u : σ} {is : List ι} {i : ι} :
    Run step s (is ++ [i]) u ↔ ∃ t, Run step s is t ∧ step t i u := by
  rw [run_append_iff]
  constructor
  · intro h
    obtain ⟨t, hs, hrun⟩ := h
    obtain ⟨v, hi, hnil⟩ := run_cons_iff.1 hrun
    obtain rfl := run_nil_iff.1 hnil
    exact ⟨t, hs, hi⟩
  · intro h
    obtain ⟨t, hs, hi⟩ := h
    exact ⟨t, hs, Run.cons hi (Run.nil u)⟩

theorem Run.unique (hdet : ∀ s i t t', step s i t → step s i t' → t = t') {s t t' : σ} {is : List ι}
    (h : Run step s is t) (h' : Run step s is t') : t = t' := by
  induction h with
  | nil s => exact run_nil_iff.1 h'
  | cons hi _ ih =>
    obtain ⟨v, hv, hs'⟩ := run_cons_iff.1 h'
    rw [hdet _ _ _ _ hv hi] at hs'
    exact ih hs'

theorem Run.invariant_along {I : σ → Prop} {R : σ → ι → σ → Prop}
    (hstep : ∀ s i t, I s → R s i t → step s i t → I t) {s t : σ} {is : List ι} (h : Run step s is t)
    (hs : I s) (hR : Along step R s is) : I t := by
  induction h with
  | nil s => exact hs
  | cons hi _ ih =>
    obtain ⟨hr, hrest⟩ := hR _ hi
    exact ih (hstep _ _ _ hs hr hi) hrest

/-- What every step preserves, the run preserves. -/
theorem Run.invariant {I : σ → Prop} (hstep : ∀ s i t, I s → step s i t → I t) {s t : σ} {is : List ι}
    (h : Run step s is t) (hs : I s) : I t := by
  induction h with
  | nil s => exact hs
  | cons hi _ ih => exact ih (hstep _ _ _ hs hi)

theorem Along.imp {I : σ → Prop} {R R' : σ → ι → σ → Prop} (hstep : ∀ s i t, I s → R s i t → step s i t → I t)
    (himp : ∀ s i t, I s → step s i t → R s i t → R' s i t) {s : σ} {is : List ι} (hs : I s)
    (h : Along step R s is) : Along step R' s is := by
  induction is generalizing s with
  | nil => trivial
  | cons i is ih =>
    intro t ht
    obtain ⟨hr, hrest⟩ := h t ht
    exact ⟨himp s i t hs ht hr, ih (hstep s i t hs hr ht) hrest⟩

theorem Along.of_append {R : σ → ι → σ → Prop} {s : σ} {is js : List ι} (h : Along step R s (is ++ js)) :
    Along step R s is := by
  induction is generalizing s with
  | nil => trivial
  | cons i is ih => exact fun t ht => ⟨(h t ht).1, ih (h t ht).2⟩

theorem along_of_forall_mem {P : ι → Prop} {is : List ι} (h : ∀ i ∈ is, P i) (s : σ) :
    Along step (fun _ i _ => P i) s is := by
  induction is generalizing s with
  | nil => trivial
  | cons i is ih =>
    exact fun t _ => ⟨h i (List.mem_cons_self ..), ih (fun j hj => h j (List.mem_cons_of_mem _ hj)) t⟩

theorem along_and {R R' : σ → ι → σ → Prop} {s : σ} {is : List ι} :
    Along step (fun s i t => R s i t ∧ R' s i t) s is ↔ Along step R s is ∧ Along step R' s is := by
  induction is generalizing s with
  | nil => simp [Along]
  | cons i is ih =>
    simp only [Along, ih]
    constructor
    · intro h
      exact ⟨fun t ht => ⟨(h t ht).1.1, (h t ht).2.1⟩, fun t ht => ⟨(h t ht).1.2, (h t ht).2.2⟩⟩
    · rintro ⟨h, h'⟩ t ht
      exact ⟨⟨(h t ht).1, (h' t ht).1⟩, (h t ht).2, (h' t ht).2⟩

/-- Two conditions equivalent under an invariant, on runs whose steps meet `C`, are equivalent along such a run. -/
theorem along_congr {I : σ → Prop} {C R R' : σ → ι → σ → Prop} (hstep : ∀ s i t, I s → C s i t → step s i t → I t)
    (hiff : ∀ s i t, I s → C s i t → step s i t → (R s i t ↔ R' s i t)) {s : σ} {is : List ι} (hs : I s)
    (hC : Along step C s is) : Along step R s is ↔ Along step R' s is := by
  have key : ∀ {R R' : σ → ι → σ → Prop}, (∀ s i t, I s → C s i t → step s i t → R s i t → R' s i t) →
      Along step R s is → Along step R' s is := by
    intro R R' himp hR
    exact Along.imp (R := fun s i t => C s i t ∧ R s i t) (fun s i t hI h => hstep s i t hI h.1)
      (fun s i t hI ht h => himp s i t hI h.1 ht h.2) hs (along_and.2 ⟨hC, hR⟩)
  exact ⟨key fun s i t hI h ht => (hiff s i t hI h ht).1, key fun s i t hI h ht => (hiff s i t hI h ht).2⟩

theorem along_iff_after {R : σ → ι → σ → Prop} {s : σ} {is : List ι} :
    Along step R s is ↔ ∀ pre i post, is = pre ++ i :: post → ∀ t u, Run step s pre t → step t i u → R t i u := by
  induction is generalizing s with
  | nil => simp [Along]
  | cons i is ih =>
    constructor
    · intro h pre j post heq t u hrun hju
      cases pre with
      | nil =>
        obtain ⟨rfl, rfl⟩ := List.cons_eq_cons.1 heq
        obtain rfl := run_nil_iff.1 hrun
        exact (h u hju).1
      | cons k pre =>
        obtain ⟨rfl, rfl⟩ := List.cons_eq_cons.1 heq
        obtain ⟨v, hv, hrun⟩ := run_cons_iff.1 hrun
        exact ih.1 (h v hv).2 pre j post rfl t u hrun hju
    · intro h t ht
      refine ⟨h [] i is rfl s t (Run.nil s) ht, ih.2 ?_⟩
      rintro pre j post rfl v u hrun hju
      exact h (i :: pre) j post rfl v u (Run.cons ht hrun) hju

/-- A measure that every step lowers by its cost bounds what a run costs. -/
theorem Run.countP_add_le {I : σ → Prop} {R : σ → ι → σ → Prop} {p : ι → Bool} {μ : σ → ℕ}
    (hstep : ∀ s i t, I s → R s i t → step s i t → I t ∧ (if p i then 1 else 0) + μ t ≤ μ s) {s t : σ} {is : List ι}
    (h : Run step s is t) (hs : I s) (hR : Along step R s is) : is.countP p + μ t ≤ μ s := by
  induction h with
  | nil s => simp
  | cons hi _ ih =>
    obtain ⟨hr, hrest⟩ := hR _ hi
    obtain ⟨hI, hle⟩ := hstep _ _ _ hs hr hi
    have := ih hI hrest
    rw [List.countP_cons]
    omega

/-- Two runs over labels related one by one keep a relation that every pair of related steps keeps. -/
theorem Run.related {τ κ : Type*} {step' : τ → κ → τ → Prop} {R : σ → τ → Prop} {L : ι → κ → Prop}
    (hstep : ∀ s i s' t j t', R s t → L i j → step s i s' → step' t j t' → R s' t') {s s' : σ} {t t' : τ}
    {is : List ι} {js : List κ} (h : Run step s is s') (h' : Run step' t js t') (hl : List.Forall₂ L is js)
    (hR : R s t) : R s' t' := by
  induction hl generalizing s t with
  | nil =>
    rw [run_nil_iff] at h h'
    exact h ▸ h' ▸ hR
  | cons hij _ ih =>
    obtain ⟨u, hu, hrest⟩ := run_cons_iff.1 h
    obtain ⟨v, hv, hrest'⟩ := run_cons_iff.1 h'
    exact ih hrest hrest' (hstep _ _ _ _ _ _ hR hij hu hv)

/-- Where every step is a step of another relation on a view of the states, or leaves the view alone, a run is a run of
that relation over the labels it sees. -/
theorem Run.refines {τ κ : Type*} {step' : τ → κ → τ → Prop} (view : σ → τ) (sees : ι → Option κ) (I : σ → Prop)
    (hI : ∀ s i t, I s → step s i t → I t)
    (hstep : ∀ s i t, I s → step s i t → (∀ k, sees i = some k → step' (view s) k (view t)) ∧
      (sees i = none → view t = view s)) {s t : σ} {is : List ι} (h : Run step s is t) (hs : I s) :
    Run step' (view s) (is.filterMap sees) (view t) := by
  induction h with
  | nil s => exact Run.nil _
  | @cons s u t i is hi _ ih =>
    obtain ⟨hseen, hunseen⟩ := hstep s i u hs hi
    have hrest := ih (hI s i u hs hi)
    cases hk : sees i with
    | none =>
      rw [List.filterMap_cons_none hk, ← hunseen hk]
      exact hrest
    | some k =>
      rw [List.filterMap_cons_some hk]
      exact Run.cons (hseen k hk) hrest

section Potential

variable {α : Type*} [PartialOrder α] {Φ : σ → α} {I : σ → Prop} {R : σ → ι → σ → Prop}

theorem Run.potential_le (hstep : ∀ s i t, I s → R s i t → step s i t → I t ∧ Φ s ≤ Φ t) {s t : σ} {is : List ι}
    (h : Run step s is t) (hs : I s) (hR : Along step R s is) : Φ s ≤ Φ t := by
  induction h with
  | nil s => exact le_rfl
  | cons hi _ ih =>
    obtain ⟨hr, hrest⟩ := hR _ hi
    obtain ⟨hI, hle⟩ := hstep _ _ _ hs hr hi
    exact hle.trans (ih hI hrest)

/-- A potential that no step lowers is conserved by a run iff every step of the run conserves it. -/
theorem Run.potential_eq_iff (hdet : ∀ s i t t', step s i t → step s i t' → t = t')
    (hstep : ∀ s i t, I s → R s i t → step s i t → I t ∧ Φ s ≤ Φ t) {s t : σ} {is : List ι}
    (h : Run step s is t) (hs : I s) (hR : Along step R s is) :
    Φ t = Φ s ↔ Along step (fun s _ t => Φ t = Φ s) s is := by
  induction h with
  | nil s => simp [Along]
  | @cons s v u i is hi hrun ih =>
    obtain ⟨hr, hrest⟩ := hR _ hi
    obtain ⟨hI, hle⟩ := hstep _ _ _ hs hr hi
    have hle' := hrun.potential_le hstep hI hrest
    constructor
    -- the first step raises nothing, for the rest of the run cannot take it back
    · intro heq t ht
      obtain rfl := hdet _ _ _ _ ht hi
      have hvs : Φ t = Φ s := le_antisymm (hle'.trans heq.le) hle
      exact ⟨hvs, (ih hI hrest).1 (heq.trans hvs.symm)⟩
    · intro hal
      obtain ⟨hvs, hal⟩ := hal v hi
      exact ((ih hI hrest).2 hal).trans hvs

end Potential

end EmsFixtures.Runs
