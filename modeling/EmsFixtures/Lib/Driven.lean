import EmsFixtures.Lib.Maps
import EmsFixtures.Lib.Runs

/-!
# Maps with externally driven keys

A map written by two kinds of writers: an external one, whose keys become *driven*, and background ones, which must
leave driven keys alone.  `Writes s ws t` says what one step did: the entries `ws` came from outside, their keys
are now driven, and every driven key holds its last external value or, if `ws` does not name it, what it held
before.  Along a run of such steps every driven key holds the value of the last external write to it
(`agrees_of_run`), and any run that keeps this in every state takes only such steps (`along_of_agrees`).
-/

namespace EmsFixtures.Driven

open Runs HashMap

variable {K V : Type} [DecidableEq K]

/-- A map and the set of its driven keys. -/
structure Store (K V : Type) where
  values : HashMap K V
  driven : Finset K

/-- A step whose external writes are `ws`, and which otherwise leaves driven keys alone. -/
structure Writes (s : Store K V) (ws : List (K × V)) (t : Store K V) : Prop where
  driven : t.driven = s.driven ∪ (ws.map Prod.fst).toFinset
  lookup : ∀ k ∈ t.driven, t.values.lookup k = (lastIn ws k).or (s.values.lookup k)

/-- The last value written to `k` from outside, over a list of labels that each write some entries. -/
def lastWrite {ι : Type*} (writes : ι → List (K × V)) : List ι → K → Option V
  | [], _ => none
  | i :: is, k => (lastWrite writes is k).or (lastIn (writes i) k)

theorem lastWrite_append {ι : Type*} (writes : ι → List (K × V)) (is js : List ι) (k : K) :
    lastWrite writes (is ++ js) k = (lastWrite writes js k).or (lastWrite writes is k) := by
  induction is with
  | nil => simp [lastWrite]
  | cons i is ih => rw [List.cons_append, lastWrite, ih, lastWrite, Option.or_assoc]

theorem lastWrite_isSome {ι : Type*} {writes : ι → List (K × V)} {is : List ι} {k : K} :
    (lastWrite writes is k).isSome ↔ ∃ i ∈ is, k ∈ (writes i).map Prod.fst := by
  induction is with
  | nil => simp [lastWrite]
  | cons i is ih => rw [lastWrite, Option.isSome_or, Bool.or_eq_true, ih, lastIn_isSome, List.exists_mem_cons_iff, or_comm]

/-- Every driven key is present with the value `last` gives it. -/
def Agrees (s : Store K V) (last : K → Option V) : Prop :=
  ∀ k ∈ s.driven, ∃ v, last k = some v ∧ s.values.lookup k = some v

theorem Agrees.writes {s t : Store K V} {last : K → Option V} {ws : List (K × V)} (h : Agrees s last)
    (hw : Writes s ws t) : Agrees t fun k => (lastIn ws k).or (last k) := by
  intro k hk
  have ht := hw.lookup k hk
  rw [hw.driven, Finset.mem_union, List.mem_toFinset] at hk
  cases hl : lastIn ws k with
  | some v => exact ⟨v, by simp [hl], by rw [ht, hl]; rfl⟩
  | none =>
    have hs : k ∈ s.driven := hk.resolve_right (lastIn_eq_none.1 hl)
    obtain ⟨v, hv, hsv⟩ := h k hs
    exact ⟨v, by simp [hl, hv], by rw [ht, hl, hsv]; rfl⟩

variable {σ ι : Type*} {step : σ → ι → σ → Prop} (view : σ → Store K V) {writes : ι → List (K × V)}

/-- Along a run whose steps only write their own external entries to driven keys, every driven key holds the last
external value. -/
theorem agrees_of_run (h₀ : K → Option V) {s t : σ} {is : List ι} (h : Run step s is t)
    (hs : Agrees (view s) h₀) (hw : Along step (fun s i t => Writes (view s) (writes i) (view t)) s is) :
    Agrees (view t) fun k => (lastWrite writes is k).or (h₀ k) := by
  -- the first step's writes become the values before the rest of the run
  induction h generalizing h₀ with
  | nil s => exact hs
  | cons hi _ ih =>
    obtain ⟨hw₁, hrest⟩ := hw _ hi
    have := ih (fun k => (lastIn (writes _) k).or (h₀ k)) (hs.writes hw₁) hrest
    simpa only [lastWrite, Option.or_assoc] using this

/-- The driven keys at the end of such a run are those driven before and those some step writes from outside. -/
theorem mem_driven_of_run {s t : σ} {is : List ι} (h : Run step s is t)
    (hw : Along step (fun s i t => Writes (view s) (writes i) (view t)) s is) {k : K} :
    k ∈ (view t).driven ↔ k ∈ (view s).driven ∨ (lastWrite writes is k).isSome := by
  induction h with
  | nil s => simp [lastWrite]
  | cons hi _ ih =>
    obtain ⟨hw₁, hrest⟩ := hw _ hi
    rw [ih hrest, hw₁.driven, Finset.mem_union, List.mem_toFinset, lastWrite, Option.isSome_or, Bool.or_eq_true,
      lastIn_isSome, or_assoc, or_comm (a := _ ∈ List.map _ _)]

/-- If driven keys hold the last external value after every prefix of a run whose steps drive exactly their own keys,
then each of these steps leaves the other driven keys alone. -/
theorem along_of_agrees {s : σ} {is : List ι} (hdriven : Along step (fun s i t =>
      (view t).driven = (view s).driven ∪ ((writes i).map Prod.fst).toFinset) s is)
    (h : ∀ pre, pre <+: is → ∀ t, Run step s pre t → Agrees (view t) (lastWrite writes pre)) :
    Along step (fun s i t => Writes (view s) (writes i) (view t)) s is := by
  rw [along_iff_after] at hdriven ⊢
  rintro pre i post rfl t u hrun hi
  have hd := hdriven pre i post rfl t u hrun hi
  have ht := h pre (List.prefix_append ..) t hrun
  have hu := h (pre ++ [i]) ⟨post, by simp⟩ u (run_concat_iff.2 ⟨t, hrun, hi⟩)
  refine ⟨hd, fun k hk => ?_⟩
  obtain ⟨v, hv, huv⟩ := hu k hk
  rw [lastWrite_append] at hv
  rw [hd, Finset.mem_union, List.mem_toFinset] at hk
  cases hl : lastIn (writes i) k with
  | some w => simpa [lastWrite, hl, huv, eq_comm] using hv
  | none =>
    obtain ⟨w, hw, htw⟩ := ht k (hk.resolve_right (lastIn_eq_none.1 hl))
    have hvw : w = v := by simpa [lastWrite, hl, hw] using hv
    rw [huv, htw, hvw]
    rfl

end EmsFixtures.Driven
