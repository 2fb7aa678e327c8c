import Mathlib.Algebra.Order.Archimedean.Basic
import EmsFixtures.Bacnet.PresentValue

/-!
# Sawtooths of `f32`s

With strategies other than the one the device has, sums are rounded, and a rise may be lost.  Rounding keeps the order,
so a value still never leaves its band, and whole multiples of the least `f32` cannot rise forever: every value comes
back to its minimum again and again, or stays for good at one that the step no longer moves
(`sawtooth_returns_or_sticks`).
-/

namespace EmsFixtures.Bacnet

open HashMap EmsFixtures.Float32

namespace SawStrategy

/-- A strategy of finite `f32`s that moves up within its band.  A sum that overflows is infinite for the code; past a
finite `max` it wraps as the sum kept here does. -/
structure Rising (s : SawStrategy) : Prop where
  isF32 : IsF32 s.min
  band : s.min ≤ s.max
  finite : s.max < 2 ^ 128
  rising : 0 ≤ s.step

/-- The values of the band. -/
structure InBand (s : SawStrategy) (v : ℚ) : Prop where
  isF32 : IsF32 v
  ge : s.min ≤ v
  le : v ≤ s.max

variable {s : SawStrategy} {v : ℚ}

theorem Rising.inBand_min (hs : s.Rising) : s.InBand s.min := ⟨hs.isF32, le_rfl, hs.band⟩

theorem Rising.le_addF32 (hs : s.Rising) (hv : IsF32 v) : v ≤ addF32 v s.step := by
  have hsum : v ≤ v + s.step := le_add_of_nonneg_right hs.rising
  calc v = rounded v := (rounded_of_isF32 hv).symm
    _ ≤ addF32 v s.step := rounded_mono hsum

theorem Rising.next_eq_min_or_le (hs : s.Rising) (hv : IsF32 v) : s.next v = s.min ∨ v ≤ s.next v := by
  unfold next
  split
  · exact Or.inl rfl
  · exact Or.inr (hs.le_addF32 hv)

theorem Rising.inBand_next (hs : s.Rising) (hv : s.InBand v) : s.InBand (s.next v) := by
  rcases lt_or_ge s.max (addF32 v s.step) with hover | hfits
  · rw [next, if_pos hover]
    exact hs.inBand_min
  · rw [next, if_neg hfits.not_gt]
    exact ⟨isF32_rounded _, hv.ge.trans (hs.le_addF32 hv.isF32), hfits⟩

/-- From a value of the band the sawtooth comes to its minimum or to a value that it keeps. -/
theorem Rising.returns_or_sticks (hs : s.Rising) (hv : s.InBand v) :
    ∃ m, s.next^[m + 1] v = s.min ∨ s.next (s.next^[m] v) = s.next^[m] v := by
  -- how many least `f32`s the value is below the maximum
  obtain ⟨room, hroom⟩ : ∃ room : ℕ, s.max - v < room * 2 ^ (-149 : ℤ) := by
    obtain ⟨room, hroom⟩ := exists_nat_gt ((s.max - v) / 2 ^ (-149 : ℤ))
    exact ⟨room, (div_lt_iff₀ (by norm_num)).1 hroom⟩
  induction room generalizing v with
  | zero =>
    have hle := hv.le
    rw [Nat.cast_zero, zero_mul] at hroom
    linarith
  | succ room ih =>
    rcases hs.next_eq_min_or_le hv.isF32 with hmin | hle
    · exact ⟨0, Or.inl hmin⟩
    rcases hle.eq_or_lt with heq | hlt
    · exact ⟨0, Or.inr heq.symm⟩
    · have hnext := hs.inBand_next hv
      have hgap := hv.isF32.add_le_of_lt hnext.isF32 hlt
      have hroom' : s.max - s.next v < room * 2 ^ (-149 : ℤ) := by
        push_cast at hroom
        linarith
      obtain ⟨m, hm⟩ := ih hnext hroom'
      exact ⟨m + 1, hm⟩

end SawStrategy

/-! ### Every instance -/

variable {strategies : Strategies} {orders : ℕ → Strategies} {values : ℕ → Values} {k : UInt32} {s : SawStrategy}

/-- The map tick by tick; a tick goes through the strategies in some order. -/
structure Ticks (strategies : Strategies) (orders : ℕ → Strategies) (values : ℕ → Values) : Prop where
  seed : values 0 = seed strategies
  order : ∀ n, (orders n).Perm strategies
  tick : ∀ n, values (n + 1) = tick (values n) (orders n)

theorem Ticks.lookup_succ (h : Ticks strategies orders values) (hnd : (strategies.map Prod.fst).Nodup)
    (hk : (k, s) ∈ strategies) (n : ℕ) :
    (values (n + 1)).lookup k = some (s.next (((values n).lookup k).getD s.min)) := by
  rw [h.tick, ← tick_perm hnd (h.order n).symm, lookup_tick hnd, lastIn_of_mem hnd hk]

theorem Ticks.lookup_eq (h : Ticks strategies orders values) (hnd : (strategies.map Prod.fst).Nodup)
    (hk : (k, s) ∈ strategies) (n : ℕ) : (values n).lookup k = some (s.next^[n] s.min) := by
  induction n with
  | zero =>
    have hmap : (strategies.map fun e => (e.1, e.2.min)).map Prod.fst = strategies.map Prod.fst := by
      rw [List.map_map]
      rfl
    rw [h.seed, Bacnet.seed, lookup_ofList_eq_some_iff (by rwa [hmap])]
    exact List.mem_map.2 ⟨_, hk, rfl⟩
  | succ n ih => rw [h.lookup_succ hnd hk, ih, Option.getD_some, Function.iterate_succ_apply']

theorem inBand_iterate (hs : s.Rising) (n : ℕ) : s.InBand (s.next^[n] s.min) := by
  induction n with
  | zero => exact hs.inBand_min
  | succ n ih =>
    rw [Function.iterate_succ_apply']
    exact hs.inBand_next ih

/-- Whatever the strategies and the orders of the ticks, a tracked instance always holds an `f32` of its band, and from
any tick on it comes back to its minimum or to a value it keeps for good. -/
theorem sawtooth_returns_or_sticks (strategies : Strategies) (hnd : (strategies.map Prod.fst).Nodup)
    (orders : ℕ → Strategies) (values : ℕ → Values) (h : Ticks strategies orders values) (k : UInt32) (s : SawStrategy)
    (hk : (k, s) ∈ strategies) (hs : s.Rising) (n : ℕ) :
    (∃ v, (values n).lookup k = some v ∧ s.InBand v) ∧
    ∃ m, n ≤ m ∧ ((values (m + 1)).lookup k = some s.min ∨
      ∀ j, m ≤ j → (values j).lookup k = (values m).lookup k) := by
  have hlookup := h.lookup_eq hnd hk
  refine ⟨⟨_, hlookup n, inBand_iterate hs n⟩, ?_⟩
  obtain ⟨m, hm⟩ := hs.returns_or_sticks (inBand_iterate hs n)
  have hiterate : ∀ i, s.next^[i] (s.next^[n] s.min) = s.next^[n + i] s.min := by
    intro i
    rw [add_comm, Function.iterate_add_apply]
  refine ⟨n + m, Nat.le_add_right n m, hm.imp (fun hmin => ?_) fun hstuck j hj => ?_⟩
  · rw [hlookup, add_assoc, ← hiterate, hmin]
  · obtain ⟨i, rfl⟩ := Nat.exists_eq_add_of_le hj
    rw [hiterate] at hstuck
    rw [hlookup, hlookup, add_comm (n + m), Function.iterate_add_apply, Function.iterate_fixed hstuck]

/-- Half a unit above 2^24, which is no `f32`. -/
def lostStep : SawStrategy := { min := 2 ^ 24, max := 2 ^ 25, step := 1 / 2 }

theorem lostStep_rising : lostStep.Rising where
  isF32 := ⟨2 ^ 24, 0, by norm_num, by norm_num, by norm_num [lostStep]⟩
  band := by norm_num [lostStep]
  finite := by norm_num [lostStep]
  rising := by norm_num [lostStep]

/-- The map of one such instance after `n` ticks. -/
def lostTicks (n : ℕ) : Values := (tick · [(2, lostStep)])^[n] (seed [(2, lostStep)])

theorem sawtooth_returns_or_sticks_lost : ∃ m, 5 ≤ m ∧ ((lostTicks (m + 1)).lookup 2 = some lostStep.min ∨
    ∀ j, m ≤ j → (lostTicks j).lookup 2 = (lostTicks m).lookup 2) := by
  have hticks : Ticks [(2, lostStep)] (fun _ => [(2, lostStep)]) lostTicks :=
    ⟨rfl, fun _ => List.Perm.refl _, fun n => Function.iterate_succ_apply' _ n _⟩
  exact (sawtooth_returns_or_sticks _ (by simp) _ _ hticks 2 _ (List.mem_singleton_self _) lostStep_rising 5).2

end EmsFixtures.Bacnet
