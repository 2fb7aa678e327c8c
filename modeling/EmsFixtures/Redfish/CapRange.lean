import EmsFixtures.Lib.EnvVars
import EmsFixtures.Lib.ExtRat
import EmsFixtures.Lib.Panic
import EmsFixtures.Redfish.GpuChassis

/-!
# The advertised range of a cap

A set point enters the state of a node in two ways: a PATCH, which must lie in the allowable range, and `from_env`,
which takes any number for all GPUs at once.  A GPU's cap is therefore what it booted with or in the range, and every
GPU renders a set point within the range it advertises, in every state, iff the environment's cap is in the range.
-/

namespace EmsFixtures.Redfish

open Runs ExtRat Panics

section

variable {F : Type} [F64 F]

/-- Read readings from env, falling back to the defaults. -/
def GpuChassis.fromEnv (parse : String → Option F) (env : EnvVars) : Except NotANumber (GpuChassis F) := do
  let demandW ← envF64 parse env "GPU_DEMAND_W" (F64.lit 1000)
  let setPointW ← envF64 parse env "GPU_POWER_LIMIT_W" (F64.lit 1000)
  let maxClockMhz ← envF64 parse env "GPU_MAX_CLOCK_MHZ" (F64.lit 1980)
  let overheadW ← envF64 parse env "GPU_NODE_OVERHEAD_W" (F64.lit 2500)
  let powerLimitW ← envF64 parse env "GPU_NODE_POWER_LIMIT_W" (F64.lit 26400)
  let inletC ← envF64 parse env "GPU_NODE_INLET_C" (F64.lit 25)
  let fanPercent ← envF64 parse env "GPU_NODE_FAN_PERCENT" (F64.lit 45)
  pure { gpu := { demandW, setPointW, maxClockMhz }, overheadW, powerLimitW, inletC, fanPercent }

/-- The range a PATCH is held to. -/
def InRange (watts : F) : Prop := F64.le allowableMinW watts ∧ F64.le watts allowableMaxW

/-- A PATCH of GPU `i` that is accepted. -/
def Request.Caps (i : Fin gpuCount) : Request F → Prop
  | .get _ => False
  | .patch path body => resolve path = some (.environmentMetrics i) ∧
      ∃ watts, (body.pointer "/PowerLimitWatts/SetPoint").bind Json.asF64 = some watts ∧ InRange watts

/-- The EnvironmentMetrics a GET of GPU `i` is answered with show a set point between the limits they show. -/
def Node.CapAdvertised (n : Node F) (i : Fin gpuCount) : Prop :=
  ∃ (body : Json F) (setPoint lowest highest : F),
    (n.handle (.get (Resource.environmentMetrics i).path)).2 = .ok body ∧
      (body.pointer "/PowerLimitWatts/SetPoint").bind Json.asF64 = some setPoint ∧
      (body.pointer "/PowerLimitWatts/AllowableMin").bind Json.asF64 = some lowest ∧
      (body.pointer "/PowerLimitWatts/AllowableMax").bind Json.asF64 = some highest ∧
      F64.le lowest setPoint ∧ F64.le setPoint highest

/-! ### How a cap changes -/

/-- A PATCH is accepted iff it carries a set point in the range, and sets that. -/
theorem setPowerLimit_eq_ok_iff {g g' : Gpu F} {body : Json F} : g.setPowerLimit body = .ok g' ↔
    ∃ watts, (body.pointer "/PowerLimitWatts/SetPoint").bind Json.asF64 = some watts ∧ InRange watts ∧
      g' = { g with setPointW := watts } := by
  unfold Gpu.setPowerLimit
  cases (body.pointer "/PowerLimitWatts/SetPoint").bind Json.asF64 with
  | none => simp
  | some watts =>
    by_cases hrange : F64.le allowableMinW watts ∧ F64.le watts allowableMaxW
    · simp only [hrange, and_self, if_true, Except.ok.injEq, Option.some_inj, exists_eq_left', InRange, true_and]
      exact eq_comm
    · have hout : ¬ InRange watts := hrange
      simp [hrange, hout]

/-- A request sets the cap of GPU `i` to one in the range if it caps it, and leaves the GPU as it is otherwise. -/
theorem Node.handle_gpu (n : Node F) (r : Request F) (i : Fin gpuCount) :
    (r.Caps i ∧ ∃ watts, InRange watts ∧ (n.handle r).1.gpus i = { n.gpus i with setPointW := watts }) ∨
      (¬ r.Caps i ∧ (n.handle r).1.gpus i = n.gpus i) := by
  cases r with
  | get path =>
    right
    dsimp only [Node.handle]
    split <;> exact ⟨id, rfl⟩
  | patch path body =>
    by_cases hpath : resolve path = some (.environmentMetrics i)
    · have hn : n.handle (.patch path body) = n.patchGpu i body := by
        dsimp only [Node.handle]
        rw [hpath]
      rw [hn, Node.patchGpu]
      cases hset : (n.gpus i).setPowerLimit body with
      | ok g =>
        left
        obtain ⟨watts, hwatts, hrange, rfl⟩ := setPowerLimit_eq_ok_iff.1 hset
        exact ⟨⟨hpath, watts, hwatts, hrange⟩, watts, hrange, Function.update_self ..⟩
      | error reason =>
        right
        refine ⟨?_, rfl⟩
        rintro ⟨-, watts, hwatts, hrange⟩
        rw [setPowerLimit_eq_ok_iff.2 ⟨watts, hwatts, hrange, rfl⟩] at hset
        cases hset
    · right
      refine ⟨fun h => hpath h.1, ?_⟩
      dsimp only [Node.handle]
      split
      · rename_i j hj
        have hij : i ≠ j := by
          rintro rfl
          exact hpath hj
        unfold Node.patchGpu
        split
        · exact Function.update_of_ne hij _ _
        · rfl
      · rfl
      · rfl

theorem Node.inRange_handle {n : Node F} (h : ∀ i, InRange (n.gpus i).setPointW) (r : Request F) (i : Fin gpuCount) :
    InRange ((n.handle r).1.gpus i).setPointW := by
  rcases n.handle_gpu r i with ⟨-, watts, hrange, hgpu⟩ | ⟨-, hgpu⟩
  · rw [hgpu]
    exact hrange
  · rw [hgpu]
    exact h i

theorem GpuChassis.setPoint_of_fromEnv {parse : String → Option F} {env : EnvVars} {chassis : GpuChassis F}
    (h : GpuChassis.fromEnv parse env = .ok chassis) :
    envF64 parse env "GPU_POWER_LIMIT_W" (F64.lit 1000) = .ok chassis.gpu.setPointW := by
  unfold GpuChassis.fromEnv at h
  obtain ⟨demandW, -, h⟩ := bind_eq_ok_iff.1 h
  obtain ⟨setPointW, hcap, h⟩ := bind_eq_ok_iff.1 h
  obtain ⟨maxClockMhz, -, h⟩ := bind_eq_ok_iff.1 h
  obtain ⟨overheadW, -, h⟩ := bind_eq_ok_iff.1 h
  obtain ⟨powerLimitW, -, h⟩ := bind_eq_ok_iff.1 h
  obtain ⟨inletC, -, h⟩ := bind_eq_ok_iff.1 h
  obtain ⟨fanPercent, -, h⟩ := bind_eq_ok_iff.1 h
  cases h
  exact hcap

end

/-! ### What a GET shows -/

theorem asF64_ofF64_finite (q : ℚ) : (Json.ofF64 (finite q)).asF64 = some (finite q) := by
  have hfinite : F64.isFinite (finite q) = true := by
    rw [F64.isFinite, finite_sub, finite_le]
    exact decide_eq_true le_rfl
  rw [Json.ofF64, if_pos hfinite, Json.asF64]

/-- An infinite or NaN set point is rendered `null`, which is not in the range either. -/
theorem eq_of_asF64_ofF64 {x y : ExtRat} (h : (Json.ofF64 x).asF64 = some y) : x = y := by
  unfold Json.ofF64 at h
  split at h
  · simpa [Json.asF64] using h
  · cases h

theorem Node.capAdvertised_iff (n : Node ExtRat) (i : Fin gpuCount) :
    n.CapAdvertised i ↔ InRange (n.gpus i).setPointW := by
  have hget : (n.handle (.get (Resource.environmentMetrics i).path)).2 = .ok (environmentMetricsJson (n.gpus i)) := by
    dsimp only [Node.handle]
    rw [resolve_path]
    rfl
  have hlowest : (Json.ofF64 (allowableMinW : ExtRat)).asF64 = some allowableMinW := asF64_ofF64_finite 200
  have hhighest : (Json.ofF64 (allowableMaxW : ExtRat)).asF64 = some allowableMaxW := asF64_ofF64_finite 1000
  constructor
  · intro h
    obtain ⟨body, setPoint, lowest, highest, hbody, hset, hlow, hhigh, hle, hge⟩ := h
    rw [hget] at hbody
    cases hbody
    obtain rfl : (n.gpus i).setPointW = setPoint := eq_of_asF64_ofF64 hset
    obtain rfl := Option.some.inj (hlowest.symm.trans hlow)
    obtain rfl := Option.some.inj (hhighest.symm.trans hhigh)
    exact ⟨hle, hge⟩
  · intro h
    obtain ⟨q, hq⟩ := isFinite_of_in_range h
    have hset : (Json.ofF64 (n.gpus i).setPointW).asF64 = some (n.gpus i).setPointW := by
      rw [hq]
      exact asF64_ofF64_finite q
    exact ⟨_, _, _, _, hget, hset, hlowest, hhighest, h.1, h.2⟩

/-- Every GPU's cap is within the range it advertises, in every state, iff `GPU_POWER_LIMIT_W` is not set or is a
number in the range. -/
theorem caps_advertised_iff (parse : String → Option ExtRat) (env : EnvVars) (chassis : GpuChassis ExtRat)
    (henv : GpuChassis.fromEnv parse env = .ok chassis) :
    (∀ rs n, Run Node.Step (Node.boot chassis) rs n → ∀ i, n.CapAdvertised i) ↔
      ∀ raw, env "GPU_POWER_LIMIT_W" = some raw → ∃ watts, parse raw = some watts ∧ InRange watts := by
  have hcap := envF64_eq_ok_iff.1 (GpuChassis.setPoint_of_fromEnv henv)
  constructor
  · intro h raw hraw
    have hboot : InRange chassis.gpu.setPointW :=
      (Node.capAdvertised_iff _ _).1 (h [] (Node.boot chassis) (Run.nil _) 0)
    rcases hcap with ⟨hunset, -⟩ | ⟨raw', hraw', hparse⟩
    · rw [hunset] at hraw
      cases hraw
    · rw [hraw'] at hraw
      cases hraw
      exact ⟨_, hparse, hboot⟩
  · intro h rs n hrun i
    have hboot : InRange chassis.gpu.setPointW := by
      rcases hcap with ⟨-, hdefault⟩ | ⟨raw, hraw, hparse⟩
      · rw [← hdefault]
        exact ⟨by decide, by decide⟩
      · obtain ⟨watts, hwatts, hrange⟩ := h raw hraw
        rw [hparse] at hwatts
        cases hwatts
        exact hrange
    have hkeeps : ∀ (n : Node ExtRat) (r : Request ExtRat) (n' : Node ExtRat),
        (∀ i, InRange (n.gpus i).setPointW) → n.Step r n' → ∀ i, InRange (n'.gpus i).setPointW := by
      rintro n r _ hn rfl
      exact Node.inRange_handle hn r
    have hrange := hrun.invariant hkeeps fun _ => hboot
    exact (Node.capAdvertised_iff n i).2 (hrange i)

/-- An environment that sets the boot cap only. -/
def capEnv (raw : String) : EnvVars := fun name => if name = "GPU_POWER_LIMIT_W" then some raw else none

/-- A node whose GPUs boot with a cap of `watts`. -/
def cappedAt (watts : ExtRat) : GpuChassis ExtRat :=
  { GpuChassis.defaults with gpu := { (GpuChassis.defaults : GpuChassis ExtRat).gpu with setPointW := watts } }

theorem fromEnv_capEnv {raw : String} {watts : ExtRat} (h : ExtRat.parse raw = some watts) :
    GpuChassis.fromEnv ExtRat.parse (capEnv raw) = .ok (cappedAt watts) := by
  have hcap : envF64 ExtRat.parse (capEnv raw) "GPU_POWER_LIMIT_W" (F64.lit 1000) = .ok watts :=
    envF64_eq_ok_iff.2 (Or.inr ⟨raw, rfl, h⟩)
  unfold GpuChassis.fromEnv
  rw [hcap]
  rfl

/-- A PATCH of one GPU's set point. -/
def patchCap (i : Fin gpuCount) (watts : ExtRat) : Request ExtRat :=
  .patch (Resource.environmentMetrics i).path (.object [("PowerLimitWatts", .object [("SetPoint", .number watts)])])

theorem caps_advertised_iff_seven_hundred :
    ∃ n, Run Node.Step (Node.boot (cappedAt (finite 700))) [patchCap 2 (finite 1000)] n ∧ n.CapAdvertised 2 := by
  have hparse : ExtRat.parse "700" = some (finite 700) := by decide +kernel
  have hrun : Run Node.Step (Node.boot (cappedAt (finite 700))) [patchCap 2 (finite 1000)] _ :=
    Run.cons rfl (Run.nil _)
  refine ⟨_, hrun, (caps_advertised_iff _ _ _ (fromEnv_capEnv hparse)).2 ?_ _ _ hrun 2⟩
  intro raw hraw
  cases hraw
  exact ⟨_, hparse, by decide, by decide⟩

/-- `GPU_POWER_LIMIT_W=1200` is accepted: every GPU boots 200 W above the highest cap it advertises. -/
theorem boot_cap_unchecked : GpuChassis.fromEnv ExtRat.parse (capEnv "1200") = .ok (cappedAt (finite 1200)) ∧
    Run Node.Step (Node.boot (cappedAt (finite 1200))) [] (Node.boot (cappedAt (finite 1200))) ∧
    ∀ i, ¬ (Node.boot (cappedAt (finite 1200))).CapAdvertised i := by
  refine ⟨fromEnv_capEnv (by decide +kernel), Run.nil _, fun i h => ?_⟩
  have hrange : InRange (finite 1200) := (Node.capAdvertised_iff _ i).1 h
  exact absurd hrange.2 (by decide)

end EmsFixtures.Redfish
