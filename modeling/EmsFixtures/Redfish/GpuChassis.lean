import EmsFixtures.Lib.Driven
import EmsFixtures.Redfish.GpuProcessors
import Mathlib.Algebra.BigOperators.Fin

/-!
# A GPU node

`gpu_chassis.rs`: the node's resources and its routes.  A path names at most one resource (`resolve_path`), a PATCH
changes the GPU its path names and no other, and the chassis power is computed from the readings the GPUs serve, so the
two agree in every state.
-/

namespace EmsFixtures.Redfish

open Runs HashMap Driven

/-- GPUs on the HGX baseboard (`GPUS`). -/
abbrev gpuCount : Nat := 8

structure GpuChassis (F : Type) where
  gpu : Gpu F
  overheadW : F
  powerLimitW : F
  inletC : F
  fanPercent : F

section Resources

variable {F : Type} [F64 F]

/-- What `from_env` reads from an empty environment. -/
def GpuChassis.defaults : GpuChassis F :=
  { gpu := { demandW := F64.lit 1000, setPointW := F64.lit 1000, maxClockMhz := F64.lit 1980 }
    overheadW := F64.lit 2500, powerLimitW := F64.lit 26400, inletC := F64.lit 25, fanPercent := F64.lit 45 }

/-- Redfish Power resource; node draw is the GPUs plus everything else. -/
def powerJson (c : GpuChassis F) (gpus : List (Gpu F)) : Json F :=
  let gpuW := F64.sum (gpus.filterMap fun g => (((environmentMetricsJson g).index "PowerWatts").index "Reading").asF64)
  .object
    [("@odata.id", .string "/redfish/v1/Chassis/1/Power"),
      ("@odata.type", .string "#Power.v1_7_1.Power"),
      ("Id", .string "Power"),
      ("Name", .string "Power"),
      ("PowerControl", .array [.object
        [("MemberId", .string "0"), ("Name", .string "Chassis Power Control"),
          ("PowerConsumedWatts", .ofF64 (gpuW + c.overheadW)),
          ("PowerLimit", .object [("LimitInWatts", .ofF64 c.powerLimitW)])]])]

def thermalJson (c : GpuChassis F) : Json F := .object
  [("@odata.id", .string "/redfish/v1/Chassis/1/Thermal"),
    ("@odata.type", .string "#Thermal.v1_7_0.Thermal"),
    ("Id", .string "Thermal"),
    ("Name", .string "Thermal"),
    ("Fans", .array [.object
      [("MemberId", .string "0"), ("Name", .string "Fan 1"), ("Reading", .ofF64 c.fanPercent),
        ("ReadingUnits", .string "Percent")]])]

def inletSensorJson (c : GpuChassis F) : Json F := .object
  [("@odata.id", .string "/redfish/v1/Chassis/1/Sensors/InletTemp"),
    ("@odata.type", .string "#Sensor.v1_7_0.Sensor"),
    ("Id", .string "InletTemp"),
    ("Name", .string "Inlet Temp"),
    ("ReadingType", .string "Temperature"),
    ("ReadingUnits", .string "Cel"),
    ("Reading", .ofF64 c.inletC)]

end Resources

/-! ### Routes -/

inductive Resource where
  | power
  | thermal
  | inletTemp
  | environmentMetrics (i : Fin gpuCount)
  | processorMetrics (i : Fin gpuCount)
  deriving DecidableEq

def gpuBase (i : Fin gpuCount) : String :=
  "/redfish/v1/Systems/HGX_Baseboard_0/Processors/GPU_SXM_" ++ Nat.repr (i + 1)

def Resource.path : Resource → String
  | power => "/redfish/v1/Chassis/1/Power"
  | thermal => "/redfish/v1/Chassis/1/Thermal"
  | inletTemp => "/redfish/v1/Chassis/1/Sensors/InletTemp"
  | environmentMetrics i => gpuBase i ++ "/EnvironmentMetrics"
  | processorMetrics i => gpuBase i ++ "/ProcessorMetrics"

def resources : List Resource :=
  [.power, .thermal, .inletTemp] ++
    (List.finRange gpuCount).flatMap fun i => [.environmentMetrics i, .processorMetrics i]

/-- The resource routed at `path`. -/
def resolve (path : String) : Option Resource := resources.find? fun r => r.path = path

/-- Every path leads to its own resource. -/
theorem resolve_path (r : Resource) : resolve r.path = some r := by
  have hnd : (resources.map Resource.path).Nodup := by decide +kernel
  have hmem : r ∈ resources := by cases r <;> simp [resources]
  cases hr : resolve r.path with
  | none =>
    have := List.find?_eq_none.1 hr r hmem
    simp at this
  | some r' =>
    have hpath : r'.path = r.path := by simpa using List.find?_some hr
    rw [List.inj_on_of_nodup_map hnd (List.mem_of_find?_eq_some hr) hmem hpath]

/-- The node as served. -/
structure Node (F : Type) where
  chassis : GpuChassis F
  gpus : Fin gpuCount → Gpu F

inductive Request (F : Type) where
  | get (path : String)
  | patch (path : String) (body : Json F)

inductive Reply (F : Type) where
  | ok (body : Json F)
  | badRequest (reason : PowerLimitError F)
  | notFound
  | methodNotAllowed

namespace Node

variable {F : Type} [F64 F]

def boot (chassis : GpuChassis F) : Node F := { chassis, gpus := fun _ => chassis.gpu }

def render (n : Node F) : Resource → Json F
  | .power => powerJson n.chassis (List.ofFn n.gpus)
  | .thermal => thermalJson n.chassis
  | .inletTemp => inletSensorJson n.chassis
  | .environmentMetrics i => environmentMetricsJson (n.gpus i)
  | .processorMetrics i => processorMetricsJson (n.gpus i)

/-- PATCH of GPU `i`'s EnvironmentMetrics. -/
def patchGpu (n : Node F) (i : Fin gpuCount) (body : Json F) : Node F × Reply F :=
  match (n.gpus i).setPowerLimit body with
  | .ok g => ({ n with gpus := Function.update n.gpus i g }, .ok (environmentMetricsJson g))
  | .error reason => (n, .badRequest reason)

def handle (n : Node F) : Request F → Node F × Reply F
  | .get path => match resolve path with
    | some r => (n, .ok (n.render r))
    | none => (n, .notFound)
  | .patch path body => match resolve path with
    | some (.environmentMetrics i) => n.patchGpu i body
    | some _ => (n, .methodNotAllowed)
    | none => (n, .notFound)

def Step (n : Node F) (r : Request F) (n' : Node F) : Prop := (n.handle r).1 = n'

end Node

/-! ### Caps -/

/-- The GPU and set point of a PATCH that is accepted. -/
def Request.accepted : Request ℚ → List (Fin gpuCount × ℚ)
  | .get _ => []
  | .patch path body => match resolve path, acceptedSetPoint body with
    | some (.environmentMetrics i), some watts => [(i, watts)]
    | _, _ => []

namespace Node

theorem patchGpu_cases (n : Node ℚ) (i : Fin gpuCount) (body : Json ℚ) :
    (∃ watts, acceptedSetPoint body = some watts ∧ n.patchGpu i body =
      ({ n with gpus := Function.update n.gpus i { n.gpus i with setPointW := watts } },
        .ok (environmentMetricsJson { n.gpus i with setPointW := watts }))) ∨
      (acceptedSetPoint body = none ∧ ∃ reason, n.patchGpu i body = (n, .badRequest reason)) := by
  unfold patchGpu
  rcases setPowerLimit_cases (n.gpus i) body with ⟨watts, hw, hok⟩ | ⟨hw, reason, herr⟩
  · exact Or.inl ⟨watts, hw, by rw [hok]⟩
  · exact Or.inr ⟨hw, reason, by rw [herr]⟩

theorem handle_get (n : Node ℚ) (path : String) : (n.handle (.get path)).1 = n := by
  dsimp only [handle]
  split <;> rfl

theorem handle_patch_gpu (n : Node ℚ) (i : Fin gpuCount) (body : Json ℚ) :
    n.handle (.patch (Resource.environmentMetrics i).path body) = n.patchGpu i body := by
  dsimp only [handle]
  rw [resolve_path]

/-- A PATCH of anything but a GPU's EnvironmentMetrics changes nothing. -/
theorem handle_patch_other (n : Node ℚ) {path : String} (body : Json ℚ)
    (h : ∀ i, resolve path ≠ some (.environmentMetrics i)) : (n.handle (.patch path body)).1 = n := by
  dsimp only [handle]
  split
  · rename_i i hi
    exact absurd hi (h i)
  · rfl
  · rfl

theorem accepted_patch_gpu (i : Fin gpuCount) {path : String} (body : Json ℚ)
    (h : resolve path = some (.environmentMetrics i)) :
    (Request.patch path body).accepted = ((acceptedSetPoint body).map fun watts => (i, watts)).toList := by
  dsimp only [Request.accepted]
  rw [h]
  cases acceptedSetPoint body <;> rfl

theorem accepted_patch_other {path : String} (body : Json ℚ)
    (h : ∀ i, resolve path ≠ some (.environmentMetrics i)) : (Request.patch path body).accepted = [] := by
  dsimp only [Request.accepted]
  split
  · rename_i i watts hi hw
    exact absurd hi (h i)
  · rfl

/-- A request leaves every GPU as it is, up to the set point of the PATCH it accepts. -/
theorem handle_gpus (n : Node ℚ) (r : Request ℚ) : (n.handle r).1.chassis = n.chassis ∧ ∀ i,
    (n.handle r).1.gpus i = { n.gpus i with setPointW := (lastIn r.accepted i).getD (n.gpus i).setPointW } := by
  cases r with
  | get path =>
    rw [handle_get]
    exact ⟨rfl, fun _ => rfl⟩
  | patch path body =>
    by_cases hr : ∃ i, resolve path = some (.environmentMetrics i)
    · obtain ⟨i, hi⟩ := hr
      have hn : n.handle (.patch path body) = n.patchGpu i body := by
        dsimp only [handle]
        rw [hi]
      rw [hn, accepted_patch_gpu i body hi]
      rcases n.patchGpu_cases i body with ⟨watts, hw, hn⟩ | ⟨hw, reason, hn⟩
      · rw [hn, hw]
        refine ⟨rfl, fun j => ?_⟩
        by_cases hj : j = i
        · subst hj
          simp [lastIn]
        · simp [lastIn, hj, Ne.symm hj]
      · rw [hn, hw]
        exact ⟨rfl, fun _ => rfl⟩
    · have hother := not_exists.1 hr
      rw [handle_patch_other n body hother, accepted_patch_other body hother]
      exact ⟨rfl, fun _ => rfl⟩

/-- After a run every GPU has its boot demand and the set point of the last PATCH accepted for it. -/
theorem gpus_of_run {n n' : Node ℚ} {rs : List (Request ℚ)} (h : Run Step n rs n') : n'.chassis = n.chassis ∧ ∀ i,
    n'.gpus i = { n.gpus i with setPointW := (lastWrite Request.accepted rs i).getD (n.gpus i).setPointW } := by
  induction h with
  | nil n => exact ⟨rfl, fun i => rfl⟩
  | @cons n m n' r rs hr hrun ih =>
    obtain ⟨hchassis, hgpus⟩ := n.handle_gpus r
    rw [show (n.handle r).1 = m from hr] at hchassis hgpus
    refine ⟨ih.1.trans hchassis, fun i => ?_⟩
    rw [ih.2 i, hgpus i, lastWrite]
    cases lastWrite Request.accepted rs i <;> rfl

/-! ### Power -/

/-- The `PowerConsumedWatts` of the Power resource a GET is answered with. -/
def consumedWatts (n : Node ℚ) : Option ℚ :=
  match (n.handle (.get Resource.power.path)).2 with
  | .ok body => (body.pointer "/PowerControl/0/PowerConsumedWatts").bind Json.asF64
  | _ => none

/-- The `PowerWatts` reading of the EnvironmentMetrics a GET is answered with. -/
def reading (n : Node ℚ) (i : Fin gpuCount) : Option ℚ :=
  match (n.handle (.get (Resource.environmentMetrics i).path)).2 with
  | .ok body => (body.pointer "/PowerWatts/Reading").bind Json.asF64
  | _ => none

theorem reading_eq (n : Node ℚ) (i : Fin gpuCount) :
    n.reading i = some (min (n.gpus i).demandW (n.gpus i).setPointW) := by
  unfold reading
  dsimp only [handle]
  rw [resolve_path]
  show ((environmentMetricsJson (n.gpus i)).pointer "/PowerWatts/Reading").bind Json.asF64 = _
  rw [reading_environmentMetricsJson, Option.bind_some, asF64_ofF64, powerW_rat]

end Node

theorem consumedWatts_powerJson (c : GpuChassis ℚ) (gpus : List (Gpu ℚ)) :
    ((powerJson c gpus).pointer "/PowerControl/0/PowerConsumedWatts").bind Json.asF64 =
      some ((gpus.map Gpu.powerW).sum + c.overheadW) := by
  have hreadings : (gpus.filterMap fun g =>
      (((environmentMetricsJson g).index "PowerWatts").index "Reading").asF64) = gpus.map Gpu.powerW := by
    have hone : ∀ g : Gpu ℚ, (((environmentMetricsJson g).index "PowerWatts").index "Reading").asF64 =
        some g.powerW := by
      intro g
      show (Json.ofF64 g.powerW).asF64 = _
      rw [asF64_ofF64]
    simp only [hone]
    exact congrFun List.filterMap_eq_map' gpus
  show (some (Json.ofF64 (F64.sum _ + c.overheadW))).bind Json.asF64 = _
  rw [hreadings, F64.rat_sum, Option.bind_some, asF64_ofF64]

/-- After every run of requests each GPU's set point is that of the last PATCH accepted for it, or the boot cap; a
refused PATCH changes nothing and an accepted one its own GPU only; and the chassis power is the overhead plus the
GPUs' readings, each the lesser of demand and set point. -/
theorem gpu_caps (chassis : GpuChassis ℚ) (rs : List (Request ℚ)) (n : Node ℚ)
    (h : Run Node.Step (Node.boot chassis) rs n) :
    (∀ i, (n.gpus i).setPointW = (lastWrite Request.accepted rs i).getD chassis.gpu.setPointW) ∧
    (∀ i body, acceptedSetPoint body = none →
      ∃ reason, n.handle (.patch (Resource.environmentMetrics i).path body) = (n, .badRequest reason)) ∧
    (∀ i body j, j ≠ i →
      (n.handle (.patch (Resource.environmentMetrics i).path body)).1.gpus j = n.gpus j) ∧
    ∃ readings : Fin gpuCount → ℚ, (∀ i, n.reading i = some (readings i)) ∧
      (∀ i, readings i = min chassis.gpu.demandW (n.gpus i).setPointW) ∧
      n.consumedWatts = some (chassis.overheadW + ∑ i, readings i) := by
  obtain ⟨hchassis, hgpus⟩ := Node.gpus_of_run h
  have hdemand : ∀ i, (n.gpus i).demandW = chassis.gpu.demandW := by
    intro i
    rw [hgpus i]
    rfl
  refine ⟨fun i => ?_, fun i body hbody => ?_, fun i body j hj => ?_, fun i => (n.gpus i).powerW, fun i => ?_,
    fun i => ?_, ?_⟩
  · rw [hgpus i]
    rfl
  · rw [Node.handle_patch_gpu]
    rcases n.patchGpu_cases i body with ⟨watts, hw, -⟩ | ⟨-, hn⟩
    · rw [hbody] at hw
      cases hw
    · exact hn
  · rw [(n.handle_gpus _).2 j]
    have hnone : lastIn (Request.patch (Resource.environmentMetrics i).path body).accepted j = none := by
      rw [Node.accepted_patch_gpu i body (resolve_path _)]
      cases acceptedSetPoint body with
      | none => rfl
      | some watts => simp [lastIn, Ne.symm hj]
    rw [hnone]
    rfl
  · exact (n.reading_eq i).trans (congrArg some (powerW_rat _).symm)
  · exact (powerW_rat _).trans (by rw [hdemand])
  · unfold Node.consumedWatts
    dsimp only [Node.handle]
    rw [resolve_path]
    show ((powerJson n.chassis (List.ofFn n.gpus)).pointer _).bind Json.asF64 = _
    rw [consumedWatts_powerJson, hchassis, List.map_ofFn, List.sum_ofFn, add_comm]
    rfl

/-- The body of a PATCH of the cap. -/
def capBody (watts : ℚ) : Json ℚ := .object [("PowerLimitWatts", .object [("SetPoint", .number watts)])]

/-- GPU_SXM_3 capped to 700 W, then to 100 W. -/
def capThird : List (Request ℚ) :=
  [.patch (Resource.environmentMetrics 2).path (capBody 700),
    .patch (Resource.environmentMetrics 2).path (capBody 100)]

/-- The cap of 100 W is refused, that of 700 W stays. -/
theorem gpu_caps_third : ∃ n : Node ℚ, Run Node.Step (Node.boot GpuChassis.defaults) capThird n ∧
    (n.gpus 2).setPointW = 700 ∧ n.reading 2 = some 700 := by
  obtain ⟨n, hrun⟩ : ∃ n, Run Node.Step (Node.boot GpuChassis.defaults) capThird n :=
    ⟨_, Run.cons rfl (Run.cons rfl (Run.nil _))⟩
  obtain ⟨hset, -, -, readings, hreading, hmin, -⟩ := gpu_caps GpuChassis.defaults capThird n hrun
  have hcap : (n.gpus 2).setPointW = 700 := by
    rw [hset 2]
    decide +kernel
  refine ⟨n, hrun, hcap, ?_⟩
  rw [hreading, hmin, hcap]
  show some (min (1000 : ℚ) 700) = some 700
  norm_num

end EmsFixtures.Redfish
