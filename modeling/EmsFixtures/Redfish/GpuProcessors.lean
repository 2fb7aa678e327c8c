import EmsFixtures.Lib.Json

/-!
# A GPU under a power cap

`gpu_processors.rs`: the resources of one GPU and the PATCH of its cap.  A PATCH is accepted iff its set point is a
number in the allowable range (`setPowerLimit_cases`), and it changes the cap only.
-/

namespace EmsFixtures.Redfish

variable {F : Type} [F64 F]

/-- Lowest power cap the GPU accepts. -/
def allowableMinW : F := F64.lit 200

/-- Highest power cap the GPU accepts: its TDP. -/
def allowableMaxW : F := F64.lit 1000

/-- One GPU's operating point. -/
structure Gpu (F : Type) where
  demandW : F
  setPointW : F
  maxClockMhz : F

/-- Why a PATCH is refused. -/
inductive PowerLimitError (F : Type) where
  /-- "PATCH must set PowerLimitWatts/SetPoint" -/
  | unset
  /-- "SetPoint {watts} W outside {ALLOWABLE_MIN_W}–{ALLOWABLE_MAX_W} W" -/
  | outside (watts : F)
  deriving DecidableEq

namespace Gpu

/-- Whether the cap is holding the GPU below its demand. -/
def capped (g : Gpu F) : Bool := F64.lt g.setPointW g.demandW

/-- Draw: the demand, or the cap when it binds. -/
def powerW (g : Gpu F) : F := F64.min g.demandW g.setPointW

/-- Clock, scaled down in proportion to the power the cap takes away. -/
def clockMhz (g : Gpu F) : F := F64.round (g.maxClockMhz * g.powerW / g.demandW)

/-- Apply a PATCH of EnvironmentMetrics: the GPU after it. -/
def setPowerLimit (g : Gpu F) (body : Json F) : Except (PowerLimitError F) (Gpu F) :=
  match (body.pointer "/PowerLimitWatts/SetPoint").bind Json.asF64 with
  | none => .error .unset
  | some watts =>
    if F64.le allowableMinW watts ∧ F64.le watts allowableMaxW then .ok { g with setPointW := watts }
    else .error (.outside watts)

end Gpu

def environmentMetricsJson (g : Gpu F) : Json F := .object
  [("@odata.type", .string "#EnvironmentMetrics.v1_3_0.EnvironmentMetrics"),
    ("Id", .string "EnvironmentMetrics"),
    ("PowerWatts", .object [("Reading", .ofF64 g.powerW)]),
    ("PowerLimitWatts", .object
      [("SetPoint", .ofF64 g.setPointW), ("AllowableMin", .ofF64 allowableMinW),
        ("AllowableMax", .ofF64 allowableMaxW), ("ControlMode", .string "Manual")])]

/-- ProcessorMetrics, with NVIDIA's throttle reasons. -/
def processorMetricsJson (g : Gpu F) : Json F :=
  let reason := if g.capped then "SWPowerCap" else "NA"
  .object
    [("@odata.type", .string "#ProcessorMetrics.v1_6_0.ProcessorMetrics"),
      ("Id", .string "ProcessorMetrics"),
      ("OperatingSpeedMHz", .ofF64 g.clockMhz),
      ("Oem", .object [("Nvidia", .object [("ThrottleReasons", .array [.string reason])])])]

/-! ### Accepted set points -/

/-- The set point of a PATCH body that is accepted. -/
def acceptedSetPoint (body : Json ℚ) : Option ℚ :=
  ((body.pointer "/PowerLimitWatts/SetPoint").bind Json.asF64).filter fun watts => 200 ≤ watts ∧ watts ≤ 1000

/-- A PATCH is accepted with the set point it carries, and refused if it carries none in the range. -/
theorem setPowerLimit_cases (g : Gpu ℚ) (body : Json ℚ) :
    (∃ watts, acceptedSetPoint body = some watts ∧ g.setPowerLimit body = .ok { g with setPointW := watts }) ∨
      (acceptedSetPoint body = none ∧ ∃ reason, g.setPowerLimit body = .error reason) := by
  unfold Gpu.setPowerLimit acceptedSetPoint
  cases (body.pointer "/PowerLimitWatts/SetPoint").bind Json.asF64 with
  | none => exact Or.inr ⟨rfl, _, rfl⟩
  | some watts =>
    by_cases h : 200 ≤ watts ∧ watts ≤ 1000
    · refine Or.inl ⟨watts, ?_, ?_⟩
      · simp [Option.filter, h]
      · simp [allowableMinW, allowableMaxW, h]
    · refine Or.inr ⟨?_, .outside watts, ?_⟩
      · simp only [Option.filter, h, decide_false, Bool.false_eq_true, if_false]
      · simp only [allowableMinW, allowableMaxW, F64.rat_lit, F64.rat_le, decide_eq_true_eq, h, if_false]

/-! ### Readings -/

theorem reading_environmentMetricsJson (g : Gpu F) :
    (environmentMetricsJson g).pointer "/PowerWatts/Reading" = some (.ofF64 g.powerW) := rfl

theorem powerW_rat (g : Gpu ℚ) : g.powerW = min g.demandW g.setPointW := F64.rat_min _ _

@[simp] theorem asF64_ofF64 (q : ℚ) : (Json.ofF64 q).asF64 = some q := by
  rw [Json.ofF64, F64.rat_isFinite, if_pos rfl, Json.asF64]

end EmsFixtures.Redfish
