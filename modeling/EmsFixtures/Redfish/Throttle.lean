import EmsFixtures.Redfish.CapRange

/-!
# Throttling

EnvironmentMetrics shows the lesser of demand and set point, ProcessorMetrics the clock that stands to the maximum as
this does to the demand, and whether the cap binds: two resources, three formulas, one operating point.  A GPU without
demand has no such proportion, and its clock is rendered `null`; with a demand the resources agree at every set point a
PATCH is accepted for, and at the boot cap unless it is so far below zero that the clock is (`throttle_law_iff`).
-/

namespace EmsFixtures.Redfish

open Runs ExtRat

section Requests

variable {F : Type} [F64 F]

/-- What a GET of `r` shows at `pointer`. -/
def Node.shown (n : Node F) (r : Resource) (pointer : String) : Option (Json F) :=
  match (n.handle (.get r.path)).2 with
  | .ok body => body.pointer pointer
  | _ => none

theorem Node.shown_eq (n : Node F) (r : Resource) (pointer : String) :
    n.shown r pointer = (n.render r).pointer pointer := by
  unfold Node.shown
  dsimp only [Node.handle]
  rw [resolve_path]

/-- After a run a GPU has its boot cap if no request capped it, and a cap in the range otherwise. -/
theorem Node.gpu_of_run {n n' : Node F} {rs : List (Request F)} (h : Run Node.Step n rs n') (i : Fin gpuCount) :
    ((∃ r ∈ rs, r.Caps i) ∧ ∃ watts, InRange watts ∧ n'.gpus i = { n.gpus i with setPointW := watts }) ∨
      ((¬ ∃ r ∈ rs, r.Caps i) ∧ n'.gpus i = n.gpus i) := by
  induction h with
  | nil n => exact Or.inr ⟨by simp, rfl⟩
  | @cons n m n' r rs hr _ ih =>
    obtain rfl : (n.handle r).1 = m := hr
    rcases ih with ⟨⟨r', hr', hcaps⟩, watts, hrange, hgpu⟩ | ⟨hnone, hgpu⟩
    · left
      refine ⟨⟨r', List.mem_cons_of_mem _ hr', hcaps⟩, watts, hrange, ?_⟩
      rw [hgpu]
      rcases n.handle_gpu r i with ⟨-, before, -, hbefore⟩ | ⟨-, hbefore⟩ <;> rw [hbefore]
    · rcases n.handle_gpu r i with ⟨hcaps, watts, hrange, hbefore⟩ | ⟨hno, hbefore⟩
      · exact Or.inl ⟨⟨r, List.mem_cons_self, hcaps⟩, watts, hrange, hgpu.trans hbefore⟩
      · right
        refine ⟨?_, hgpu.trans hbefore⟩
        rw [List.exists_mem_cons_iff]
        exact not_or.2 ⟨hno, hnone⟩

end Requests

/-! ### The law -/

/-- What GPU `i` shows as its reading and its clock. -/
def Node.Shows (n : Node ExtRat) (i : Fin gpuCount) (reading speed : ℚ) : Prop :=
  (n.shown (.environmentMetrics i) "/PowerWatts/Reading").bind Json.asF64 = some (finite reading) ∧
    (n.shown (.processorMetrics i) "/OperatingSpeedMHz").bind Json.asF64 = some (finite speed)

/-- The operating point of GPU `i`, as shown in a state of a node that booted with `chassis`. -/
structure Node.ThrottleLaw (chassis : GpuChassis ExtRat) (n : Node ExtRat) (i : Fin gpuCount) : Prop where
  divisor : (n.gpus i).demandW ≠ F64.lit 0
  speed : ∃ reading speed : ℚ, n.Shows i reading speed ∧ 0 ≤ speed ∧
    F64.le (finite speed) (F64.round chassis.gpu.maxClockMhz) ∧
    (F64.le chassis.gpu.demandW (n.gpus i).setPointW → finite speed = F64.round chassis.gpu.maxClockMhz)
  reason : ∃ reading speed : ℚ, n.Shows i reading speed ∧
    (n.shown (.processorMetrics i) "/Oem/Nvidia/ThrottleReasons" = some (.array [.string "SWPowerCap"]) ↔
      F64.lt (finite reading) chassis.gpu.demandW)
  /-- A lower set point shows no higher reading and no higher clock. -/
  lowered : ∀ rs n', Run Node.Step (Node.boot chassis) rs n' → F64.le (n'.gpus i).setPointW (n.gpus i).setPointW →
    ∃ reading speed reading' speed' : ℚ, n.Shows i reading speed ∧ n'.Shows i reading' speed' ∧
      reading' ≤ reading ∧ speed' ≤ speed

/-- The clock of a demand `d` under a set point `s`, in exact arithmetic. -/
def clockAt (c d s : ℚ) : ℤ := F64.roundHalfAway (c * min d s / d)

theorem clockAt_mono {c d s s' : ℚ} (hc : 0 ≤ c) (hd : 0 ≤ d) (h : s ≤ s') : clockAt c d s ≤ clockAt c d s' := by
  apply F64.roundHalfAway_mono
  have hmin : min d s ≤ min d s' := min_le_min_left d h
  gcongr

theorem clockAt_of_le {c d s : ℚ} (hd : d ≠ 0) (h : d ≤ s) : clockAt c d s = F64.roundHalfAway c := by
  rw [clockAt, min_eq_left h, mul_div_cancel_right₀ c hd]

theorem clockAt_le {c d s : ℚ} (hc : 0 ≤ c) (hd : 0 ≤ d) (hd' : d ≠ 0) : clockAt c d s ≤ F64.roundHalfAway c := by
  have hmin : clockAt c d (min d s) ≤ clockAt c d d := clockAt_mono hc hd (min_le_left d s)
  rw [clockAt_of_le hd' le_rfl] at hmin
  rwa [clockAt, ← min_assoc, min_self] at hmin

/-- The clock is negative only far below a set point of zero. -/
theorem clockAt_nonneg_iff {c d s : ℚ} (hc : 0 ≤ c) (hd : 0 < d) : 0 ≤ clockAt c d s ↔ -(d / 2) < c * s := by
  rw [clockAt, ← not_lt, F64.roundHalfAway_neg_iff, not_le, lt_div_iff₀ hd]
  rcases le_or_gt d s with hle | hlt
  · rw [min_eq_left hle]
    have hcd : 0 ≤ c * d := mul_nonneg hc hd.le
    have hcs : 0 ≤ c * s := mul_nonneg hc (hd.le.trans hle)
    constructor <;> intro <;> linarith
  · rw [min_eq_right hlt.le]
    constructor <;> intro <;> linarith

/-! ### What is shown -/

theorem clockMhz_finite {c d s : ℚ} (hd : d ≠ 0) :
    ({ demandW := finite d, setPointW := finite s, maxClockMhz := finite c } : Gpu ExtRat).clockMhz =
      finite (clockAt c d s) := by
  rw [Gpu.clockMhz, Gpu.powerW, finite_min, finite_mul, finite_div _ hd, finite_round]
  rfl

theorem shows_of_gpu {n : Node ExtRat} {i : Fin gpuCount} {c d s : ℚ} (hd : d ≠ 0)
    (hgpu : n.gpus i = { demandW := finite d, setPointW := finite s, maxClockMhz := finite c }) :
    n.Shows i (min d s) (clockAt c d s) := by
  constructor
  · rw [Node.shown_eq]
    show (Json.ofF64 (n.gpus i).powerW).asF64 = _
    rw [hgpu, Gpu.powerW, finite_min, asF64_ofF64_finite]
  · rw [Node.shown_eq]
    show (Json.ofF64 (n.gpus i).clockMhz).asF64 = _
    rw [hgpu, clockMhz_finite hd, asF64_ofF64_finite]

/-- Without a demand there is no clock to show. -/
theorem shown_clock_of_idle {n : Node ExtRat} {i : Fin gpuCount} {c s : ℚ}
    (hgpu : n.gpus i = { demandW := finite 0, setPointW := finite s, maxClockMhz := finite c }) :
    n.shown (.processorMetrics i) "/OperatingSpeedMHz" = some .null := by
  have hquotient : (n.gpus i).clockMhz = F64.round (infOfSign false (c * min 0 s)) := by
    rw [hgpu, Gpu.clockMhz, Gpu.powerW, finite_min, finite_mul]
    rfl
  rw [Node.shown_eq]
  show some (Json.ofF64 (n.gpus i).clockMhz) = _
  rw [hquotient, infOfSign]
  split
  · rfl
  · cases false ^^ decide (c * min 0 s < 0) <;> rfl

theorem shown_reason_iff (n : Node ExtRat) (i : Fin gpuCount) :
    n.shown (.processorMetrics i) "/Oem/Nvidia/ThrottleReasons" = some (.array [.string "SWPowerCap"]) ↔
      F64.lt (n.gpus i).setPointW (n.gpus i).demandW := by
  rw [Node.shown_eq]
  show some (Json.array [.string (if (n.gpus i).capped then "SWPowerCap" else "NA")]) = _ ↔ (n.gpus i).capped
  split
  · rename_i h
    exact iff_of_true rfl h
  · rename_i h
    exact iff_of_false (by simp) h

theorem Node.Shows.unique {n : Node ExtRat} {i : Fin gpuCount} {reading speed reading' speed' : ℚ}
    (h : n.Shows i reading speed) (h' : n.Shows i reading' speed') : reading = reading' ∧ speed = speed' := by
  have hreading := h.1.symm.trans h'.1
  have hspeed := h.2.symm.trans h'.2
  exact ⟨by simpa using hreading, by simpa using hspeed⟩

/-- The operating point after a run. -/
theorem operating_point {chassis : GpuChassis ExtRat} {c d b : ℚ}
    (hboot : chassis.gpu = { demandW := finite d, setPointW := finite b, maxClockMhz := finite c })
    {rs : List (Request ExtRat)} {n : Node ExtRat} (h : Run Node.Step (Node.boot chassis) rs n) (i : Fin gpuCount) :
    ∃ s, n.gpus i = { demandW := finite d, setPointW := finite s, maxClockMhz := finite c } ∧
      (((∃ r ∈ rs, r.Caps i) ∧ 0 ≤ s) ∨ ((¬ ∃ r ∈ rs, r.Caps i) ∧ s = b)) := by
  have hgpu : (Node.boot chassis).gpus i = { demandW := finite d, setPointW := finite b, maxClockMhz := finite c } :=
    hboot
  rcases Node.gpu_of_run h i with ⟨hcaps, watts, hrange, hn⟩ | ⟨hnone, hn⟩
  · obtain ⟨s, rfl⟩ := isFinite_of_in_range hrange
    have hlow : (200 : ℚ) ≤ s := by
      have hle : F64.le (finite 200) (finite s) = true := hrange.1
      rw [finite_le] at hle
      exact of_decide_eq_true hle
    rw [hgpu] at hn
    exact ⟨s, hn, Or.inl ⟨hcaps, by linarith⟩⟩
  · exact ⟨b, hn.trans hgpu, Or.inr ⟨hnone, rfl⟩⟩

/-- In every state the law holds of a GPU iff it has a demand and, as long as no PATCH capped it, its boot cap is not so
far below zero that its clock is. -/
theorem throttle_law_iff (chassis : GpuChassis ExtRat) (c d b : ℚ)
    (hboot : chassis.gpu = { demandW := finite d, setPointW := finite b, maxClockMhz := finite c }) (hd : 0 ≤ d)
    (hc : 0 ≤ c) (rs : List (Request ExtRat)) (n : Node ExtRat) (h : Run Node.Step (Node.boot chassis) rs n)
    (i : Fin gpuCount) :
    n.ThrottleLaw chassis i ↔ d ≠ 0 ∧ ((¬ ∃ r ∈ rs, r.Caps i) → -(d / 2) < c * b) := by
  obtain ⟨s, hgpu, hs⟩ := operating_point hboot h i
  have hdemand : chassis.gpu.demandW = finite d := by rw [hboot]
  have hclock : chassis.gpu.maxClockMhz = finite c := by rw [hboot]
  have hdivisor : (n.gpus i).demandW ≠ F64.lit 0 ↔ d ≠ 0 := by
    rw [hgpu, finite_lit, Ne, ExtRat.finite.injEq]
  have hcondition : d ≠ 0 → (0 ≤ clockAt c d s ↔ ((¬ ∃ r ∈ rs, r.Caps i) → -(d / 2) < c * b)) := by
    intro hne
    have hpos : 0 < d := lt_of_le_of_ne hd (Ne.symm hne)
    rw [clockAt_nonneg_iff hc hpos]
    rcases hs with ⟨hcaps, hnonneg⟩ | ⟨hnone, rfl⟩
    · have hcs : 0 ≤ c * s := mul_nonneg hc hnonneg
      exact iff_of_true (by linarith) fun hno => absurd hcaps hno
    · exact ⟨fun h _ => h, fun h => h hnone⟩
  constructor
  · intro hlaw
    have hne := hdivisor.1 hlaw.divisor
    refine ⟨hne, (hcondition hne).1 ?_⟩
    obtain ⟨reading, speed, hshows, hnonneg, -⟩ := hlaw.speed
    obtain ⟨-, rfl⟩ := hshows.unique (shows_of_gpu hne hgpu)
    exact_mod_cast hnonneg
  · rintro ⟨hne, hcap⟩
    have hshows := shows_of_gpu hne hgpu
    refine ⟨hdivisor.2 hne, ⟨_, _, hshows, ?_, ?_, fun hle => ?_⟩, ⟨_, _, hshows, ?_⟩, fun rs' n' h' hle => ?_⟩
    · exact_mod_cast (hcondition hne).2 hcap
    · rw [hclock, finite_round, finite_le]
      exact decide_eq_true (Int.cast_le.2 (clockAt_le hc hd hne))
    · rw [hdemand, hgpu, finite_le] at hle
      rw [hclock, finite_round, clockAt_of_le hne (of_decide_eq_true hle)]
    · rw [shown_reason_iff, hgpu, hdemand, finite_lt, finite_lt, decide_eq_true_eq, decide_eq_true_eq, min_lt_iff]
      simp
    · obtain ⟨s', hgpu', -⟩ := operating_point hboot h' i
      rw [hgpu, hgpu', finite_le] at hle
      have hss := of_decide_eq_true hle
      exact ⟨_, _, _, _, hshows, shows_of_gpu hne hgpu', min_le_min_left d hss, Int.cast_le.2 (clockAt_mono hc hd hss)⟩

/-- At the defaults, with a GPU capped to 700 W. -/
theorem throttle_law_iff_seven_hundred :
    ∃ n, Run Node.Step (Node.boot GpuChassis.defaults) [patchCap 2 (finite 700)] n ∧
      n.ThrottleLaw GpuChassis.defaults 2 := by
  have hrun : Run Node.Step (Node.boot GpuChassis.defaults) [patchCap 2 (finite 700)] _ := Run.cons rfl (Run.nil _)
  refine ⟨_, hrun, ?_⟩
  exact (throttle_law_iff GpuChassis.defaults 1980 1000 1000 rfl (by norm_num) (by norm_num) _ _ hrun 2).2
    ⟨by norm_num, fun _ => by norm_num⟩

/-- An environment that sets the demand only. -/
def demandEnv (raw : String) : EnvVars := fun name => if name = "GPU_DEMAND_W" then some raw else none

/-- Eight idle GPUs. -/
def idle : GpuChassis ExtRat :=
  { GpuChassis.defaults with gpu := { (GpuChassis.defaults : GpuChassis ExtRat).gpu with demandW := finite 0 } }

/-- `GPU_DEMAND_W=0` is accepted: no GPU is throttled, capped or not, and none shows a clock. -/
theorem idle_clock_is_null : GpuChassis.fromEnv ExtRat.parse (demandEnv "0") = .ok idle ∧
    ∃ n, Run Node.Step (Node.boot idle) [patchCap 2 (finite 700)] n ∧ (∃ r ∈ [patchCap 2 (finite 700)], r.Caps 2) ∧
      ∀ i, n.shown (.processorMetrics i) "/OperatingSpeedMHz" = some .null ∧ ¬ n.ThrottleLaw idle i := by
  have hparse : ExtRat.parse "0" = some (finite 0) := by decide +kernel
  have hdemand : envF64 ExtRat.parse (demandEnv "0") "GPU_DEMAND_W" (F64.lit 1000) = .ok (finite 0) :=
    envF64_eq_ok_iff.2 (Or.inr ⟨"0", rfl, hparse⟩)
  have hrun : Run Node.Step (Node.boot idle) [patchCap 2 (finite 700)] _ := Run.cons rfl (Run.nil _)
  refine ⟨?_, _, hrun, ?_, fun i => ?_⟩
  · unfold GpuChassis.fromEnv
    rw [hdemand]
    rfl
  · refine ⟨_, List.mem_singleton_self _, resolve_path _, finite 700, rfl, ?_⟩
    exact ⟨by decide, by decide⟩
  · have hidle : idle.gpu = { demandW := finite 0, setPointW := finite 1000, maxClockMhz := finite 1980 } := rfl
    obtain ⟨s, hgpu, -⟩ := operating_point hidle hrun i
    refine ⟨shown_clock_of_idle hgpu, fun hlaw => hlaw.divisor ?_⟩
    rw [hgpu, finite_lit]

end EmsFixtures.Redfish
