import EmsFixtures.Modbus.ConfiguredRack

/-!
# The device a server models

`main.rs` with the register images of `registers.rs`, `dc_external.rs` and `pv_inverter.rs`: the profile picks the
registers, the battery and the write gate, and which background tasks run.  No operation ever unmaps a register, and
the only registers it maps are those written from outside, so what a device answers with an exception is known from its
profile and the writes it has accepted (`device_registers`).
-/

namespace EmsFixtures.Modbus

open HashMap Panics Runs

/-! ### The register images -/

namespace PoiMeter

/-- `registers.rs`: active_power, frequency, power_factor, kwh_delivered, kwh_received and thd_voltage_a/b/c. -/
def holdingRegisters : Registers := HashMap.ofList [(3060, 0), (3061, 0), (3110, 0x4270), (3111, 0), (3150, 0x3F7A),
  (3151, 0xE148), (3204, 0), (3205, 0), (3206, 0x000F), (3207, 0x4240), (3208, 0), (3209, 0), (3210, 0x0003),
  (3211, 0xD090), (21330, 0x4006), (21331, 0x6666), (21332, 0x4016), (21333, 0x6666), (21334, 0x3FF9),
  (21335, 0x999A)]

end PoiMeter

namespace DcExternal

def holdingRegisters : Registers := HashMap.ofList [(53249, 2), (53257, 300)]

def inputRegisters : Registers := HashMap.ofList [(53508, 300), (53511, 380), (53513, 250), (53633, 65), (53634, 62),
  (53616, 0)]

end DcExternal

namespace PvInverter

def holdingRegisters : Registers := HashMap.ofList [(40000, 0x5375), (40001, 0x6E53), (40002, 1), (40003, 66),
  (40070, 103), (40071, 50), (40084, 31250), (40085, 2)]

end PvInverter

/-! ### `main` -/

inductive Profile where
  | poiMeter
  | bessRack
  | dcExternal
  | pvInverter
  deriving DecidableEq, Repr

def Profile.parse : String → Option Profile
  | "poi_meter" => some .poiMeter
  | "bess_rack" => some .bessRack
  | "dc_external" => some .dcExternal
  | "pv_inverter" => some .pvInverter
  | _ => none

/-- What `main` fails with: "unknown MODBUS_PROFILE: {other}", or the error of `battery::from_env`. -/
inductive BootError (F : Type) where
  | unknownProfile (other : String)
  | battery (e : EnvError F)

/-- A server as `main` sets it up; only the rack has a battery. -/
structure Device (F : Type) where
  profile : Profile
  meter : MeterHandler
  battery : Option (Battery F)

/-- A write from outside, an iteration of `spawn_simulator`'s loop, or one of the POI tracker's that publishes. -/
inductive DeviceOp (F : Type) where
  | put (registers : List (UInt16 × UInt16))
  | writeSingle (index value : UInt16)
  | writeMultiple (values : List (UInt16 × UInt16))
  | simulate (dt : Duration)
  | poi (pW : F)

namespace Device

variable {F : Type} [F64 F] (parse : String → Option F) (env : EnvVars)

/-- Devices whose templates carry commands take writes; the others only when opted in. -/
def writable (profile : Profile) : Bool :=
  profile = .bessRack ∨ profile = .dcExternal ∨ env "MODBUS_WRITABLE" = some "1"

def handler (profile : Profile) (holding input : Registers) : MeterHandler :=
  { MeterHandler.new holding with input, writable := writable env profile }

def boot : Except Panic (Except (BootError F) (Device F)) :=
  let name := (env "MODBUS_PROFILE").getD "poi_meter"
  match Profile.parse name with
  | some .poiMeter =>
    pure (.ok { profile := .poiMeter, meter := handler env .poiMeter PoiMeter.holdingRegisters ∅, battery := none })
  | some .bessRack => do
    match ← fromEnv parse env with
    | .ok (battery, holding) =>
      pure (.ok { profile := .bessRack, meter := handler env .bessRack holding ∅, battery := some battery })
    | .error e => pure (.error (.battery e))
  | some .dcExternal =>
    let meter := handler env .dcExternal DcExternal.holdingRegisters DcExternal.inputRegisters
    pure (.ok { profile := .dcExternal, meter, battery := none })
  | some .pvInverter =>
    pure (.ok { profile := .pvInverter, meter := handler env .pvInverter PvInverter.holdingRegisters ∅, battery := none })
  | none => pure (.error (.unknownProfile name))

/-- The body of `spawn_simulator`'s loop: a rack steps its battery instead of the sawtooth. -/
def simulate (d : Device F) (dt : Duration) : Except Panic (Device F) :=
  match d.battery with
  | some b => do
    let (b, holding) ← b.step d.meter.holding d.meter.driven dt
    pure { d with meter := { d.meter with holding }, battery := some b }
  | none => pure { d with meter := { d.meter with holding := Simulator.tick d.meter.holding d.meter.driven } }

def op (d : Device F) : DeviceOp F → Except Panic (Device F)
  | .put registers => .ok { d with meter := d.meter.applyWrites registers }
  | .writeSingle index value => .ok { d with meter := (d.meter.writeSingleRegister index value).1 }
  | .writeMultiple values => .ok { d with meter := (d.meter.writeMultipleRegisters values).1 }
  | .simulate dt => d.simulate dt
  | .poi pW => .ok { d with meter := { d.meter with holding := writePoiPower d.meter.holding d.meter.driven pW } }

/-- The tasks `main` spawns. -/
def Spawned (d : Device F) : DeviceOp F → Prop
  | .simulate _ => d.profile = .poiMeter ∨ d.battery.isSome
  | .poi _ => d.profile = .poiMeter
  | _ => True

def Step (d : Device F) (o : DeviceOp F) (d' : Device F) : Prop := d.Spawned o ∧ d.op o = .ok d'

end Device

/-- The operation on a server's handler and battery that an operation of a device is. -/
def DeviceOp.onServer {F : Type} (rack : Bool) : DeviceOp F → Op F
  | .put registers => .put registers
  | .writeSingle index value => .writeSingle index value
  | .writeMultiple values => .writeMultiple values
  | .simulate dt => if rack then .step dt else .tick
  | .poi pW => .poi pW

/-- The entries an operation writes from outside on a device with the given write gate. -/
def DeviceOp.external {F : Type} (writable : Bool) (o : DeviceOp F) : List (UInt16 × UInt16) :=
  (o.onServer false).external writable

theorem external_onServer {F : Type} (writable rack : Bool) (o : DeviceOp F) :
    (o.onServer rack).external writable = o.external writable := by
  cases o <;> cases rack <;> rfl

/-- No entry the operation writes from outside names one of the registers. -/
def DeviceOp.Spares {F : Type} (registers : List UInt16) (writable : Bool) (o : DeviceOp F) : Prop :=
  ∀ a ∈ registers, a ∉ (o.external writable).map Prod.fst

instance DeviceOp.decidableSpares {F : Type} (registers : List UInt16) (writable : Bool) (o : DeviceOp F) :
    Decidable (o.Spares registers writable) :=
  List.decidableBAll (fun a => a ∉ (o.external writable).map Prod.fst) registers

/-! ### The registers a device writes on its own -/

/-- The registers the tasks of a profile write. -/
def Profile.live : Profile → List UInt16
  | .poiMeter => [poiActivePower, poiActivePower + 1, 3206, 3207]
  | .bessRack => Battery.published
  | .dcExternal => []
  | .pvInverter => []

/-- `holding'` is `holding` with some of the registers `live` rewritten. -/
structure Rewrites (live : List UInt16) (holding holding' : Registers) : Prop where
  keep : ∀ a, a ∉ live → holding'.lookup a = holding.lookup a
  mem : ∀ a, a ∈ holding → a ∈ holding'

theorem Rewrites.refl (live : List UInt16) (holding : Registers) : Rewrites live holding holding :=
  ⟨fun _ _ => rfl, fun _ ha => ha⟩

theorem Rewrites.trans {live : List UInt16} {h₁ h₂ h₃ : Registers} (h : Rewrites live h₁ h₂)
    (h' : Rewrites live h₂ h₃) : Rewrites live h₁ h₃ :=
  ⟨fun a ha => (h'.keep a ha).trans (h.keep a ha), fun a ha => h'.mem a (h.mem a ha)⟩

theorem rewrites_put {live : List UInt16} {addr : UInt16} (h : addr ∈ live) (holding : Registers)
    (driven : Finset UInt16) (value : UInt16) : Rewrites live holding (put holding driven addr value) := by
  refine ⟨fun a ha => lookup_put_of_ne fun he => ha (he ▸ h), fun a ha => ?_⟩
  unfold put
  split
  · exact ha
  · exact Finmap.mem_insert.2 (Or.inr ha)

theorem rewrites_putI32 {live : List UInt16} {addr : UInt16} (h : addr ∈ live) (h' : addr + 1 ∈ live)
    (holding : Registers) (driven : Finset UInt16) (value : Int32) :
    Rewrites live holding (putI32 holding driven addr value) := by
  refine ⟨fun a ha => lookup_putI32_of_ne (fun he => ha (he ▸ h)) (fun he => ha (he ▸ h')), fun a ha => ?_⟩
  unfold putI32
  split
  · exact ha
  · exact Finmap.mem_insert.2 (Or.inr (Finmap.mem_insert.2 (Or.inr ha)))

section Rewriting

variable {F : Type} [F64 F]

theorem Battery.step_rewrites {b b' : Battery F} {holding holding' : Registers} {driven : Finset UInt16} {dt : Duration}
    (h : b.step holding driven dt = .ok (b', holding')) : Rewrites published holding holding' := by
  have hpair : ∀ p ∈ [activePower, energyDischarged, maxCharge, maxDischarge], p ∈ published ∧ p + 1 ∈ published :=
    List.forall_iff_forall_mem.1 (by decide)
  have hput : ∀ p, p ∈ [activePower, energyDischarged, maxCharge, maxDischarge] → ∀ holding value,
      Rewrites published holding (putI32 holding driven p value) :=
    fun p hp holding value => rewrites_putI32 (hpair p hp).1 (hpair p hp).2 holding driven value
  obtain ⟨_, power, -, -, -, hpub⟩ := step_eq_ok_iff.1 h
  obtain ⟨charge, discharge, -, rfl⟩ := publish_eq_ok_iff.1 hpub
  exact (rewrites_put (by decide) _ _ _).trans <| (hput _ (by simp) _ _).trans <| (hput _ (by simp) _ _).trans <|
    (hput _ (by simp) _ _).trans <| (hput _ (by simp) _ _).trans <| rewrites_put (by decide) _ _ _

theorem rewrites_tick (holding : Registers) (driven : Finset UInt16) :
    Rewrites Profile.poiMeter.live holding (Simulator.tick holding driven) := by
  obtain ⟨value, h⟩ := tick_eq_putI32 holding driven
  rw [h]
  exact rewrites_putI32 (by decide) (by decide) _ _ _

theorem rewrites_writePoiPower (holding : Registers) (driven : Finset UInt16) (pW : F) :
    Rewrites Profile.poiMeter.live holding (writePoiPower holding driven pW) := by
  rw [writePoiPower_eq_putI32]
  exact rewrites_putI32 (by decide) (by decide) _ _ _

end Rewriting

end EmsFixtures.Modbus
