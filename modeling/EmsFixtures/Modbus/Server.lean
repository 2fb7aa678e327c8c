import EmsFixtures.Lib.Driven
import EmsFixtures.Modbus.Battery

/-!
# The Modbus server

`handler.rs`, `simulator.rs` and the register write of `poi.rs`: everything that writes the register map of a server.
`Server.op` is one operation on the handler and the battery behind the server's mutex; the mutex is poisoned by a
panic, so a run stops there.
-/

namespace EmsFixtures.Modbus

open HashMap Panics

/-- The Modbus exceptions the handler answers with. -/
inductive ExceptionCode where
  | illegalFunction
  | illegalDataAddress
  deriving DecidableEq, Repr

/-- `handler.rs`: the live register maps, the addresses owned by the control surface, and the protocol write gate. -/
structure MeterHandler where
  holding : Registers
  input : Registers
  driven : Finset UInt16
  writable : Bool

namespace MeterHandler

def new (holding : Registers) : MeterHandler := { holding, input := ∅, driven := ∅, writable := false }

def drive (h : MeterHandler) (address value : UInt16) : MeterHandler :=
  { h with holding := h.holding.insert address value, driven := insert address h.driven }

/-- `PUT /registers`: the entries of the body in the order the hash map yields them. -/
def applyWrites (h : MeterHandler) (registers : List (UInt16 × UInt16)) : MeterHandler :=
  registers.foldl (fun h r => h.drive r.1 r.2) h

def readHoldingRegister (h : MeterHandler) (address : UInt16) : Except ExceptionCode UInt16 :=
  match h.holding.lookup address with
  | some value => .ok value
  | none => .error .illegalDataAddress

def readInputRegister (h : MeterHandler) (address : UInt16) : Except ExceptionCode UInt16 :=
  match h.input.lookup address with
  | some value => .ok value
  | none => .error .illegalDataAddress

def writeSingleRegister (h : MeterHandler) (index value : UInt16) : MeterHandler × Except ExceptionCode Unit :=
  if h.writable then (h.drive index value, .ok ()) else (h, .error .illegalFunction)

def writeMultipleRegisters (h : MeterHandler) (values : List (UInt16 × UInt16)) :
    MeterHandler × Except ExceptionCode Unit :=
  if h.writable then (values.foldl (fun h r => h.drive r.1 r.2) h, .ok ()) else (h, .error .illegalFunction)

end MeterHandler

/-- Sawtooth for one int32-shaped channel across two consecutive holding registers. -/
structure Int32SawtoothSim where
  addrHigh : UInt16
  addrLow : UInt16
  min : UInt32
  max : UInt32
  step : UInt32

def saturatingAdd (x y : UInt32) : UInt32 := UInt32.ofNatClamp (x.toNat + y.toNat)

namespace Simulator

/-- `Simulator::new`: `kwh_delivered`'s low words. -/
def int32Saws : List Int32SawtoothSim :=
  [{ addrHigh := 3206, addrLow := 3207, min := 1000000, max := 1010000, step := 100 }]

def tickOne (driven : Finset UInt16) (holding : Registers) (sim : Int32SawtoothSim) : Registers :=
  if sim.addrHigh ∈ driven ∨ sim.addrLow ∈ driven then holding
  else
    let high := (holding.lookup sim.addrHigh).getD 0
    let low := (holding.lookup sim.addrLow).getD 0
    let value := saturatingAdd (Words.join high low) sim.step
    let value := if value > sim.max then sim.min else value
    (holding.insert sim.addrHigh (Words.high value)).insert sim.addrLow (Words.low value)

def tick (holding : Registers) (driven : Finset UInt16) : Registers := int32Saws.foldl (tickOne driven) holding

end Simulator

/-- `poi.rs`: the POI meter's active power register pair. -/
def poiActivePower : UInt16 := 3060

/-- Write P_poi to 3060-3061 (float32 high_low) unless either word is driven. -/
def writePoiPower {F : Type} [F64 F] (holding : Registers) (driven : Finset UInt16) (pW : F) : Registers :=
  if poiActivePower ∈ driven ∨ poiActivePower + 1 ∈ driven then holding
  else
    let raw := F64.toF32Bits pW
    (holding.insert poiActivePower (Words.high raw)).insert (poiActivePower + 1) (Words.low raw)

/-- What the server's mutex guards. -/
structure Server (F : Type) where
  meter : MeterHandler
  battery : Battery F

/-- The operations that may follow one another on a server. -/
inductive Op (F : Type) where
  | put (registers : List (UInt16 × UInt16))
  | writeSingle (index value : UInt16)
  | writeMultiple (values : List (UInt16 × UInt16))
  | step (dt : Duration)
  | tick
  | poi (pW : F)

namespace Server

variable {F : Type} [F64 F]

def start (holding input : Registers) (writable : Bool) (battery : Battery F) : Server F :=
  { meter := { MeterHandler.new holding with input, writable }, battery }

def op (s : Server F) : Op F → Except Panic (Server F)
  | .put registers => .ok { s with meter := s.meter.applyWrites registers }
  | .writeSingle index value => .ok { s with meter := (s.meter.writeSingleRegister index value).1 }
  | .writeMultiple values => .ok { s with meter := (s.meter.writeMultipleRegisters values).1 }
  | .step dt => do
    let (battery, holding) ← s.battery.step s.meter.holding s.meter.driven dt
    pure { meter := { s.meter with holding }, battery }
  | .tick => .ok { s with meter := { s.meter with holding := Simulator.tick s.meter.holding s.meter.driven } }
  | .poi pW => .ok { s with meter := { s.meter with holding := writePoiPower s.meter.holding s.meter.driven pW } }

def Step (s : Server F) (o : Op F) (t : Server F) : Prop := s.op o = .ok t

theorem step_det (s : Server F) (o : Op F) (t t' : Server F) (h : s.Step o t) (h' : s.Step o t') : t = t' :=
  Except.ok.inj (h.symm.trans h')

theorem step_step_iff {s t : Server F} {dt : Duration} :
    s.Step (.step dt) t ↔ s.battery.step s.meter.holding s.meter.driven dt = .ok (t.battery, t.meter.holding) ∧
      t.meter = { s.meter with holding := t.meter.holding } := by
  simp only [Step, op, bind_eq_ok_iff]
  constructor
  · intro h
    obtain ⟨⟨b, h⟩, hb, he⟩ := h
    cases he
    exact ⟨hb, rfl⟩
  · intro h
    obtain ⟨hb, hm⟩ := h
    refine ⟨_, hb, ?_⟩
    obtain ⟨m, b⟩ := t
    simp only at hm ⊢
    rw [hm]
    rfl

end Server

/-- The entries an operation writes from outside on a server with the given write gate. -/
def Op.external {F : Type} (writable : Bool) : Op F → List (UInt16 × UInt16)
  | .put registers => registers
  | .writeSingle index value => if writable then [(index, value)] else []
  | .writeMultiple values => if writable then values else []
  | .step _ => []
  | .tick => []
  | .poi _ => []

end EmsFixtures.Modbus
