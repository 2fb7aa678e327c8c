import EmsFixtures.Lib.F64
import EmsFixtures.Snmp.Oid

/-!
# The served readings

`oids.rs` and `raritan.rs`: the initial value map, and the PDU2-MIB view computed from the Sentry4 readings.  The view
is a table of seven OIDs, each with the Sentry4 OID it converts (`mirrored`); `lookup_mirror_iff` reads a mirror by
it.
-/

namespace EmsFixtures.Snmp

open HashMap

/-- Sentry4-MIB OID: …1718.4.1.{table}.3.1.3.1.1{.tail}. -/
def sentry4 (table : UInt32) (tail : Oid) : Oid := [1, 3, 6, 1, 4, 1, 1718, 4, 1, table, 3, 1, 3, 1, 1] ++ tail

/-- st4LineCurrent, L1. -/
def oidInputCurrent : Oid := [1, 3, 6, 1, 4, 1, 1718, 4, 1, 4, 3, 1, 3, 1, 1, 1]

/-! ### The Raritan view -/

def activePower : UInt32 := 5
def rmsCurrent : UInt32 := 1
def rmsVoltage : UInt32 := 4

def inletPower : Oid := [1, 3, 6, 1, 4, 1, 13742, 6, 5, 2, 3, 1, 4, 1, 1, activePower]

/-- measurementsInletPoleSensorValue for `pole` (L1..L3) and `sensor`. -/
def pole (pole sensor : UInt32) : Oid := [1, 3, 6, 1, 4, 1, 13742, 6, 5, 2, 4, 1, 4, 1, 1, pole, sensor]

section

variable (F : Type) [F64 F]

/-- `3f64.sqrt()`: the binary64 number nearest to √3. -/
def sqrt3 : F := F64.lit (3900231685776981 / 2251799813685248)

/-- Sentry4 tenths of a phase volt to line-to-line volts. -/
def lineVolts (decivolts : Int64) : Int64 :=
  F64.toI64 (F64.round (F64.lit decivolts.toInt / F64.lit 10 * sqrt3 F))

def mirrorPole (sentry4Values out : Values) (p : UInt32) : Values :=
  let out := out.insertSome (pole p rmsCurrent) ((sentry4Values.lookup (sentry4 4 [p])).map (· * 10))
  out.insertSome (pole p rmsVoltage) ((sentry4Values.lookup (sentry4 5 [p])).map (lineVolts F))

/-- The PDU2-MIB readings for Sentry4 ones present in `sentry4Values`. -/
def mirror (sentry4Values : Values) : Values :=
  let out := insertSome ∅ inletPower (sentry4Values.lookup (sentry4 3 []))
  [1, 2, 3].foldl (mirrorPole F sentry4Values) out

end

def sentry4AndSwitch : Values :=
  HashMap.ofList [(sentry4 4 [1], 1500), (sentry4 4 [2], 1520), (sentry4 4 [3], 1480), (sentry4 5 [1], 2400),
    (sentry4 5 [2], 2395), (sentry4 5 [3], 2405), (sentry4 3 [], 10800), ([1, 3, 6, 1, 2, 1, 2, 2, 1, 8, 1], 1),
    ([1, 3, 6, 1, 2, 1, 99, 1, 1, 1, 4, 1], 27), ([1, 3, 6, 1, 2, 1, 99, 1, 1, 1, 4, 2], 58)]

def initialValues (F : Type) [F64 F] : Values := sentry4AndSwitch.extend (mirror F sentry4AndSwitch)

/-! ### Reading the mirror -/

section Mirror

variable (F : Type) [F64 F]

/-- A PDU2-MIB OID, the Sentry4 OID it shows and the conversion. -/
structure Mirrored where
  target : Oid
  source : Oid
  convert : Int64 → Int64

def mirrored : List Mirrored :=
  [⟨inletPower, sentry4 3 [], id⟩,
    ⟨pole 1 rmsCurrent, sentry4 4 [1], (· * 10)⟩, ⟨pole 1 rmsVoltage, sentry4 5 [1], lineVolts F⟩,
    ⟨pole 2 rmsCurrent, sentry4 4 [2], (· * 10)⟩, ⟨pole 2 rmsVoltage, sentry4 5 [2], lineVolts F⟩,
    ⟨pole 3 rmsCurrent, sentry4 4 [3], (· * 10)⟩, ⟨pole 3 rmsVoltage, sentry4 5 [3], lineVolts F⟩]

theorem mirrored_nodup : ((mirrored F).map Mirrored.target).Nodup :=
  show [inletPower, pole 1 rmsCurrent, pole 1 rmsVoltage, pole 2 rmsCurrent, pole 2 rmsVoltage,
    pole 3 rmsCurrent, pole 3 rmsVoltage].Nodup by decide

def mirrorEntries (values : Values) : List (Oid × Int64) :=
  (mirrored F).filterMap fun e => ((values.lookup e.source).map e.convert).map (Prod.mk e.target)

theorem mirror_eq_ofList (values : Values) : mirror F values = ofList (mirrorEntries F values) := by
  rw [mirrorEntries, ofList_eq_insertAll,
    ← foldl_insertSome Mirrored.target fun e => (values.lookup e.source).map e.convert]
  simp [mirror, mirrored, mirrorPole]

theorem lookup_mirror_iff {values : Values} {k : Oid} {v : Int64} : (mirror F values).lookup k = some v ↔
    ∃ e ∈ mirrored F, e.target = k ∧ (values.lookup e.source).map e.convert = some v := by
  have hnd : ((mirrorEntries F values).map Prod.fst).Nodup :=
    (mirrored_nodup F).sublist (keys_filterMap_sublist Mirrored.target _ _)
  rw [mirror_eq_ofList, lookup_ofList_eq_some_iff hnd, mirrorEntries, List.mem_filterMap]
  constructor
  · intro h
    obtain ⟨e, he, h⟩ := h
    obtain ⟨w, hw, h⟩ := Option.map_eq_some_iff.1 h
    cases h
    exact ⟨e, he, rfl, hw⟩
  · intro h
    obtain ⟨e, he, rfl, h⟩ := h
    exact ⟨e, he, by rw [h]; rfl⟩

end Mirror

end EmsFixtures.Snmp
