import EmsFixtures.Snmp.Agent

/-!
# The readings of a load-following PDU

What `readings` of `pdu_load.rs` computes, entry by entry: the input power, the three phase currents and their PDU2-MIB
views (`readings_eq_ofList`).  Only the phase voltages of the map are read, and none is written.
-/

namespace EmsFixtures.Snmp

open HashMap

variable {F : Type} [F64 F]

/-- What `from_env` makes when only `PDU_LOAD_URL` is set. -/
def PduLoad.defaults : PduLoad F := { nodes := F64.lit 7, share := F64.lit 4, baseW := F64.lit 3000 }

def powerOf (load : PduLoad F) (nodeW : F) : F := (load.nodes * nodeW + load.baseW) / load.share

def phases : List UInt32 := [1, 2, 3]

/-- A phase voltage of the map, in tenths of a volt. -/
def phaseVoltage (values : Values) (phase : UInt32) : Int64 := (values.lookup (sentry4 5 [phase])).getD 2400

/-- The current that carries a third of `powerW` at `decivolts`, in hundredths of an amp. -/
def currentAt (powerW : F) (decivolts : Int64) : Int64 :=
  F64.toI64 (F64.round (powerW / F64.lit 3 / (F64.lit decivolts.toInt / F64.lit 10) * F64.lit 100))

theorem phaseCurrent_eq (powerW : F) (values : Values) (phase : UInt32) :
    phaseCurrent powerW values phase = currentAt powerW (phaseVoltage values phase) := rfl

/-- The Sentry4 part of the readings. -/
def sentry4Entries (load : PduLoad F) (nodeW : F) (values : Values) : List (Oid × Int64) :=
  let powerW := powerOf load nodeW
  [(sentry4 3 [], F64.toI64 (F64.round powerW)), (sentry4 4 [1], phaseCurrent powerW values 1),
    (sentry4 4 [2], phaseCurrent powerW values 2), (sentry4 4 [3], phaseCurrent powerW values 3)]

/-- The PDU2-MIB part of the readings. -/
def pdu2Entries (load : PduLoad F) (nodeW : F) (values : Values) : List (Oid × Int64) :=
  let powerW := powerOf load nodeW
  [(inletPower, F64.toI64 (F64.round powerW)), (pole 1 rmsCurrent, phaseCurrent powerW values 1 * 10),
    (pole 2 rmsCurrent, phaseCurrent powerW values 2 * 10), (pole 3 rmsCurrent, phaseCurrent powerW values 3 * 10)]

/-- The keys of the readings. -/
def readingKeys : List Oid :=
  [sentry4 3 [], sentry4 4 [1], sentry4 4 [2], sentry4 4 [3], inletPower, pole 1 rmsCurrent, pole 2 rmsCurrent,
    pole 3 rmsCurrent]

theorem readingKeys_nodup : readingKeys.Nodup := by decide

variable (load : PduLoad F) (nodeW : F) (values : Values)

theorem keys_readingEntries :
    (sentry4Entries load nodeW values ++ pdu2Entries load nodeW values).map Prod.fst = readingKeys := rfl

private theorem lookup_sentry4Entries {k : Oid} {v : Int64} :
    (ofList (sentry4Entries load nodeW values)).lookup k = some v ↔ (k, v) ∈ sentry4Entries load nodeW values := by
  apply lookup_ofList_eq_some_iff
  show [sentry4 3 [], sentry4 4 [1], sentry4 4 [2], sentry4 4 [3]].Nodup
  decide

private theorem mirror_sentry4Entries :
    mirror F (ofList (sentry4Entries load nodeW values)) = ofList (pdu2Entries load nodeW values) := by
  have hpower : (ofList (sentry4Entries load nodeW values)).lookup (sentry4 3 []) =
      some (F64.toI64 (F64.round (powerOf load nodeW))) := by
    rw [lookup_sentry4Entries]
    simp [sentry4Entries]
  have hcurrent : ∀ p, p = 1 ∨ p = 2 ∨ p = 3 → (ofList (sentry4Entries load nodeW values)).lookup (sentry4 4 [p]) =
      some (phaseCurrent (powerOf load nodeW) values p) := by
    intro p hp
    rw [lookup_sentry4Entries]
    rcases hp with rfl | rfl | rfl <;> simp [sentry4Entries]
  have hvoltage : ∀ p, p = 1 ∨ p = 2 ∨ p = 3 →
      (ofList (sentry4Entries load nodeW values)).lookup (sentry4 5 [p]) = none := by
    intro p hp
    rw [Finmap.lookup_eq_none, mem_ofList]
    show sentry4 5 [p] ∉ [sentry4 3 [], sentry4 4 [1], sentry4 4 [2], sentry4 4 [3]]
    rcases hp with rfl | rfl | rfl <;> decide
  rw [mirror_eq_ofList, mirrorEntries, mirrored]
  simp [hpower, hcurrent, hvoltage, pdu2Entries]

/-- The readings are Sentry4 ones and their PDU2-MIB view. -/
theorem readings_eq_extend : readings load nodeW values = (ofList (sentry4Entries load nodeW values)).extend
    (mirror F (ofList (sentry4Entries load nodeW values))) := rfl

/-- The readings are the entries of the two MIBs. -/
theorem readings_eq_ofList : readings load nodeW values =
    ofList (sentry4Entries load nodeW values ++ pdu2Entries load nodeW values) := by
  rw [readings_eq_extend, mirror_sentry4Entries, extend_ofList, ofList_eq_insertAll, ofList_eq_insertAll,
    insertAll_append]

variable {load nodeW values}

theorem lookup_readings_iff {k : Oid} {v : Int64} : (readings load nodeW values).lookup k = some v ↔
    (k, v) ∈ sentry4Entries load nodeW values ++ pdu2Entries load nodeW values := by
  rw [readings_eq_ofList]
  apply lookup_ofList_eq_some_iff
  rw [keys_readingEntries]
  exact readingKeys_nodup

theorem mem_readings_iff {k : Oid} : k ∈ readings load nodeW values ↔ k ∈ readingKeys := by
  rw [readings_eq_ofList, mem_ofList, keys_readingEntries]

theorem mem_phases {phase : UInt32} : phase ∈ phases ↔ phase = 1 ∨ phase = 2 ∨ phase = 3 := by simp [phases]

theorem mem_readingKeys {k : Oid} : k ∈ readingKeys ↔ k = sentry4 3 [] ∨ k = inletPower ∨
    ∃ phase ∈ phases, k = sentry4 4 [phase] ∨ k = pole phase rmsCurrent := by
  simp only [readingKeys, phases, List.mem_cons, List.not_mem_nil, or_false, exists_eq_or_imp, exists_eq_left]
  tauto

/-- No reading is of a voltage. -/
theorem lookup_readings_voltage {phase : UInt32} (hp : phase ∈ phases) :
    (readings load nodeW values).lookup (sentry4 5 [phase]) = none := by
  have hkeys : ∀ p ∈ phases, sentry4 5 [p] ∉ readingKeys := List.forall_iff_forall_mem.1 (by decide)
  rw [Finmap.lookup_eq_none, mem_readings_iff]
  exact hkeys phase hp

theorem lookup_readings_power : (readings load nodeW values).lookup (sentry4 3 []) =
    some (F64.toI64 (F64.round (powerOf load nodeW))) := by
  rw [lookup_readings_iff]
  simp [sentry4Entries]

theorem lookup_readings_inlet : (readings load nodeW values).lookup inletPower =
    some (F64.toI64 (F64.round (powerOf load nodeW))) := by
  rw [lookup_readings_iff]
  simp [pdu2Entries]

theorem lookup_readings_current {phase : UInt32} (hp : phase ∈ phases) :
    (readings load nodeW values).lookup (sentry4 4 [phase]) =
      some (currentAt (powerOf load nodeW) (phaseVoltage values phase)) := by
  rw [lookup_readings_iff]
  rcases mem_phases.1 hp with rfl | rfl | rfl <;> simp [sentry4Entries, phaseCurrent_eq]

theorem lookup_readings_pole {phase : UInt32} (hp : phase ∈ phases) :
    (readings load nodeW values).lookup (pole phase rmsCurrent) =
      some (currentAt (powerOf load nodeW) (phaseVoltage values phase) * 10) := by
  rw [lookup_readings_iff]
  rcases mem_phases.1 hp with rfl | rfl | rfl <;> simp [pdu2Entries, phaseCurrent_eq]

end EmsFixtures.Snmp
