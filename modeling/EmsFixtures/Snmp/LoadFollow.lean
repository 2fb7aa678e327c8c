import EmsFixtures.Snmp.OutsideWrites

/-!
# The load-follow loop

The loop of `pdu_load.rs` takes the value map twice: `readings` computes the phase currents from it, and `store` writes
them after the map has been released.  Between the two a PUT may move a phase voltage, and then the currents stored are
those of the map at the store only if each phase's share of the power is rounded to one current at the old voltage and
the new (`currentsMatch_store_iff`).  As long as no PUT in between moves a voltage the currents match at every store
(`currents_of_stored_voltages`).
-/

namespace EmsFixtures.Snmp

open HashMap Runs

variable {F : Type} [F64 F]

/-- The readings the loop holds on its way to the store, by what they were computed from. -/
structure Pending (F : Type) where
  nodeW : F
  seen : Values

/-- The agent and the load-follow loop over it. -/
structure Following (F : Type) where
  agent : Agent
  pending : Option (Pending F)

/-- The critical sections of the loop and of the tasks beside it. -/
inductive FollowOp (F : Type) where
  | put (body : SetOids)
  | tickTask
  | readings (nodeW : F)
  | store

/-- The entries a section writes through the control surface. -/
def FollowOp.accepted {F : Type} : FollowOp F → List (Oid × Int64)
  | .put body => (Op.put body : Op F).accepted
  | _ => []

namespace Following

def start (F : Type) [F64 F] : Following F := { agent := Agent.start F, pending := none }

/-- One critical section; the loop alternates `readings` and `store`. -/
def op (load : PduLoad F) (s : Following F) : FollowOp F → Option (Following F)
  | .put body => some { s with agent := (s.agent.putOids body).1 }
  | .tickTask => some { s with agent := s.agent.tickTask F }
  | .readings nodeW => match s.pending with
    | none => some { s with pending := some { nodeW, seen := s.agent.values } }
    | some _ => none
  | .store => s.pending.map fun p =>
    { agent := s.agent.store (readings load p.nodeW p.seen), pending := none }

def Step (load : PduLoad F) (s : Following F) (o : FollowOp F) (t : Following F) : Prop := s.op load o = some t

end Following

/-! ### Voltages and currents -/

/-- The phase currents in the map are those of the readings at its own voltages. -/
def CurrentsMatch (load : PduLoad F) (nodeW : F) (values : Values) : Prop :=
  ∀ phase ∈ phases, values.lookup (sentry4 4 [phase]) =
    (readings load nodeW values).lookup (sentry4 4 [phase])

/-- No voltage differs between two maps so far that it changes a current carrying `powerW`. -/
def SameCurrents (powerW : F) (seen values : Values) : Prop :=
  ∀ phase ∈ phases, currentAt powerW (phaseVoltage seen phase) = currentAt powerW (phaseVoltage values phase)

theorem sameCurrents_of_voltages {powerW : F} {seen values : Values}
    (h : ∀ phase ∈ phases, phaseVoltage seen phase = phaseVoltage values phase) : SameCurrents powerW seen values := by
  intro phase hp
  rw [h phase hp]

/-- A store of readings leaves every voltage as it is. -/
theorem phaseVoltage_store (values : Values) (load : PduLoad F) (nodeW : F) (seen : Values) {phase : UInt32}
    (hp : phase ∈ phases) :
    phaseVoltage (values.extend (readings load nodeW seen)) phase = phaseVoltage values phase := by
  unfold phaseVoltage
  rw [lookup_extend, lookup_readings_voltage hp, Option.none_or]

/-- After a store of readings the currents match the map's voltages iff the voltages they were computed from give the
same ones. -/
theorem currentsMatch_store_iff {values seen : Values} {load : PduLoad F} {nodeW : F} :
    CurrentsMatch load nodeW (values.extend (readings load nodeW seen)) ↔
      SameCurrents (powerOf load nodeW) seen values := by
  have hstored : ∀ phase ∈ phases, (values.extend (readings load nodeW seen)).lookup (sentry4 4 [phase]) =
      some (currentAt (powerOf load nodeW) (phaseVoltage seen phase)) := by
    intro phase hp
    rw [lookup_extend, lookup_readings_current hp]
    rfl
  have hnow : ∀ phase ∈ phases,
      (readings load nodeW (values.extend (readings load nodeW seen))).lookup (sentry4 4 [phase]) =
        some (currentAt (powerOf load nodeW) (phaseVoltage values phase)) := by
    intro phase hp
    rw [lookup_readings_current hp, phaseVoltage_store values load nodeW seen hp]
  unfold CurrentsMatch SameCurrents
  constructor
  · intro h phase hp
    have := h phase hp
    rw [hstored phase hp, hnow phase hp] at this
    exact Option.some.inj this
  · intro h phase hp
    rw [hstored phase hp, hnow phase hp, h phase hp]

/-! ### Runs -/

namespace Following

/-- What the loop holds was computed from the voltages that are in the map. -/
def Fresh (s : Following F) : Prop :=
  ∀ p, s.pending = some p → ∀ phase ∈ phases, phaseVoltage p.seen phase = phaseVoltage s.agent.values phase

/-- Between `readings` and `store` a PUT that names a phase voltage writes the one there is. -/
def KeepsVoltages (s : Following F) (o : FollowOp F) : Prop :=
  s.pending.isSome → ∀ phase ∈ phases, ∀ v, lastIn o.accepted (sentry4 5 [phase]) = some v →
    v = phaseVoltage s.agent.values phase

theorem phaseVoltage_tickTask (s : Agent) {phase : UInt32} (hp : phase ∈ phases) :
    phaseVoltage (s.tickTask F).values phase = phaseVoltage s.values phase := by
  have hvoltage : ∀ p ∈ phases, sentry4 5 [p] ≠ oidInputCurrent := List.forall_iff_forall_mem.1 (by decide)
  have hlookup : (s.tickTask F).values.lookup (sentry4 5 [phase]) =
      (Simulator.tick s.values s.driven).lookup (sentry4 5 [phase]) := lookup_op_tickTask s (Or.inr rfl) hp
  rw [phaseVoltage, hlookup, lookup_tick_of_ne (hvoltage phase hp), phaseVoltage]

theorem Fresh.step {load : PduLoad F} {s t : Following F} {o : FollowOp F} (hs : s.Fresh) (hkeeps : s.KeepsVoltages o)
    (h : s.Step load o t) : t.Fresh := by
  cases o with
  | put body =>
    cases h
    intro p hpending phase hp
    rw [hs p hpending phase hp]
    have hput : (s.agent.putOids body).1 = s.agent.op (.put body : Op F) := rfl
    rw [hput, Agent.op_put]
    unfold phaseVoltage
    rw [lookup_insertAll]
    cases hlast : lastIn (Op.accepted (.put body : Op F)) (sentry4 5 [phase]) with
    | none => rfl
    | some v => exact (hkeeps (by rw [hpending]; rfl) phase hp v hlast).symm
  | tickTask =>
    cases h
    exact fun p hpending phase hp => (hs p hpending phase hp).trans (phaseVoltage_tickTask s.agent hp).symm
  | readings nodeW =>
    obtain ⟨agent, _ | p⟩ := s
    · cases h
      rintro p ⟨⟩ phase -
      rfl
    · cases h
  | store =>
    obtain ⟨agent, _ | p⟩ := s
    · cases h
    · cases h
      nofun

end Following

/-- Right after each store the phase currents in the map are those `readings` computes from the voltages in it, in every
run without a PUT that moves a phase voltage between `readings` and `store`. -/
theorem currents_of_stored_voltages (load : PduLoad F) (ops : List (FollowOp F))
    (hkeeps : Along (Following.Step load) (fun s o _ => s.KeepsVoltages o) (Following.start F) ops) :
    Along (Following.Step load) (fun s o t => o = .store → ∀ p, s.pending = some p →
      CurrentsMatch load p.nodeW t.agent.values) (Following.start F) ops := by
  refine Along.imp (I := Following.Fresh) (fun s o t hs ho ht => hs.step ho ht) (fun s o t hs ht _ => ?_)
    (show (Following.start F).Fresh from nofun) hkeeps
  rintro rfl p hp
  have hstore : t.agent = s.agent.store (readings load p.nodeW p.seen) := by
    have hop : s.op load .store = some t := ht
    rw [Following.op, hp] at hop
    cases hop
    rfl
  rw [hstore]
  exact currentsMatch_store_iff.2 (sameCurrents_of_voltages (hs p hp))

/-- Sections whose second PUT comes between the readings and their store, and names no phase voltage. -/
def viewDriven : List (FollowOp ℚ) :=
  [.put [("1.3.6.1.4.1.1718.4.1.5.3.1.3.1.1.1", 2000)], .readings 10500,
    .put [("1.3.6.1.4.1.13742.6.5.2.4.1.4.1.1.1.4", 230)]]

theorem currents_of_stored_voltages_view : ∃ s t : Following ℚ,
    Run (Following.Step PduLoad.defaults) (Following.start ℚ) viewDriven s ∧
    s.Step PduLoad.defaults .store t ∧ CurrentsMatch (PduLoad.defaults : PduLoad ℚ) 10500 t.agent.values := by
  have hview : FollowOp.accepted (.put [("1.3.6.1.4.1.13742.6.5.2.4.1.4.1.1.1.4", 230)] : FollowOp ℚ) =
      [(pole 1 rmsVoltage, 230)] := by decide +kernel
  have hapart : ∀ phase ∈ phases, lastIn [(pole 1 rmsVoltage, (230 : Int64))] (sentry4 5 [phase]) = none :=
    List.forall_iff_forall_mem.1 (by decide +kernel)
  have hkeeps : Along (Following.Step PduLoad.defaults) (fun s o _ => s.KeepsVoltages o) (Following.start ℚ)
      (viewDriven ++ [.store]) := by
    rintro s ⟨⟩
    refine ⟨nofun, ?_⟩
    rintro s ⟨⟩
    refine ⟨nofun, ?_⟩
    rintro s ⟨⟩
    refine ⟨fun _ phase hp v hv => ?_, ?_⟩
    · rw [hview, hapart phase hp] at hv
      cases hv
    · rintro s ⟨⟩
      exact ⟨nofun, trivial⟩
  obtain ⟨s, hs, p, hp, hnode⟩ : ∃ s, Run (Following.Step PduLoad.defaults) (Following.start ℚ) viewDriven s ∧
      ∃ p, s.pending = some p ∧ p.nodeW = 10500 :=
    ⟨_, Run.cons rfl (Run.cons rfl (Run.cons rfl (Run.nil _))), _, rfl, rfl⟩
  have hstore : s.Step PduLoad.defaults .store
      { agent := s.agent.store (readings PduLoad.defaults p.nodeW p.seen), pending := none } := by
    unfold Following.Step Following.op
    rw [hp]
    rfl
  have hmatch :=
    along_iff_after.1 (currents_of_stored_voltages _ _ hkeeps) viewDriven .store [] rfl s _ hs hstore rfl p hp
  exact ⟨s, _, hs, hstore, hnode ▸ hmatch⟩

/-- L1 is driven from 240 V to 200 V between the readings and their store: the current stored is that of 240 V. -/
theorem stale_voltage_stored : ∃ t : Following ℚ,
    Run (Following.Step PduLoad.defaults) (Following.start ℚ)
      [.readings 10500, .put [("1.3.6.1.4.1.1718.4.1.5.3.1.3.1.1.1", 2000)], .store] t ∧
    phaseVoltage t.agent.values 1 = 2000 ∧ t.agent.values.lookup (sentry4 4 [1]) = some 2656 ∧
    ¬ CurrentsMatch (PduLoad.defaults : PduLoad ℚ) 10500 t.agent.values := by
  refine ⟨_, Run.cons rfl (Run.cons rfl (Run.cons rfl (Run.nil _))), ?_, ?_, fun h => ?_⟩
  · decide +kernel
  · decide +kernel
  · have hnow := h 1 (by simp [phases])
    revert hnow
    decide +kernel

end EmsFixtures.Snmp
