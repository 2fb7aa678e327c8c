import EmsFixtures.Lib.Decimal
import EmsFixtures.Lib.Runs
import EmsFixtures.Snmp.InitialValues

/-!
# The value map and its writers

`simulator.rs`, `control.rs`, `pdu_load.rs` and the tick task of `main.rs`: everything that writes the value map of an
agent.  `Agent.op` is one critical section on the map and its driven set.  No writer removes a key, and the only keys
that are neither initial nor computed are those an accepted PUT names (`mem_of_mem_op`).
-/

namespace EmsFixtures.Snmp

open HashMap Runs Decimal

/-! ### `simulator.rs` -/

structure IntSawtooth where
  oid : Oid
  min : Int64
  max : Int64
  step : Int64

namespace Simulator

/-- `Simulator::new`: L1 current, 15.00 → 16.00 A. -/
def saws : List IntSawtooth := [{ oid := oidInputCurrent, min := 1500, max := 1600, step := 5 }]

def tickOne (driven : Finset Oid) (values : Values) (sim : IntSawtooth) : Values :=
  if sim.oid ∈ driven then values
  else
    let cur := (values.lookup sim.oid).getD sim.min
    let next := if cur + sim.step > sim.max then sim.min else cur + sim.step
    values.insert sim.oid next

def tick (values : Values) (driven : Finset Oid) : Values := saws.foldl (tickOne driven) values

end Simulator

/-! ### `control.rs` -/

/-- Parse a dotted OID string into components; `none` on any bad segment. -/
def parseOid (dotted : String) : Option Oid := (dotted.toList.splitOn '.').mapM parseU32

/-- The entries of a `PUT /oids` body, in the order its hash map yields them. -/
abbrev SetOids := List (String × Int64)

def parseBody (body : SetOids) : Option (List (Oid × Int64)) :=
  body.mapM fun e => (parseOid e.1).map fun oid => (oid, e.2)

theorem parseBody_eq_none_iff {body : SetOids} : parseBody body = none ↔ ∃ e ∈ body, parseOid e.1 = none := by
  unfold parseBody
  induction body with
  | nil => simp
  | cons e body ih =>
    rw [List.mapM_cons, List.exists_mem_cons_iff, ← ih]
    cases parseOid e.1 with
    | none => simp
    | some oid => cases body.mapM fun e => (parseOid e.1).map fun oid => (oid, e.2) <;> simp

inductive StatusCode where
  | noContent
  | unprocessableEntity
  deriving DecidableEq, Repr

/-- Control state: the live map and the OIDs the simulator must no longer clobber. -/
structure Agent where
  values : Values
  driven : Finset Oid

namespace Agent

def drive (s : Agent) (oid : Oid) (value : Int64) : Agent :=
  { values := s.values.insert oid value, driven := insert oid s.driven }

/-- Apply a batch write; malformed OIDs reject the whole batch before any mutation. -/
def putOids (s : Agent) (body : SetOids) : Agent × StatusCode :=
  match parseBody body with
  | none => (s, .unprocessableEntity)
  | some parsed => (parsed.foldl (fun s e => s.drive e.1 e.2) s, .noContent)

end Agent

/-! ### `pdu_load.rs` -/

/-- What this PDU feeds and how many PDUs share it. -/
structure PduLoad (F : Type) where
  nodes : F
  share : F
  baseW : F

section

variable {F : Type} [F64 F]

/-- The current of a phase, in hundredths of an amp, at its voltage in `values`. -/
def phaseCurrent (powerW : F) (values : Values) (phase : UInt32) : Int64 :=
  let volts := F64.lit ((values.lookup (sentry4 5 [phase])).getD 2400).toInt / F64.lit 10
  let hundredthsA := powerW / F64.lit 3 / volts * F64.lit 100
  F64.toI64 (F64.round hundredthsA)

/-- The OIDs a node draw of `nodeW` sets. -/
def readings (load : PduLoad F) (nodeW : F) (values : Values) : Values :=
  let powerW := (load.nodes * nodeW + load.baseW) / load.share
  let out := HashMap.ofList [(sentry4 3 [], F64.toI64 (F64.round powerW))]
  let out := [1, 2, 3].foldl (fun out phase => out.insert (sentry4 4 [phase]) (phaseCurrent powerW values phase)) out
  out.extend (mirror F out)

end

/-! ### The agent -/

/-- The critical sections that may follow one another; a store carries the map its readings were computed from. -/
inductive Op (F : Type) where
  | put (body : SetOids)
  | tickTask
  | store (load : PduLoad F) (nodeW : F) (seen : Values)

namespace Agent

variable {F : Type} [F64 F]

def start (F : Type) [F64 F] : Agent := { values := initialValues F, driven := ∅ }

/-- One iteration of the tick task: the simulator, then the PDU2-MIB view of the drifted map. -/
def tickTask (F : Type) [F64 F] (s : Agent) : Agent :=
  let values := Simulator.tick s.values s.driven
  -- `mirror` knows nothing of the driven set
  { s with values := values.extend (mirror F values) }

/-- Mark `next`'s OIDs driven and store them. -/
def store (s : Agent) (next : Values) : Agent :=
  { values := s.values.extend next, driven := s.driven ∪ next.keys }

def op (s : Agent) : Op F → Agent
  | .put body => (s.putOids body).1
  | .tickTask => s.tickTask F
  | .store load nodeW seen => s.store (readings load nodeW seen)

def Step (s : Agent) (o : Op F) (t : Agent) : Prop := s.op o = t

theorem step_det (s : Agent) (o : Op F) (t t' : Agent) (h : s.Step o t) (h' : s.Step o t') : t = t' := h.symm.trans h'

theorem exists_run (s : Agent) (ops : List (Op F)) : ∃ t, Run Step s ops t := by
  induction ops generalizing s with
  | nil => exact ⟨s, Run.nil s⟩
  | cons o ops ih =>
    obtain ⟨t, ht⟩ := ih (s.op o)
    exact ⟨t, Run.cons rfl ht⟩

/-- Each operation of a run ends a part of it. -/
theorem exists_run_of_mem (s : Agent) {ops : List (Op F)} {o : Op F} (ho : o ∈ ops) :
    ∃ pre, pre <+: ops ∧ ∃ t : Agent, Run Step s pre (t.op o) := by
  obtain ⟨before, after, rfl⟩ := List.append_of_mem ho
  obtain ⟨t, ht⟩ := exists_run s before
  exact ⟨before ++ [o], ⟨after, by simp⟩, t, run_concat_iff.2 ⟨t, ht, rfl⟩⟩

end Agent

/-- The entries an operation writes through the control surface: those of an accepted body. -/
def Op.accepted {F : Type} : Op F → List (Oid × Int64)
  | .put body => (parseBody body).getD []
  | .tickTask => []
  | .store .. => []

/-! ### The keys of the map -/

/-- The OIDs the simulator and the readings write. -/
def computed : List Oid :=
  [oidInputCurrent, sentry4 3 [], sentry4 4 [1], sentry4 4 [2], sentry4 4 [3], inletPower, pole 1 rmsCurrent,
    pole 1 rmsVoltage, pole 2 rmsCurrent, pole 2 rmsVoltage, pole 3 rmsCurrent, pole 3 rmsVoltage]

theorem computed_carried : ∀ k ∈ computed, Carried k := by decide

section Keys

variable {F : Type} [F64 F]

theorem Agent.foldl_drive (s : Agent) (l : List (Oid × Int64)) :
    l.foldl (fun s e => s.drive e.1 e.2) s =
      { values := s.values.insertAll l, driven := s.driven ∪ (l.map Prod.fst).toFinset } := by
  induction l generalizing s with
  | nil => simp [HashMap.insertAll]
  | cons e l ih =>
    rw [List.foldl_cons, ih]
    simp only [drive, List.map_cons, List.toFinset_cons, Finset.insert_union, Finset.union_insert]
    rfl

theorem Agent.op_put (s : Agent) (body : SetOids) : s.op (.put body : Op F) =
    { values := s.values.insertAll (Op.accepted (.put body : Op F))
      driven := s.driven ∪ ((Op.accepted (.put body : Op F)).map Prod.fst).toFinset } := by
  show (s.putOids body).1 = { values := s.values.insertAll ((parseBody body).getD [])
                              driven := s.driven ∪ (((parseBody body).getD []).map Prod.fst).toFinset }
  unfold Agent.putOids
  cases parseBody body with
  | none => simp [HashMap.insertAll]
  | some parsed => exact Agent.foldl_drive s parsed

theorem mem_mirror {values : Values} {k : Oid} (h : k ∈ mirror F values) : ∃ e ∈ mirrored F, e.target = k := by
  obtain ⟨v, hv⟩ := Finmap.mem_iff.1 h
  obtain ⟨e, he, hk, -⟩ := (lookup_mirror_iff F).1 hv
  exact ⟨e, he, hk⟩

theorem mirrored_computed : ∀ e ∈ mirrored F, e.target ∈ computed := by
  have h : ∀ k ∈ [inletPower, pole 1 rmsCurrent, pole 1 rmsVoltage, pole 2 rmsCurrent, pole 2 rmsVoltage,
    pole 3 rmsCurrent, pole 3 rmsVoltage], k ∈ computed := by decide
  intro e he
  exact h _ (List.mem_map_of_mem (f := Mirrored.target) he)

theorem mirrored_apart : ∀ e ∈ mirrored F, ∀ e' ∈ mirrored F, e'.target ≠ e.source := by
  have hapart : ∀ s ∈ [sentry4 3 [], sentry4 4 [1], sentry4 5 [1], sentry4 4 [2], sentry4 5 [2], sentry4 4 [3],
      sentry4 5 [3]], ∀ t ∈ [inletPower, pole 1 rmsCurrent, pole 1 rmsVoltage, pole 2 rmsCurrent,
      pole 2 rmsVoltage, pole 3 rmsCurrent, pole 3 rmsVoltage], t ≠ s := by decide
  intro e he e' he'
  exact hapart _ (List.mem_map_of_mem (f := Mirrored.source) he) _ (List.mem_map_of_mem (f := Mirrored.target) he')

theorem notMem_mirror {k : Oid} (h : ∀ e ∈ mirrored F, e.target ≠ k) (values : Values) :
    (mirror F values).lookup k = none := by
  rw [Finmap.lookup_eq_none]
  intro hk
  obtain ⟨e, he, hek⟩ := mem_mirror hk
  exact h e he hek

theorem mem_tick {values : Values} {driven : Finset Oid} {k : Oid} :
    k ∈ Simulator.tick values driven ↔ k ∈ values ∨ (k = oidInputCurrent ∧ oidInputCurrent ∉ driven) := by
  show k ∈ (if oidInputCurrent ∈ driven then values else values.insert oidInputCurrent _) ↔ _
  split
  · rename_i h; simp [h]
  · rename_i h; simp [h, Finmap.mem_insert, or_comm]

theorem mem_readings {load : PduLoad F} {nodeW : F} {seen : Values} {k : Oid} (h : k ∈ readings load nodeW seen) :
    k ∈ computed := by
  unfold readings at h
  rcases mem_extend.1 h with h | h
  · have hout : k ∈ [sentry4 4 [3], sentry4 4 [2], sentry4 4 [1], sentry4 3 []] := by
      simpa [Finmap.mem_insert] using h
    have : ∀ k ∈ [sentry4 4 [3], sentry4 4 [2], sentry4 4 [1], sentry4 3 []], k ∈ computed := by decide
    exact this k hout
  · obtain ⟨e, he, rfl⟩ := mem_mirror h
    exact mirrored_computed e he

theorem Agent.op_mono (s : Agent) (o : Op F) {k : Oid} (hk : k ∈ s.values) : k ∈ (s.op o).values := by
  cases o with
  | put body => rw [Agent.op_put]; exact mem_insertAll.2 (Or.inl hk)
  | tickTask => exact mem_extend.2 (Or.inl (mem_tick.2 (Or.inl hk)))
  | store load nodeW seen => exact mem_extend.2 (Or.inl hk)

/-- The keys an operation adds are computed, or named by the PUT it accepts. -/
theorem Agent.mem_of_mem_op {s : Agent} {o : Op F} {k : Oid} (hk : k ∈ (s.op o).values) :
    k ∈ s.values ∨ k ∈ computed ∨ k ∈ o.accepted.map Prod.fst := by
  cases o with
  | put body =>
    rw [Agent.op_put] at hk
    exact (mem_insertAll.1 hk).imp_right Or.inr
  | tickTask =>
    rcases mem_extend.1 hk with hk | hk
    · rcases mem_tick.1 hk with hk | ⟨rfl, -⟩
      · exact Or.inl hk
      · exact Or.inr (Or.inl (by decide))
    · obtain ⟨e, he, rfl⟩ := mem_mirror hk
      exact Or.inr (Or.inl (mirrored_computed e he))
  | store load nodeW seen => exact (mem_extend.1 hk).imp_right fun hk => Or.inl (mem_readings hk)

theorem Agent.mem_op_of_accepted (s : Agent) (o : Op F) {k : Oid} (hk : k ∈ o.accepted.map Prod.fst) :
    k ∈ (s.op o).values := by
  cases o with
  | put body => rw [Agent.op_put]; exact mem_insertAll.2 (Or.inr hk)
  | tickTask => cases hk
  | store load nodeW seen => cases hk

end Keys

end EmsFixtures.Snmp
