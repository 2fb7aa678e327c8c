import EmsFixtures.Snmp.DrivenOids
import EmsFixtures.Snmp.TwoViews

/-!
# Writers from outside the tick task

PUTs and stores write to the value map from outside (`Op.writes`) and mark what they write driven; everything else
they leave as it is.  Of the Sentry4 currents and voltages the tick task itself writes one, the L1 current, and only
while it is undriven.
-/

namespace EmsFixtures.Snmp

open HashMap Runs

variable {F : Type} [F64 F]

/-- What an operation writes to an OID from outside the tick task. -/
def Op.writes : Op F → Oid → Option Int64
  | .put body => lastIn ((Op.put body : Op F).accepted)
  | .tickTask => fun _ => none
  | .store load nodeW seen => (readings load nodeW seen).lookup

theorem lookup_op_of_writes {s : Agent} {o : Op F} {k : Oid} {v : Int64} (h : o.writes k = some v) :
    (s.op o).values.lookup k = some v ∧ k ∈ (s.op o).driven := by
  cases o with
  | put body =>
    have hlast : lastIn ((Op.put body : Op F).accepted) k = some v := h
    have hk : k ∈ ((Op.put body : Op F).accepted).map Prod.fst := lastIn_isSome.1 (by rw [hlast]; rfl)
    rw [Agent.op_put, lookup_insertAll, hlast]
    exact ⟨rfl, Finset.mem_union_right _ (List.mem_toFinset.2 hk)⟩
  | tickTask => cases h
  | store load nodeW seen =>
    have hread : (readings load nodeW seen).lookup k = some v := h
    constructor
    · show (s.values.extend (readings load nodeW seen)).lookup k = _
      rw [lookup_extend, hread, Option.some_or]
    · exact Finset.mem_union_right _ (Finmap.mem_keys.2 (mem_of_lookup hread))

theorem op_of_not_written {s : Agent} {o : Op F} (ho : o ≠ .tickTask) {k : Oid} (h : o.writes k = none) :
    (s.op o).values.lookup k = s.values.lookup k ∧ (k ∈ (s.op o).driven ↔ k ∈ s.driven) := by
  cases o with
  | put body =>
    have hlast : lastIn ((Op.put body : Op F).accepted) k = none := h
    have hk := lastIn_eq_none.1 hlast
    rw [Agent.op_put, lookup_insertAll, hlast]
    refine ⟨Option.none_or, ?_⟩
    simp only [Finset.mem_union, List.mem_toFinset, hk, or_false]
  | tickTask => exact absurd rfl ho
  | store load nodeW seen =>
    have hread : (readings load nodeW seen).lookup k = none := h
    have hk := Finmap.lookup_eq_none.1 hread
    constructor
    · show (s.values.extend (readings load nodeW seen)).lookup k = _
      rw [lookup_extend, hread, Option.none_or]
    · show k ∈ s.driven ∪ (readings load nodeW seen).keys ↔ _
      simp only [Finset.mem_union, Finmap.mem_keys, hk, or_false]

/-! ### The tick task -/

theorem lookup_tick_of_ne {values : Values} {driven : Finset Oid} {k : Oid} (h : k ≠ oidInputCurrent) :
    (Simulator.tick values driven).lookup k = values.lookup k := by
  show (if oidInputCurrent ∈ driven then values else values.insert oidInputCurrent _).lookup k = _
  split
  · rfl
  · exact Finmap.lookup_insert_of_ne _ h

/-- Currents and voltages are what the simulator leaves, for the mirror writes none. -/
theorem lookup_op_tickTask (s : Agent) {table phase : UInt32} (ht : table = 4 ∨ table = 5) (hp : phase ∈ phases) :
    (s.op (.tickTask : Op F)).values.lookup (sentry4 table [phase]) =
      (Simulator.tick s.values s.driven).lookup (sentry4 table [phase]) := by
  have hnone := Finmap.lookup_eq_none.2 (sentry4_notMem_mirror (F := F) ht hp (Simulator.tick s.values s.driven))
  show ((Simulator.tick s.values s.driven).extend (mirror F (Simulator.tick s.values s.driven))).lookup _ = _
  rw [lookup_extend, hnone, Option.none_or]

end EmsFixtures.Snmp
