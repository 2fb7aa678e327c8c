import EmsFixtures.Lib.Runs
import EmsFixtures.Modbus.Server

/-!
# The POI meter's tick loop

`compute_load.rs` and the loop of `poi.rs`.  A tick reads every rack and, when compute is modelled, a node's draw.  A
failed rack read skips the tick, a failed node read holds the last draw; before the first draw nothing is held, and the
loop then publishes a sum without compute (`PoiLoop.tick_complete_iff`).
-/

namespace EmsFixtures.Modbus

open HashMap Runs

variable {F : Type} [F64 F]

/-- How many GPU nodes the site load includes. -/
structure ComputeLoad (F : Type) where
  nodes : F

/-- `fixedW` (everything but compute), plus compute's nodes at `nodeW` each when it is modelled. -/
def siteLoad (fixedW : F) (compute : Option (ComputeLoad F × F)) : F :=
  fixedW + (compute.map fun c => c.1.nodes * c.2).getD (F64.lit 0)

/-- `poi_active_power`: P_poi, + = import from grid. -/
def poiActivePowerW (siteLoadW : F) (rackPowersW : List F) : F := siteLoadW - F64.sum rackPowersW

/-- The rack's active power register pair. -/
def rackActivePower : UInt16 := 10

/-- One rack's active_power (W) from the words it answers a read of two registers with, or `none` if the read failed. -/
def readRackPower (answer : Option (List UInt16)) : Option F :=
  answer.bind fun words =>
    words[0]?.bind fun high =>
      words[1]?.map fun low => F64.lit (Words.join high low).toInt32.toInt

/-- What a server answers a read of two holding registers with: both words, or an exception. -/
def MeterHandler.readPair (h : MeterHandler) (address : UInt16) : Option (List UInt16) :=
  match h.readHoldingRegister address, h.readHoldingRegister (address + 1) with
  | .ok high, .ok low => some [high, low]
  | _, _ => none

/-- What `spawn_from_env` reads from the environment; `channels` racks are read. -/
structure PoiConfig (F : Type) where
  fixedLoad : F
  channels : Nat
  compute : Option (ComputeLoad F)

/-- How the reads of one tick come out. -/
structure Reads (F : Type) (channels : Nat) where
  racks : Fin channels → Option F
  node : Option F

/-- The last good node draw, and the meter the loop writes to. -/
structure PoiLoop (F : Type) where
  nodeW : Option F
  meter : MeterHandler

/-- A tick of the loop, or a write to the meter from outside between two ticks. -/
inductive PoiOp (F : Type) (channels : Nat) where
  | tick (reads : Reads F channels)
  | put (registers : List (UInt16 × UInt16))

namespace PoiLoop

variable {c : PoiConfig F}

def start (meter : MeterHandler) : PoiLoop F := { nodeW := none, meter }

/-- The node draw a tick holds after its reads. -/
def holdNode (c : PoiConfig F) (nodeW : Option F) (reads : Reads F c.channels) : Option F :=
  match c.compute with
  | none => nodeW
  | some _ => match reads.node with
    | some w => some w
    | none => nodeW

/-- One tick of the loop, with the value it passes to `write_poi_power`. -/
def tick (c : PoiConfig F) (s : PoiLoop F) (reads : Reads F c.channels) : PoiLoop F × Option F :=
  let powers := (List.ofFn reads.racks).filterMap id
  let nodeW := holdNode c s.nodeW reads
  -- nothing held means no compute in the sum
  let load := siteLoad c.fixedLoad (c.compute.bind fun l => nodeW.map fun w => (l, w))
  if powers.length = c.channels then
    let pPoi := poiActivePowerW load powers
    ({ nodeW, meter := { s.meter with holding := writePoiPower s.meter.holding s.meter.driven pPoi } }, some pPoi)
  else ({ nodeW, meter := s.meter }, none)

def op (c : PoiConfig F) (s : PoiLoop F) : PoiOp F c.channels → PoiLoop F
  | .tick reads => (s.tick c reads).1
  | .put registers => { s with meter := s.meter.applyWrites registers }

def Step (c : PoiConfig F) (s : PoiLoop F) (o : PoiOp F c.channels) (t : PoiLoop F) : Prop := s.op c o = t

end PoiLoop

/-! ### What a tick must publish -/

/-- The node draw an operation reads. -/
def PoiOp.draw (c : PoiConfig F) : PoiOp F c.channels → Option F
  | .tick reads => c.compute.bind fun _ => reads.node
  | .put _ => none

/-- The most recent node draw read successfully. -/
def lastDraw (c : PoiConfig F) (ops : List (PoiOp F c.channels)) : Option F :=
  (ops.filterMap (PoiOp.draw c)).getLast?

/-- Every rack was read, at these powers. -/
def Reads.All {channels : Nat} (reads : Reads F channels) (powers : Fin channels → F) : Prop :=
  ∀ i, reads.racks i = some (powers i)

/-- `pPoi` is the fixed load, with the nodes at `draw` when compute is modelled, less the racks' powers. -/
def IsPoiPower (c : PoiConfig F) (draw : Option F) (powers : Fin c.channels → F) (pPoi : F) : Prop :=
  match c.compute with
  | none => pPoi = c.fixedLoad + F64.lit 0 - F64.sum (List.ofFn powers)
  | some l => ∃ w, draw = some w ∧ pPoi = c.fixedLoad + l.nodes * w - F64.sum (List.ofFn powers)

/-- A tick that publishes publishes the whole sum, and one that lacks a rack or a node draw leaves the meter alone. -/
structure PublishesComplete (c : PoiConfig F) (draw : Option F) (s : PoiLoop F) (reads : Reads F c.channels) :
    Prop where
  value : ∀ pPoi, (s.tick c reads).2 = some pPoi → ∃ powers, reads.All powers ∧ IsPoiPower c draw powers pPoi
  skip : (∃ i, reads.racks i = none) ∨ (c.compute.isSome ∧ draw = none) →
    (s.tick c reads).2 = none ∧ (s.tick c reads).1.meter = s.meter

namespace PoiLoop

variable {c : PoiConfig F}

/-! ### The reads of a tick -/

omit [F64 F] in
private theorem length_filterMap_ofFn {n : Nat} (racks : Fin n → Option F) :
    ((List.ofFn racks).filterMap id).length = n ↔ ∀ i, (racks i).isSome := by
  have hlen : (List.ofFn racks).length = n := List.length_ofFn
  have hall : List.countP (fun p => (id p).isSome) (List.ofFn racks) = (List.ofFn racks).length ↔
      ∀ i, (racks i).isSome := by
    rw [List.countP_eq_length]
    simp [List.mem_ofFn]
  rw [List.length_filterMap_eq_countP, ← hall, hlen]

omit [F64 F] in
private theorem filterMap_ofFn {n : Nat} {racks : Fin n → Option F} {powers : Fin n → F}
    (h : ∀ i, racks i = some (powers i)) : (List.ofFn racks).filterMap id = List.ofFn powers := by
  have hracks : racks = fun i => some (powers i) := funext h
  have hmap : List.ofFn racks = (List.ofFn powers).map some := by
    rw [hracks, List.map_ofFn]
    rfl
  rw [hmap, List.filterMap_map]
  exact List.filterMap_some

omit [F64 F] in
theorem holdNode_eq (nodeW : Option F) (reads : Reads F c.channels) :
    holdNode c nodeW reads = (PoiOp.draw c (.tick reads)).or nodeW := by
  unfold holdNode PoiOp.draw
  cases hr : reads.node <;> cases c.compute <;> simp [hr]

/-- A tick that read every rack publishes with what it then holds. -/
theorem tick_of_all {s : PoiLoop F} {reads : Reads F c.channels} {powers : Fin c.channels → F}
    (h : reads.All powers) : (s.tick c reads).2 = some (poiActivePowerW (siteLoad c.fixedLoad
      (c.compute.bind fun l => (holdNode c s.nodeW reads).map fun w => (l, w))) (List.ofFn powers)) := by
  have hpowers := filterMap_ofFn h
  unfold tick
  simp only [hpowers, List.length_ofFn, if_true]

theorem tick_of_missing {s : PoiLoop F} {reads : Reads F c.channels} (h : ∃ i, reads.racks i = none) :
    (s.tick c reads).2 = none ∧ (s.tick c reads).1.meter = s.meter := by
  have hlen : ((List.ofFn reads.racks).filterMap id).length ≠ c.channels := by
    intro hlen
    obtain ⟨i, hi⟩ := h
    have := (length_filterMap_ofFn reads.racks).1 hlen i
    rw [hi] at this
    cases this
  unfold tick
  simp only [hlen, if_false]
  exact ⟨trivial, trivial⟩

omit [F64 F] in
theorem all_or_missing {n : Nat} (reads : Reads F n) : (∃ powers, reads.All powers) ∨ ∃ i, reads.racks i = none := by
  by_cases h : ∃ i, reads.racks i = none
  · exact Or.inr h
  · left
    have hsome : ∀ i, ∃ p, reads.racks i = some p := by
      intro i
      cases hi : reads.racks i with
      | none => exact absurd ⟨i, hi⟩ h
      | some p => exact ⟨p, rfl⟩
    exact Classical.skolem.1 hsome

theorem isPoiPower_iff {draw : Option F} {powers : Fin c.channels → F} :
    IsPoiPower c draw powers (poiActivePowerW (siteLoad c.fixedLoad
      (c.compute.bind fun l => draw.map fun w => (l, w))) (List.ofFn powers)) ∨ (c.compute.isSome ∧ draw = none) := by
  unfold IsPoiPower
  cases hc : c.compute with
  | none => exact Or.inl rfl
  | some l =>
    cases draw with
    | none => exact Or.inr ⟨rfl, rfl⟩
    | some w => exact Or.inl ⟨w, rfl, rfl⟩

/-- A tick publishes completely iff, having read every rack, it holds a draw of the compute it models. -/
theorem tick_complete_iff {s : PoiLoop F} {reads : Reads F c.channels} :
    PublishesComplete c (holdNode c s.nodeW reads) s reads ↔
      ((∃ powers, reads.All powers) → c.compute.isSome → (holdNode c s.nodeW reads).isSome) := by
  constructor
  · intro h hall hcompute
    obtain ⟨powers, hall⟩ := hall
    by_contra hnone
    have hskip := h.skip (Or.inr ⟨hcompute, Option.not_isSome_iff_eq_none.1 hnone⟩)
    rw [tick_of_all hall] at hskip
    cases hskip.1
  · intro h
    rcases all_or_missing reads with ⟨powers, hall⟩ | hmissing
    · refine ⟨fun pPoi hp => ?_, fun hskip => ?_⟩
      · rw [tick_of_all hall] at hp
        cases hp
        refine ⟨powers, hall, isPoiPower_iff.resolve_right fun hnone => ?_⟩
        have := h ⟨powers, hall⟩ hnone.1
        rw [hnone.2] at this
        cases this
      · rcases hskip with ⟨i, hi⟩ | ⟨hcompute, hnone⟩
        · rw [hall i] at hi
          cases hi
        · have := h ⟨powers, hall⟩ hcompute
          rw [hnone] at this
          cases this
    · have hskip := tick_of_missing (s := s) hmissing
      refine ⟨fun pPoi hp => ?_, fun _ => hskip⟩
      rw [hskip.1] at hp
      cases hp

/-! ### Runs -/

omit [F64 F] in
theorem lastDraw_append_singleton (ops : List (PoiOp F c.channels)) (o : PoiOp F c.channels) :
    lastDraw c (ops ++ [o]) = (o.draw c).or (lastDraw c ops) := by
  unfold lastDraw
  rw [List.filterMap_append]
  cases ho : o.draw c with
  | none => simp [ho]
  | some w => simp [ho]

/-- The loop holds the most recent draw it has read. -/
theorem nodeW_of_run {s t : PoiLoop F} {ops : List (PoiOp F c.channels)} (h : Run (Step c) s ops t) :
    t.nodeW = (lastDraw c ops).or s.nodeW := by
  induction ops using List.reverseRecOn generalizing t with
  | nil =>
    obtain rfl := run_nil_iff.1 h
    rfl
  | append_singleton ops o ih =>
    obtain ⟨u, hu, hv⟩ := run_concat_iff.1 h
    obtain rfl := hv
    rw [lastDraw_append_singleton, Option.or_assoc, ← ih hu]
    cases o with
    | tick reads =>
      show ((u.tick c reads).1).nodeW = _
      rw [← holdNode_eq]
      unfold tick
      dsimp only
      split <;> rfl
    | put registers => rfl

/-- Every tick of a run publishes completely, judged by the most recent draw read, iff none that read every rack comes
before the first draw of the compute it models. -/
theorem poi_complete_iff (c : PoiConfig F) (meter : MeterHandler) (ops : List (PoiOp F c.channels)) :
    (∀ pre reads post s, ops = pre ++ .tick reads :: post → Run (Step c) (start meter) pre s →
      PublishesComplete c (lastDraw c (pre ++ [.tick reads])) s reads) ↔
    ∀ pre reads post, ops = pre ++ .tick reads :: post → (∃ powers, reads.All powers) → c.compute.isSome →
      (lastDraw c (pre ++ [.tick reads])).isSome := by
  have hheld : ∀ pre reads s, Run (Step c) (start meter) pre s →
      lastDraw c (pre ++ [.tick reads]) = holdNode c s.nodeW reads := by
    intro pre reads s hrun
    have hnode := nodeW_of_run hrun
    rw [lastDraw_append_singleton, holdNode_eq, hnode]
    simp [start]
  have hexists : ∀ (pre : List (PoiOp F c.channels)) (s : PoiLoop F), ∃ t, Run (Step c) s pre t := by
    intro pre
    induction pre with
    | nil => exact fun s => ⟨s, Run.nil s⟩
    | cons o pre ih =>
      intro s
      obtain ⟨t, ht⟩ := ih (s.op c o)
      exact ⟨t, Run.cons rfl ht⟩
  constructor
  · intro h pre reads post heq
    obtain ⟨s, hs⟩ := hexists pre (start meter)
    have hcomplete := h pre reads post s heq hs
    rw [hheld pre reads s hs] at hcomplete ⊢
    exact tick_complete_iff.1 hcomplete
  · intro h pre reads post s heq hs
    have hcond := h pre reads post heq
    rw [hheld pre reads s hs] at hcond ⊢
    exact tick_complete_iff.2 hcond

/-- Compute is modelled, no rack is, and the first node read fails: the fixed load goes out as the site's power. -/
theorem poi_published_without_compute : ∃ (c : PoiConfig ℚ) (reads : Reads ℚ c.channels) (s : PoiLoop ℚ),
    c.compute.isSome ∧ Run (Step c) (start (MeterHandler.new ∅)) [] s ∧
      lastDraw c [.tick reads] = none ∧ (s.tick c reads).2 = some 1000 ∧
      ¬ PublishesComplete c (lastDraw c ([] ++ [.tick reads])) s reads := by
  refine ⟨{ fixedLoad := 1000, channels := 0, compute := some { nodes := 1 } },
    { racks := Fin.elim0, node := none }, start (MeterHandler.new ∅), rfl, Run.nil _, rfl, ?_, fun h => ?_⟩
  · show some ((1000 : ℚ) + 0 - 0) = some 1000
    norm_num
  · have hskip := h.skip (Or.inr ⟨rfl, rfl⟩)
    cases hskip.1

end PoiLoop

end EmsFixtures.Modbus
