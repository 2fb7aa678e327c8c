import Mathlib.Algebra.Order.BigOperators.Group.Finset
import Mathlib.Data.Int.ConditionallyCompleteOrder
import EmsFixtures.Capping
import EmsFixtures.Modbus.Site
import EmsFixtures.Snmp.History
import EmsFixtures.Snmp.LoadFollow

/-!
# A GPU node and the meters that follow it

The Redfish node, the load-following PDU and the POI meter of the site, each stepping as it will.  The loops of the PDU
and of the meter ask the node for its draw and use the answer later, when the caps may have moved on.  Once the caps lie
in a range and no PATCH takes them out of it, one draw read since is enough: from then on a meter shows a power of some
caps in the range, and goes on showing it while it reads nothing (`meters_follow_caps`).
-/

namespace EmsFixtures

open HashMap Panics Runs Redfish Snmp Modbus

/-- The node, the answer the PDU's loop got from it and has not used, the PDU and the site. -/
structure Campus (channels : ℕ) where
  node : Node ℚ
  drawn : Option ℚ
  pdu : Following ℚ
  site : Site ℚ channels

inductive CampusOp (channels : ℕ) where
  | node (r : Request ℚ)
  | draw
  | pdu (o : FollowOp ℚ)
  | site (o : SiteOp ℚ channels)

namespace Campus

/-- A draw that is read is what the node serves at that moment; a read that fails answers nothing. -/
inductive Step (load : PduLoad ℚ) (c : PoiConfig ℚ) :
    Campus c.channels → CampusOp c.channels → Campus c.channels → Prop
  | node {s : Campus c.channels} {r : Request ℚ} : Step load c s (.node r) { s with node := (s.node.handle r).1 }
  | draw {s : Campus c.channels} {w : ℚ} (hd : s.drawn = none) (hp : s.pdu.pending = none)
    (hw : s.node.consumedWatts = some w) : Step load c s .draw { s with drawn := some w }
  | readings {s : Campus c.channels} {w : ℚ} {p : Following ℚ} (hd : s.drawn = some w)
    (h : Following.Step load s.pdu (.readings w) p) :
    Step load c s (.pdu (.readings w)) { s with pdu := p, drawn := none }
  | pdu {s : Campus c.channels} {o : FollowOp ℚ} {p : Following ℚ} (ho : ∀ w, o ≠ .readings w)
    (h : Following.Step load s.pdu o p) : Step load c s (.pdu o) { s with pdu := p }
  | site {s : Campus c.channels} {o : SiteOp ℚ c.channels} {t : Site ℚ c.channels}
    (hw : ∀ w, o = .readNode (some w) → s.node.consumedWatts = some w) (h : Site.Step c s.site o t) :
    Step load c s (.site o) { s with site := t }

/-- Everything just started. -/
structure Booted (parse : String → Option ℚ) (chassis : GpuChassis ℚ) {channels : ℕ} (s : Campus channels) : Prop where
  node : s.node = Node.boot chassis
  drawn : s.drawn = none
  pdu : s.pdu = Following.start ℚ
  site : Site.Booted parse s.site

end Campus

/-! ### The node -/

namespace Redfish

/-- The set points of the GPUs. -/
def Node.caps (n : Node ℚ) (i : Fin gpuCount) : ℚ := (n.gpus i).setPointW

/-- What a node draws whose GPUs are capped at `caps`. -/
def GpuChassis.drawUnder (c : GpuChassis ℚ) (caps : Fin gpuCount → ℚ) : ℚ := c.overheadW + ∑ i, min c.gpu.demandW (caps i)

theorem GpuChassis.drawUnder_mono (c : GpuChassis ℚ) : Monotone c.drawUnder := by
  intro lo hi hle
  have hgpu : ∀ i ∈ Finset.univ, min c.gpu.demandW (lo i) ≤ min c.gpu.demandW (hi i) :=
    fun i _ => min_le_min_left _ (hle i)
  have := Finset.sum_le_sum hgpu
  unfold drawUnder
  linarith

/-- A node of this chassis, whatever its caps. -/
structure Node.Of (chassis : GpuChassis ℚ) (n : Node ℚ) : Prop where
  same : n.chassis = chassis
  demand : ∀ i, (n.gpus i).demandW = chassis.gpu.demandW

theorem Node.Of.handle {chassis : GpuChassis ℚ} {n : Node ℚ} (h : n.Of chassis) (r : Request ℚ) :
    (n.handle r).1.Of chassis := by
  obtain ⟨hchassis, hgpus⟩ := n.handle_gpus r
  refine ⟨hchassis.trans h.same, fun i => ?_⟩
  rw [hgpus i]
  exact h.demand i

theorem Node.Of.consumedWatts {chassis : GpuChassis ℚ} {n : Node ℚ} (h : n.Of chassis) :
    n.consumedWatts = some (chassis.drawUnder n.caps) := by
  unfold Node.consumedWatts
  dsimp only [Node.handle]
  rw [resolve_path]
  show ((powerJson n.chassis (List.ofFn n.gpus)).pointer _).bind Json.asF64 = _
  rw [consumedWatts_powerJson, h.same, List.map_ofFn, List.sum_ofFn, add_comm, GpuChassis.drawUnder]
  have hpower : ∀ i, (Gpu.powerW ∘ n.gpus) i = min chassis.gpu.demandW (n.caps i) := by
    intro i
    rw [← h.demand i]
    exact powerW_rat _
  simp only [hpower]

/-- A request leaves the caps in a range that holds every set point it accepts. -/
theorem Node.caps_handle {n : Node ℚ} {lo hi : Fin gpuCount → ℚ} (h : n.caps ∈ Set.Icc lo hi) {r : Request ℚ}
    (hr : ∀ e ∈ r.accepted, e.2 ∈ Set.Icc (lo e.1) (hi e.1)) : (n.handle r).1.caps ∈ Set.Icc lo hi := by
  have hcap : ∀ i, (n.handle r).1.caps i ∈ Set.Icc (lo i) (hi i) := by
    intro i
    unfold Node.caps
    rw [(n.handle_gpus r).2 i]
    cases hlast : lastIn r.accepted i with
    | none => exact ⟨h.1 i, h.2 i⟩
    | some w => exact hr _ (lastIn_mem hlast)
  exact ⟨fun i => (hcap i).1, fun i => (hcap i).2⟩

end Redfish

/-! ### Caps in a range -/

/-- The set points an operation accepts lie in the range. -/
def CampusOp.Within {channels : ℕ} (lo hi : Fin gpuCount → ℚ) : CampusOp channels → Prop
  | .node r => ∀ e ∈ r.accepted, e.2 ∈ Set.Icc (lo e.1) (hi e.1)
  | _ => True

namespace Campus

/-- The node is one of this chassis and its caps lie in the range. -/
structure Capped (chassis : GpuChassis ℚ) (lo hi : Fin gpuCount → ℚ) {channels : ℕ} (s : Campus channels) : Prop where
  node : s.node.Of chassis
  caps : s.node.caps ∈ Set.Icc lo hi

variable {load : PduLoad ℚ} {c : PoiConfig ℚ} {chassis : GpuChassis ℚ} {lo hi : Fin gpuCount → ℚ}
variable {s t : Campus c.channels} {o : CampusOp c.channels} {ops : List (CampusOp c.channels)}

theorem Capped.step (h : Capped chassis lo hi s) (ho : o.Within lo hi) (hstep : Step load c s o t) :
    Capped chassis lo hi t := by
  cases hstep with
  | @node r => exact ⟨h.node.handle r, Node.caps_handle h.caps ho⟩
  | draw hd hp hw => exact ⟨h.node, h.caps⟩
  | readings hd hp => exact ⟨h.node, h.caps⟩
  | pdu hp hstep => exact ⟨h.node, h.caps⟩
  | site hw hstep => exact ⟨h.node, h.caps⟩

theorem Capped.run (h : Capped chassis lo hi s) (hrun : Run (Step load c) s ops t) (hops : ∀ o ∈ ops, o.Within lo hi) :
    Capped chassis lo hi t := by
  refine Run.invariant_along (I := Capped chassis lo hi) (R := fun _ o _ => o.Within lo hi) ?_ hrun h ?_
  · intro s o t hs ho hstep
    exact hs.step ho hstep
  · exact along_of_forall_mem hops s

theorem Capped.draw_mem (h : Capped chassis lo hi s) {w : ℚ} (hw : s.node.consumedWatts = some w) :
    w ∈ Set.Icc (chassis.drawUnder lo) (chassis.drawUnder hi) := by
  rw [h.node.consumedWatts] at hw
  cases hw
  exact ⟨chassis.drawUnder_mono h.caps.1, chassis.drawUnder_mono h.caps.2⟩

theorem of_run {parse : String → Option ℚ} (hs : Booted parse chassis s) (hrun : Run (Step load c) s ops t) :
    t.node.Of chassis := by
  refine Run.invariant (I := fun s : Campus c.channels => s.node.Of chassis) ?_ hrun ?_
  · intro s o t h hstep
    cases hstep with
    | @node r => exact h.handle r
    | draw hd hp hw => exact h
    | readings hd hp => exact h
    | pdu hp hstep => exact h
    | site hw hstep => exact h
  · rw [hs.node]
    exact ⟨rfl, fun _ => rfl⟩

/-! ### The site's meter -/

/-- What the site sees of the campus. -/
def onSite {channels : ℕ} : CampusOp channels → Option (SiteOp ℚ channels)
  | .site o => some o
  | _ => none

theorem run_site (h : Run (Step load c) s ops t) : Run (Site.Step c) s.site (ops.filterMap onSite) t.site := by
  refine h.refines (fun s => s.site) onSite (fun _ => True) (fun _ _ _ _ _ => trivial) ?_ trivial
  intro s o t _ hstep
  cases hstep with
  | node => exact ⟨fun k hk => (by cases hk), fun _ => rfl⟩
  | draw hd hp hw => exact ⟨fun k hk => (by cases hk), fun _ => rfl⟩
  | readings hd hp => exact ⟨fun k hk => (by cases hk), fun _ => rfl⟩
  | pdu hp hstep => exact ⟨fun k hk => (by cases hk), fun _ => rfl⟩
  | @site o u hw hstep =>
    refine ⟨fun k hk => ?_, fun hk => by cases hk⟩
    obtain rfl : o = k := Option.some.inj hk
    exact hstep

/-- Every draw the meter's loop reads while the caps lie in the range is one of such caps. -/
theorem Capped.read_mem (h : Capped chassis lo hi s) (hrun : Run (Step load c) s ops t)
    (hops : ∀ o ∈ ops, o.Within lo hi) {w : ℚ} (hread : .site (.readNode (some w)) ∈ ops) :
    w ∈ Set.Icc (chassis.drawUnder lo) (chassis.drawUnder hi) := by
  obtain ⟨pre, post, rfl⟩ := List.append_of_mem hread
  obtain ⟨u, hu, hrest⟩ := run_append_iff.1 hrun
  obtain ⟨v, hstep, -⟩ := run_cons_iff.1 hrest
  have hcapped := h.run hu fun o ho => hops o (List.mem_append_left _ ho)
  generalize ho : CampusOp.site (.readNode (some w)) = o at hstep
  cases hstep with
  | site hw hsite =>
    cases ho
    exact hcapped.draw_mem (hw w rfl)
  | node => cases ho
  | draw hd hp hw => cases ho
  | readings hd hp => cases ho
  | pdu hp hpdu => cases ho

end Campus

/-- The last draw read is one of the later reads, if these read any. -/
theorem Modbus.SiteOp.lastDraw_append {channels : ℕ} (before : List (SiteOp ℚ channels))
    {ops : List (SiteOp ℚ channels)} (h : ∃ w, .readNode (some w) ∈ ops) :
    ∃ w, .readNode (some w) ∈ ops ∧ SiteOp.lastDraw (before ++ ops) = some w := by
  have hdraw : ∀ (o : SiteOp ℚ channels) (w : ℚ), o.draw = some w → o = .readNode (some w) := by
    intro o w ho
    cases o with
    | readNode answer => exact congrArg SiteOp.readNode ho
    | rack i o => cases ho
    | meter o => cases ho
    | readRack i answer => cases ho
    | publish pPoi => cases ho
  obtain ⟨w₀, hw₀⟩ := h
  have hne : ops.filterMap SiteOp.draw ≠ [] := List.ne_nil_of_mem (List.mem_filterMap.2 ⟨_, hw₀, rfl⟩)
  obtain ⟨w, hw⟩ := Option.isSome_iff_exists.1 (List.getLast?_isSome.2 hne)
  obtain ⟨o, ho, how⟩ := List.mem_filterMap.1 (List.mem_of_getLast? hw)
  refine ⟨w, hdraw o w how ▸ ho, ?_⟩
  rw [SiteOp.lastDraw, List.filterMap_append, List.getLast?_append, hw, Option.some_or]

/-! ### The PDU -/

namespace Snmp

/-- The input power, in both MIBs. -/
def powerOids : List Oid := [sentry4 3 [], inletPower]

/-- Both input powers lie in a range. -/
def ShowsPower (range : Set ℤ) (values : Values) : Prop :=
  ∀ oid ∈ powerOids, ∃ v, values.lookup oid = some v ∧ v.toInt ∈ range

variable {load : PduLoad ℚ} {range : Set ℤ}

/-- The watts a PDU shows for a draw. -/
def shownWatts (load : PduLoad ℚ) (nodeW : ℚ) : ℤ := (F64.toI64 (F64.round (powerOf load nodeW))).toInt

theorem shownWatts_mono (hnodes : 0 ≤ load.nodes) (hshare : 0 < load.share) : Monotone (shownWatts load) :=
  fun _ _ hle => F64.toI64_round_mono (powerOf_mono hnodes hshare hle)

theorem showsPower_store (values seen : Values) {nodeW : ℚ} (h : shownWatts load nodeW ∈ range) :
    ShowsPower range (values.extend (readings load nodeW seen)) := by
  intro oid hoid
  refine ⟨F64.toI64 (F64.round (powerOf load nodeW)), ?_, h⟩
  rcases List.mem_pair.1 hoid with rfl | rfl
  · rw [lookup_extend, lookup_readings_power, Option.some_or]
  · rw [lookup_extend, lookup_readings_inlet, Option.some_or]

theorem ShowsPower.put {s : Agent} (h : ShowsPower range s.values) {body : SetOids}
    (hbody : ∀ oid ∈ powerOids, oid ∉ ((Op.put body : Op ℚ).accepted).map Prod.fst) :
    ShowsPower range (s.putOids body).1.values := by
  intro oid hoid
  obtain ⟨v, hv, hmem⟩ := h oid hoid
  refine ⟨v, ?_, hmem⟩
  have hput := Agent.op_put (F := ℚ) s body
  show (s.op (.put body : Op ℚ)).values.lookup oid = _
  rw [hput, lookup_insertAll, lastIn_eq_none.2 (hbody oid hoid), Option.none_or, hv]

/-- A tick leaves the Sentry4 power, and the PDU2-MIB one becomes it. -/
theorem ShowsPower.tickTask {s : Agent} (h : ShowsPower range s.values) :
    ShowsPower range (s.tickTask ℚ).values := by
  have hview : ⟨inletPower, sentry4 3 [], id⟩ ∈ mirrored ℚ := List.mem_cons_self
  obtain ⟨v, hv, hmem⟩ := h _ List.mem_cons_self
  have hsource : (Simulator.tick s.values s.driven).lookup (sentry4 3 []) = some v := by
    rw [lookup_tick_of_ne (by decide), hv]
  have hlookup : ∀ oid, (s.tickTask ℚ).values.lookup oid =
      ((mirror ℚ (Simulator.tick s.values s.driven)).lookup oid).or
        ((Simulator.tick s.values s.driven).lookup oid) := fun oid => lookup_extend _ _ _
  intro oid hoid
  refine ⟨v, ?_, hmem⟩
  rcases List.mem_pair.1 hoid with rfl | rfl
  · have hnot := notMem_mirror (mirrored_apart _ hview) (Simulator.tick s.values s.driven)
    rw [hlookup, hnot, Option.none_or, hsource]
  · have htarget : (mirror ℚ (Simulator.tick s.values s.driven)).lookup inletPower = some v :=
      (lookup_mirror_iff ℚ).2 ⟨_, hview, rfl, by rw [hsource]; rfl⟩
    rw [hlookup, htarget, Option.some_or]

end Snmp

/-- No input power is put from outside. -/
def CampusOp.SparesPower {channels : ℕ} : CampusOp channels → Prop
  | .pdu o => ∀ oid ∈ powerOids, oid ∉ o.accepted.map Prod.fst
  | _ => True

namespace Campus

/-- The draw the PDU's loop holds, used or not, lies in a range. -/
structure Holds (draws : Set ℚ) {channels : ℕ} (s : Campus channels) : Prop where
  drawn : ∀ w, s.drawn = some w → w ∈ draws
  pending : ∀ p, s.pdu.pending = some p → p.nodeW ∈ draws

variable {load : PduLoad ℚ} {c : PoiConfig ℚ} {chassis : GpuChassis ℚ} {lo hi : Fin gpuCount → ℚ}
variable {s t : Campus c.channels} {o : CampusOp c.channels} {ops : List (CampusOp c.channels)}

/-- The draws of a node with caps in the range. -/
abbrev drawsUnder (chassis : GpuChassis ℚ) (lo hi : Fin gpuCount → ℚ) : Set ℚ :=
  Set.Icc (chassis.drawUnder lo) (chassis.drawUnder hi)

/-- The input powers the PDU shows for these draws. -/
abbrev wattsUnder (load : PduLoad ℚ) (chassis : GpuChassis ℚ) (lo hi : Fin gpuCount → ℚ) : Set ℤ :=
  Set.Icc (shownWatts load (chassis.drawUnder lo)) (shownWatts load (chassis.drawUnder hi))

theorem holds_draw (h : Capped chassis lo hi s) (hstep : Step load c s .draw t) :
    Holds (drawsUnder chassis lo hi) t := by
  cases hstep with
  | @draw w hd hp hw =>
    refine ⟨fun w' hw' => ?_, fun p hpending => ?_⟩
    · obtain rfl : w = w' := Option.some.inj hw'
      exact h.draw_mem hw
    · have hpending : s.pdu.pending = some p := hpending
      rw [hp] at hpending
      cases hpending

theorem Holds.step (h : Holds (drawsUnder chassis lo hi) s) (hcapped : Capped chassis lo hi s)
    (hstep : Step load c s o t) : Holds (drawsUnder chassis lo hi) t := by
  cases hstep with
  | node => exact ⟨h.drawn, h.pending⟩
  | draw hd hp hw => exact holds_draw hcapped (show Step load c s .draw _ from .draw hd hp hw)
  | @readings w p hd hreadings =>
    refine ⟨fun w hw => (by cases hw), fun p' hp' => ?_⟩
    have hop : s.pdu.op load (.readings w) = some p := hreadings
    unfold Following.op at hop
    dsimp only at hop
    split at hop
    · cases hop
      obtain rfl := Option.some.inj hp'
      exact h.drawn w hd
    · cases hop
  | @pdu o p ho hpdu =>
    refine ⟨h.drawn, fun p' hp' => ?_⟩
    have hop : s.pdu.op load o = some p := hpdu
    cases o with
    | put body =>
      cases hop
      exact h.pending p' hp'
    | tickTask =>
      cases hop
      exact h.pending p' hp'
    | readings w => exact absurd rfl (ho w)
    | store =>
      obtain ⟨q, hq, rfl⟩ := Option.map_eq_some_iff.1 hop
      cases hp'
  | site hw hsite => exact ⟨h.drawn, h.pending⟩

theorem showsPower_of_store {draws : Set ℚ} {range : Set ℤ} (hrange : ∀ w ∈ draws, shownWatts load w ∈ range)
    (h : Holds draws s) (hstep : Step load c s (.pdu .store) t) : ShowsPower range t.pdu.agent.values := by
  cases hstep with
  | @pdu o p ho hpdu =>
    have hop : s.pdu.op load .store = some p := hpdu
    obtain ⟨q, hq, rfl⟩ := Option.map_eq_some_iff.1 hop
    exact showsPower_store _ _ (hrange _ (h.pending q hq))

/-- What the PDU shows stays in the range while it stores powers in the range and nobody puts one. -/
theorem showsPower_step {draws : Set ℚ} {range : Set ℤ} (hrange : ∀ w ∈ draws, shownWatts load w ∈ range)
    (hholds : Holds draws s) (ho : o.SparesPower) (h : ShowsPower range s.pdu.agent.values)
    (hstep : Step load c s o t) : ShowsPower range t.pdu.agent.values := by
  cases hstep with
  | node => exact h
  | draw hd hp hw => exact h
  | @readings w p hd hreadings =>
    have hop : s.pdu.op load (.readings w) = some p := hreadings
    unfold Following.op at hop
    dsimp only at hop
    split at hop
    · cases hop
      exact h
    · cases hop
  | @pdu o p hno hpdu =>
    have hop : s.pdu.op load o = some p := hpdu
    cases o with
    | put body =>
      cases hop
      exact h.put ho
    | tickTask =>
      cases hop
      exact h.tickTask
    | readings w => exact absurd rfl (hno w)
    | store => exact showsPower_of_store hrange hholds (.pdu hno hpdu)
  | site hw hsite => exact h

end Campus

/-! ### Both meters -/

namespace Campus

variable {load : PduLoad ℚ} {c : PoiConfig ℚ} {chassis : GpuChassis ℚ} {lo hi : Fin gpuCount → ℚ}
variable {s₀ s t : Campus c.channels} {before ops : List (CampusOp c.channels)}

/-- A publish after a draw read under the caps. -/
theorem publish_mem {parse : String → Option ℚ} (hs : Booted parse chassis s₀) (hbefore : Run (Step load c) s₀ before s)
    (hcapped : Capped chassis lo hi s) {l : ComputeLoad ℚ} (hl : c.compute = some l) (hnodes : 0 ≤ l.nodes)
    {pPoi : ℚ} (hrun : Run (Step load c) s (ops ++ [.site (.publish (some pPoi))]) t) (hops : ∀ o ∈ ops, o.Within lo hi)
    (hread : ∃ w, .site (.readNode (some w)) ∈ ops) : ∃ powers : Fin c.channels → ℚ,
      (∀ i, .readRack i (some (powers i)) ∈ SiteOp.window ((before ++ ops).filterMap onSite)) ∧
      pPoi ∈ Set.Icc (siteLoad c.fixedLoad (some (l, chassis.drawUnder lo)) - ∑ i, powers i)
        (siteLoad c.fixedLoad (some (l, chassis.drawUnder hi)) - ∑ i, powers i) := by
  have hsite := run_site (run_append_iff.2 ⟨s, hbefore, hrun⟩)
  rw [← List.append_assoc, List.filterMap_append] at hsite
  obtain ⟨powers, hpowers, hsum⟩ := Site.publish_reads hs.site hsite
  obtain ⟨w₀, hw₀⟩ := hread
  have hw₀' : .readNode (some w₀) ∈ ops.filterMap onSite := List.mem_filterMap.2 ⟨_, hw₀, rfl⟩
  obtain ⟨w, hw, hlast⟩ := SiteOp.lastDraw_append (before.filterMap onSite) ⟨w₀, hw₀'⟩
  have hw' : .site (.readNode (some w)) ∈ ops := by
    obtain ⟨o, ho, how⟩ := List.mem_filterMap.1 hw
    cases o with
    | site o => exact (Option.some.inj how) ▸ ho
    | node r => cases how
    | draw => cases how
    | pdu o => cases how
  obtain ⟨u, hu, -⟩ := run_concat_iff.1 hrun
  obtain ⟨hlow, hhigh⟩ := hcapped.read_mem hu hops hw'
  refine ⟨powers, hpowers, ?_⟩
  rw [hsum, List.filterMap_append, hlast, hl, poiActivePowerW, F64.rat_sum, List.sum_ofFn]
  show siteLoad c.fixedLoad (some (l, w)) - ∑ i, powers i ∈ _
  exact ⟨sub_le_sub_right (siteLoad_mono _ hnodes hlow) _, sub_le_sub_right (siteLoad_mono _ hnodes hhigh) _⟩

/-- The PDU after a draw read under the caps, and its store. -/
theorem power_mem (hnodes : 0 ≤ load.nodes) (hshare : 0 < load.share) (hcapped : Capped chassis lo hi s)
    {pre mid post : List (CampusOp c.channels)}
    (hrun : Run (Step load c) s (pre ++ .draw :: mid ++ .pdu .store :: post) t)
    (hops : ∀ o ∈ pre ++ .draw :: mid ++ .pdu .store :: post, o.Within lo hi) (hspares : ∀ o ∈ post, o.SparesPower) :
    ShowsPower (wattsUnder load chassis lo hi) t.pdu.agent.values := by
  have hrange : ∀ w ∈ drawsUnder chassis lo hi, shownWatts load w ∈ wattsUnder load chassis lo hi := by
    intro w hw
    exact ⟨shownWatts_mono hnodes hshare hw.1, shownWatts_mono hnodes hshare hw.2⟩
  obtain ⟨v, hv, hrest⟩ := run_append_iff.1 hrun
  obtain ⟨u, hu, hdraw⟩ := run_append_iff.1 hv
  obtain ⟨d, hd, hmid⟩ := run_cons_iff.1 hdraw
  obtain ⟨r, hstore, hpost⟩ := run_cons_iff.1 hrest
  have hcap := hcapped.run hu fun o ho => hops o (by simp [ho])
  have hkeeps : ∀ o ∈ mid, o.Within lo hi := fun o ho => hops o (by simp [ho])
  have hkeeps' : ∀ o ∈ post, o.Within lo hi := fun o ho => hops o (by simp [ho])
  have hholds : Capped chassis lo hi v ∧ Holds (drawsUnder chassis lo hi) v := by
    refine Run.invariant_along (R := fun _ o _ => o.Within lo hi)
      (I := fun s : Campus c.channels => Capped chassis lo hi s ∧ Holds (drawsUnder chassis lo hi) s) ?_ hmid ?_
      (along_of_forall_mem hkeeps d)
    · rintro s o t ⟨hs, hheld⟩ ho hstep
      exact ⟨hs.step ho hstep, hheld.step hs hstep⟩
    · exact ⟨hcap.step (hops _ (by simp)) hd, holds_draw hcap hd⟩
  have hshows : (Capped chassis lo hi t ∧ Holds (drawsUnder chassis lo hi) t) ∧
      ShowsPower (wattsUnder load chassis lo hi) t.pdu.agent.values := by
    refine Run.invariant_along (R := fun _ o _ => o.Within lo hi ∧ o.SparesPower)
      (I := fun s : Campus c.channels => (Capped chassis lo hi s ∧ Holds (drawsUnder chassis lo hi) s) ∧
        ShowsPower (wattsUnder load chassis lo hi) s.pdu.agent.values) ?_ hpost ?_
      (along_of_forall_mem (fun o ho => ⟨hkeeps' o ho, hspares o ho⟩) r)
    · rintro s o t ⟨⟨hs, hheld⟩, hpower⟩ ⟨ho, hspare⟩ hstep
      exact ⟨⟨hs.step ho hstep, hheld.step hs hstep⟩, showsPower_step hrange hheld hspare hpower hstep⟩
    · exact ⟨⟨hholds.1.step (hops _ (by simp)) hstore, hholds.2.step hholds.1 hstore⟩,
        showsPower_of_store hrange hholds.2 hstore⟩
  exact hshows.2

end Campus

/-- From when the caps lie in a range that no accepted PATCH leaves: every power published after a draw read since is the
load of a node with caps in the range, less a power of each rack; and once a draw read since is stored, both input
powers of the PDU stay between those of the two ends, whatever else happens but a PUT of them. -/
theorem meters_follow_caps (parse : String → Option ℚ) (chassis : GpuChassis ℚ) (load : PduLoad ℚ)
    (hload : 0 ≤ load.nodes) (hshare : 0 < load.share) (c : PoiConfig ℚ) (compute : ComputeLoad ℚ)
    (hc : c.compute = some compute) (hnodes : 0 ≤ compute.nodes) (s₀ s t : Campus c.channels)
    (hs : Campus.Booted parse chassis s₀) (before after : List (CampusOp c.channels))
    (hbefore : Run (Campus.Step load c) s₀ before s) (hafter : Run (Campus.Step load c) s after t)
    (lo hi : Fin gpuCount → ℚ) (hcaps : s.node.caps ∈ Set.Icc lo hi) (hwithin : ∀ o ∈ after, o.Within lo hi) :
    (∀ pre pPoi post, after = pre ++ .site (.publish (some pPoi)) :: post →
      (∃ w, .site (.readNode (some w)) ∈ pre) → ∃ powers : Fin c.channels → ℚ,
        (∀ i, .readRack i (some (powers i)) ∈ SiteOp.window ((before ++ pre).filterMap Campus.onSite)) ∧
        pPoi ∈ Set.Icc (siteLoad c.fixedLoad (some (compute, chassis.drawUnder lo)) - ∑ i, powers i)
          (siteLoad c.fixedLoad (some (compute, chassis.drawUnder hi)) - ∑ i, powers i)) ∧
    ∀ pre mid post, after = pre ++ .draw :: mid ++ .pdu .store :: post → (∀ o ∈ post, o.SparesPower) →
      ShowsPower (Set.Icc (shownWatts load (chassis.drawUnder lo)) (shownWatts load (chassis.drawUnder hi)))
        t.pdu.agent.values := by
  have hcapped : Campus.Capped chassis lo hi s := ⟨Campus.of_run hs hbefore, hcaps⟩
  constructor
  · rintro pre pPoi post rfl hread
    obtain ⟨u, hu, hrest⟩ := run_append_iff.1 hafter
    obtain ⟨v, hstep, -⟩ := run_cons_iff.1 hrest
    exact Campus.publish_mem hs hbefore hcapped hc hnodes (run_concat_iff.2 ⟨u, hu, hstep⟩)
      (fun o ho => hwithin o (List.mem_append_left _ ho)) hread
  · rintro pre mid post rfl hspares
    exact Campus.power_mem hload hshare hcapped hafter hwithin hspares

/-! ### GPU_SXM_3 at 700 W -/

section ThirdAt700

/-- A site of one node and no racks that draws 5 MW otherwise. -/
def oneNode : PoiConfig ℚ := { fixedLoad := 5000000, channels := 0, compute := some { nodes := 1 } }

def thirdGpu : Fin gpuCount := ⟨2, by decide⟩

def capTo700 : Request ℚ := .patch (Resource.environmentMetrics thirdGpu).path (capBody 700)

def thirdAt700 (i : Fin gpuCount) : ℚ := if i = thirdGpu then 700 else 1000

theorem caps_capTo700 : ((Node.boot GpuChassis.defaults).handle capTo700).1.caps = thirdAt700 := by
  have haccepted : capTo700.accepted = [(thirdGpu, 700)] := by decide +kernel
  funext i
  unfold Node.caps
  rw [((Node.boot GpuChassis.defaults).handle_gpus capTo700).2 i, haccepted, thirdAt700]
  by_cases hi : i = thirdGpu
  · simp [lastIn, hi]
  · simp [lastIn, hi, Ne.symm hi]
    rfl

theorem drawUnder_thirdAt700 : (GpuChassis.defaults : GpuChassis ℚ).drawUnder thirdAt700 = 10200 := by decide +kernel

/-- The node is capped, the site's meter reads its draw and publishes, and the PDU reads and stores it. -/
theorem meters_follow_caps_third : ∃ (s₀ s t : Campus oneNode.channels) (pPoi : ℚ),
    Run (Campus.Step PduLoad.defaults oneNode) s₀ [.node capTo700] s ∧
    Run (Campus.Step PduLoad.defaults oneNode) s [.site (.readNode (some 10200)), .site (.publish (some pPoi)), .draw,
      .pdu (.readings 10200), .pdu .store] t ∧
    pPoi = 5010200 ∧ ShowsPower (Set.Icc 18600 18600) t.pdu.agent.values := by
  let parse : String → Option ℚ := fun raw => ExtRat.parseNumber raw.toList
  obtain ⟨meter, hmeter, hpoi⟩ : ∃ meter : Device ℚ, Device.boot parse (fun _ => none) = .ok (.ok meter) ∧
      meter.profile = .poiMeter := ⟨_, rfl, rfl⟩
  let site₀ : Site ℚ oneNode.channels :=
    { racks := fun i => i.elim0, meter, nodeW := none, racksRead := fun _ => none, nodeRead := none }
  let s₀ : Campus oneNode.channels :=
    { node := Node.boot GpuChassis.defaults, drawn := none, pdu := Following.start ℚ, site := site₀ }
  have hs : Campus.Booted parse GpuChassis.defaults s₀ :=
    ⟨rfl, rfl, rfl, fun i => i.elim0, ⟨_, hmeter, hpoi⟩, rfl, fun i => i.elim0, rfl⟩
  let s : Campus oneNode.channels := { s₀ with node := ((Node.boot GpuChassis.defaults).handle capTo700).1 }
  have hcap : Run (Campus.Step PduLoad.defaults oneNode) s₀ [.node capTo700] s := Run.cons .node (Run.nil _)
  have hserved : s.node.consumedWatts = some 10200 := by
    rw [(Campus.of_run hs hcap).consumedWatts, caps_capTo700, drawUnder_thirdAt700]
  let reads : Reads ℚ oneNode.channels := ⟨fun i => i.elim0, some 10200⟩
  have hread : Site.Step oneNode site₀ (.readNode (some 10200)) { site₀ with nodeRead := some (some 10200) } :=
    .readNode rfl rfl
  have hpublish := Site.Step.publish (show ∀ i, ({ site₀ with nodeRead := some (some 10200) } : Site ℚ
    oneNode.channels).racksRead i = some (reads.racks i) from fun i => i.elim0) fun _ => rfl
  obtain ⟨pPoi, hp⟩ : ∃ pPoi, (PoiLoop.tick oneNode ⟨none, meter.meter⟩ reads).2 = some pPoi :=
    ⟨_, PoiLoop.tick_of_all (show reads.All fun i => i.elim0 from fun i => i.elim0)⟩
  change Site.Step oneNode _ (.publish (PoiLoop.tick oneNode ⟨none, meter.meter⟩ reads).2) _ at hpublish
  rw [hp] at hpublish
  let held : Following ℚ :=
    { Following.start ℚ with pending := some { nodeW := 10200, seen := (Following.start ℚ).agent.values } }
  have hreadings : Following.Step PduLoad.defaults s.pdu (.readings 10200) held := rfl
  let stored : Following ℚ :=
    { agent := held.agent.store (readings PduLoad.defaults (10200 : ℚ) held.agent.values), pending := none }
  have hstore : Following.Step PduLoad.defaults held .store stored := rfl
  have h₁ : Campus.Step PduLoad.defaults oneNode s (.site (.readNode (some 10200))) _ :=
    .site (fun w hw => by cases hw; exact hserved) hread
  have hafter := Run.cons h₁ (Run.cons (.site (fun w hw => by cases hw) hpublish) (Run.cons (.draw rfl rfl hserved)
    (Run.cons (.readings rfl hreadings) (Run.cons (.pdu (fun w hw => by cases hw) hstore) (Run.nil _)))))
  have hwithin : ∀ o ∈ ([.site (.readNode (some 10200)), .site (.publish (some pPoi)), .draw, .pdu (.readings 10200),
      .pdu .store] : List (CampusOp oneNode.channels)), o.Within thirdAt700 thirdAt700 := by
    simp [CampusOp.Within]
  obtain ⟨hmeters, hpdu⟩ := meters_follow_caps parse GpuChassis.defaults PduLoad.defaults (by decide +kernel)
    (by decide +kernel) oneNode { nodes := 1 } rfl zero_le_one s₀ s _ hs _ _ hcap hafter thirdAt700 thirdAt700
    ⟨caps_capTo700.ge, caps_capTo700.le⟩ hwithin
  refine ⟨s₀, s, _, pPoi, hcap, hafter, ?_, ?_⟩
  · obtain ⟨powers, -, hlow, hhigh⟩ := hmeters [.site (.readNode (some 10200))] pPoi _ rfl ⟨10200, List.mem_cons_self⟩
    have hnone : ∑ i, powers i = 0 := Fin.sum_univ_zero powers
    have hload : siteLoad oneNode.fixedLoad (some ({ nodes := 1 }, GpuChassis.defaults.drawUnder thirdAt700)) -
        ∑ i, powers i = 5010200 := by
      rw [drawUnder_thirdAt700, hnone]
      show (5000000 : ℚ) + 1 * 10200 - 0 = 5010200
      norm_num
    exact le_antisymm (hload ▸ hhigh) (hload ▸ hlow)
  · have hwatts : shownWatts PduLoad.defaults (GpuChassis.defaults.drawUnder thirdAt700) = 18600 := by
      rw [drawUnder_thirdAt700]
      decide +kernel
    have hshows := hpdu [.site (.readNode (some 10200)), .site (.publish (some pPoi))] [.pdu (.readings 10200)] [] rfl
      (by simp)
    rwa [hwatts] at hshows

end ThirdAt700

end EmsFixtures
