import Mathlib.Algebra.BigOperators.Fin
import Mathlib.Data.List.DropRight
import EmsFixtures.Modbus.PoiRegister
import EmsFixtures.Modbus.RackDevice

/-!
# The site behind a POI meter

Racks, each a server of its own, and the POI meter whose loop reads them and the compute load at the same time.  A read
sees its rack at one moment between two publishes, in any order with the other reads, the racks' own steps and whatever
is written from outside.  The site is a run of each rack and of the meter (`run_rack`, `run_meter`), so what is
published is the load less a power that each rack had within the window, none beyond the rating, and what a client
reads off the meter is the last such sum as a float32 (`site_meter`).
-/

namespace EmsFixtures.Modbus

open HashMap Panics Runs

/-- The racks, the meter, and what the iteration of its loop in flight has read. -/
structure Site (F : Type) (channels : ℕ) where
  racks : Fin channels → Device F
  meter : Device F
  nodeW : Option F
  racksRead : Fin channels → Option (Option F)
  nodeRead : Option (Option F)

/-- What may happen next on a site; a read is labelled with its answer, `none` if it failed, and the end of an
iteration with what it publishes. -/
inductive SiteOp (F : Type) (channels : ℕ) where
  | rack (i : Fin channels) (o : DeviceOp F)
  | meter (o : DeviceOp F)
  | readRack (i : Fin channels) (answer : Option F)
  | readNode (answer : Option F)
  | publish (pPoi : Option F)

variable {F : Type} [F64 F]

/-- A tick writes what it publishes, and one that publishes nothing leaves the meter alone. -/
theorem PoiLoop.tick_writes {c : PoiConfig F} (s : PoiLoop F) (reads : Reads F c.channels) :
    (∃ pPoi, (s.tick c reads).2 = some pPoi ∧ (s.tick c reads).1.meter =
      { s.meter with holding := writePoiPower s.meter.holding s.meter.driven pPoi }) ∨
    ((s.tick c reads).2 = none ∧ (s.tick c reads).1.meter = s.meter) := by
  unfold tick
  simp only
  split
  · exact Or.inl ⟨_, rfl, rfl⟩
  · exact Or.inr ⟨rfl, rfl⟩

namespace Site

/-- An iteration spawns a read of every rack, and of a node if compute is modelled, and publishes when it has joined
them all; any of the reads may fail. -/
inductive Step (c : PoiConfig F) : Site F c.channels → SiteOp F c.channels → Site F c.channels → Prop
  | rack {s : Site F c.channels} {i : Fin c.channels} {o : DeviceOp F} {d : Device F} (h : (s.racks i).Step o d) :
    Step c s (.rack i o) { s with racks := Function.update s.racks i d }
  | meter {s : Site F c.channels} {o : DeviceOp F} {d : Device F} (ho : o.published = none) (h : s.meter.Step o d) :
    Step c s (.meter o) { s with meter := d }
  | readRack {s : Site F c.channels} {i : Fin c.channels} {answer : Option F} (h : s.racksRead i = none)
    (ha : answer = none ∨ answer = readRackPower ((s.racks i).meter.readPair rackActivePower)) :
    Step c s (.readRack i answer) { s with racksRead := Function.update s.racksRead i (some answer) }
  | readNode {s : Site F c.channels} {answer : Option F} (hc : c.compute.isSome) (h : s.nodeRead = none) :
    Step c s (.readNode answer) { s with nodeRead := some answer }
  | publish {s : Site F c.channels} {reads : Reads F c.channels} (h : ∀ i, s.racksRead i = some (reads.racks i))
    (hn : c.compute.isSome → s.nodeRead = some reads.node) :
    Step c s (.publish (PoiLoop.tick c ⟨s.nodeW, s.meter.meter⟩ reads).2)
      { s with
        meter := { s.meter with meter := (PoiLoop.tick c ⟨s.nodeW, s.meter.meter⟩ reads).1.meter }
        nodeW := (PoiLoop.tick c ⟨s.nodeW, s.meter.meter⟩ reads).1.nodeW
        racksRead := fun _ => none
        nodeRead := none }

/-- Every rack and the meter just booted, no read made. -/
structure Booted {channels : ℕ} (parse : String → Option F) (s : Site F channels) : Prop where
  racks : ∀ i, ∃ env, Device.boot parse env = .ok (.ok (s.racks i)) ∧ (s.racks i).profile = .bessRack
  meter : ∃ env, Device.boot parse env = .ok (.ok s.meter) ∧ s.meter.profile = .poiMeter
  nodeW : s.nodeW = none
  racksRead : ∀ i, s.racksRead i = none
  nodeRead : s.nodeRead = none

/-! ### The parts of a site -/

variable {c : PoiConfig F} {s s' t : Site F c.channels} {ops : List (SiteOp F c.channels)}

/-- What rack `i` sees of a site. -/
def onRack {channels : ℕ} (i : Fin channels) : SiteOp F channels → Option (DeviceOp F)
  | .rack j o => if j = i then some o else none
  | _ => none

/-- What the meter sees of a site. -/
def onMeter {channels : ℕ} : SiteOp F channels → Option (DeviceOp F)
  | .meter o => some o
  | .publish (some pPoi) => some (.poi pPoi)
  | _ => none

theorem run_rack (i : Fin c.channels) (h : Run (Step c) s ops t) :
    Run Device.Step (s.racks i) (ops.filterMap (onRack i)) (t.racks i) := by
  refine h.refines (fun s => s.racks i) (onRack i) (fun _ => True) (fun _ _ _ _ _ => trivial) ?_ trivial
  intro s o t _ hstep
  cases hstep with
  | @rack j o d hd =>
    by_cases hj : j = i
    · subst hj
      refine ⟨fun k hk => ?_, fun hk => by simp [onRack] at hk⟩
      obtain rfl : o = k := by simpa [onRack] using hk
      simpa using hd
    · refine ⟨fun k hk => by simp [onRack, hj] at hk, fun _ => ?_⟩
      exact Function.update_of_ne (Ne.symm hj) _ _
  | meter ho hd => exact ⟨fun k hk => (by cases hk), fun _ => rfl⟩
  | readRack hr ha => exact ⟨fun k hk => (by cases hk), fun _ => rfl⟩
  | readNode hc hr => exact ⟨fun k hk => (by cases hk), fun _ => rfl⟩
  | publish hr hn => exact ⟨fun k hk => (by cases hk), fun _ => rfl⟩

theorem run_meter (hs : s.meter.profile = .poiMeter) (h : Run (Step c) s ops t) :
    Run Device.Step s.meter (ops.filterMap onMeter) t.meter := by
  refine h.refines (fun s => s.meter) onMeter (fun s => s.meter.profile = .poiMeter) ?_ ?_ hs
  · intro s o t hprofile hstep
    cases hstep with
    | rack hd => exact hprofile
    | meter ho hd => exact (Device.step_shape hd).1.trans hprofile
    | readRack hr ha => exact hprofile
    | readNode hc hr => exact hprofile
    | publish hr hn => exact hprofile
  · intro s o t hprofile hstep
    cases hstep with
    | rack hd => exact ⟨fun k hk => (by cases hk), fun _ => rfl⟩
    | @meter o d ho hd =>
      refine ⟨fun k hk => ?_, fun hk => by cases hk⟩
      obtain rfl : o = k := Option.some.inj hk
      exact hd
    | readRack hr ha => exact ⟨fun k hk => (by cases hk), fun _ => rfl⟩
    | readNode hc hr => exact ⟨fun k hk => (by cases hk), fun _ => rfl⟩
    | @publish reads hr hn =>
      rcases PoiLoop.tick_writes (c := c) ⟨s.nodeW, s.meter.meter⟩ reads with ⟨pPoi, hp, hm⟩ | ⟨hp, hm⟩
      · rw [hp, hm]
        refine ⟨fun k hk => ?_, fun hk => by cases hk⟩
        obtain rfl : .poi pPoi = k := Option.some.inj hk
        exact ⟨hprofile, rfl⟩
      · rw [hp, hm]
        exact ⟨fun k hk => (by cases hk), fun _ => rfl⟩

/-! ### What an iteration has read -/

end Site

namespace SiteOp

variable {F : Type} {channels : ℕ}

def isPublish : SiteOp F channels → Bool
  | .publish _ => true
  | _ => false

/-- The node draw an operation reads. -/
def draw : SiteOp F channels → Option F
  | .readNode answer => answer
  | _ => none

/-- The operations after the last publish. -/
def window (ops : List (SiteOp F channels)) : List (SiteOp F channels) := ops.rtakeWhile fun o => !o.isPublish

/-- The most recent node draw read successfully. -/
def lastDraw (ops : List (SiteOp F channels)) : Option F := (ops.filterMap draw).getLast?

theorem window_concat {ops : List (SiteOp F channels)} {o : SiteOp F channels} (h : o.isPublish = false) :
    window (ops ++ [o]) = window ops ++ [o] := List.rtakeWhile_concat_pos _ _ _ (by simp [h])

theorem lastDraw_concat (ops : List (SiteOp F channels)) (o : SiteOp F channels) :
    lastDraw (ops ++ [o]) = o.draw.or (lastDraw ops) := by
  unfold lastDraw
  rw [List.filterMap_append]
  cases ho : o.draw with
  | none => simp [ho]
  | some w => simp [ho]

end SiteOp

namespace Site

variable {F : Type} [F64 F] {c : PoiConfig F} {s s' t : Site F c.channels} {ops : List (SiteOp F c.channels)}

/-- The reads in hand were made since the last publish, and the node draw held or in hand is the last one read. -/
structure Tracks (c : PoiConfig F) (ops : List (SiteOp F c.channels)) (s : Site F c.channels) : Prop where
  racks : ∀ i answer, s.racksRead i = some answer → .readRack i answer ∈ SiteOp.window ops
  node : (s.nodeRead.bind id).or s.nodeW = SiteOp.lastDraw ops
  compute : s.nodeRead.isSome → c.compute.isSome

theorem Tracks.step {o : SiteOp F c.channels} (h : Tracks c ops s) (hstep : Step c s o t) : Tracks c (ops ++ [o]) t := by
  cases hstep with
  | rack hd =>
    refine ⟨fun i answer hi => ?_, by rw [SiteOp.lastDraw_concat]; exact h.node, h.compute⟩
    rw [SiteOp.window_concat rfl]
    exact List.mem_append_left _ (h.racks i answer hi)
  | meter ho hd =>
    refine ⟨fun i answer hi => ?_, by rw [SiteOp.lastDraw_concat]; exact h.node, h.compute⟩
    rw [SiteOp.window_concat rfl]
    exact List.mem_append_left _ (h.racks i answer hi)
  | @readRack i answer hi ha =>
    refine ⟨fun j answer' hj => ?_, by rw [SiteOp.lastDraw_concat]; exact h.node, h.compute⟩
    rw [SiteOp.window_concat rfl]
    by_cases hij : j = i
    · subst hij
      obtain rfl : answer = answer' := by simpa using hj
      simp
    · refine List.mem_append_left _ (h.racks j answer' ?_)
      simpa [Function.update_of_ne hij] using hj
  | @readNode answer hc hr =>
    refine ⟨fun i answer' hi => ?_, ?_, fun _ => hc⟩
    · rw [SiteOp.window_concat rfl]
      exact List.mem_append_left _ (h.racks i answer' hi)
    · have hnode := h.node
      rw [hr] at hnode
      rw [SiteOp.lastDraw_concat, ← hnode]
      rfl
  | @publish reads hr hn =>
    refine ⟨fun i answer hi => (by cases hi), ?_, fun hnone => (by cases hnone)⟩
    have hnode := h.node
    have hheld : (PoiLoop.tick c ⟨s.nodeW, s.meter.meter⟩ reads).1.nodeW = PoiLoop.holdNode c s.nodeW reads := by
      unfold PoiLoop.tick
      simp only
      split <;> rfl
    rw [SiteOp.lastDraw_concat, ← hnode]
    show (PoiLoop.tick c ⟨s.nodeW, s.meter.meter⟩ reads).1.nodeW = _
    rw [hheld, PoiLoop.holdNode_eq]
    cases hc : c.compute with
    | none =>
      have hnot : s.nodeRead = none := by
        cases hread : s.nodeRead with
        | none => rfl
        | some answer =>
          have := h.compute (by rw [hread]; rfl)
          rw [hc] at this
          cases this
      simp [PoiOp.draw, hc, hnot, SiteOp.draw]
    | some l =>
      rw [hn (by rw [hc]; rfl)]
      simp [PoiOp.draw, hc, SiteOp.draw]

theorem tracks_of_run {parse : String → Option F} (hs : Booted parse s) (h : Run (Step c) s ops t) :
    Tracks c ops t := by
  induction ops using List.reverseRecOn generalizing t with
  | nil =>
    obtain rfl := run_nil_iff.1 h
    refine ⟨fun i answer hi => ?_, ?_, fun hnode => ?_⟩
    · rw [hs.racksRead i] at hi
      cases hi
    · rw [hs.nodeRead, hs.nodeW]
      rfl
    · rw [hs.nodeRead] at hnode
      cases hnode
  | append_singleton ops o ih =>
    obtain ⟨u, hu, hstep⟩ := run_concat_iff.1 h
    exact (ih hu).step hstep

/-- What a publish in a run is the sum of: for each rack an answer read since the last publish. -/
theorem publish_reads {parse : String → Option F} (hs : Booted parse s) {pre : List (SiteOp F c.channels)} {pPoi : F}
    (h : Run (Step c) s (pre ++ [.publish (some pPoi)]) t) :
    ∃ powers : Fin c.channels → F, (∀ i, .readRack i (some (powers i)) ∈ SiteOp.window pre) ∧
      pPoi = poiActivePowerW (siteLoad c.fixedLoad
        (c.compute.bind fun l => (SiteOp.lastDraw pre).map fun w => (l, w))) (List.ofFn powers) := by
  obtain ⟨u, hu, hstep⟩ := run_concat_iff.1 h
  have htracks := tracks_of_run hs hu
  generalize ho : SiteOp.publish (some pPoi) = o at hstep
  cases hstep with
  | rack hd => cases ho
  | meter hp hd => cases ho
  | readRack hr ha => cases ho
  | readNode hc hr => cases ho
  | @publish reads hr hn =>
    have hp : (PoiLoop.tick c ⟨u.nodeW, u.meter.meter⟩ reads).2 = some pPoi := (SiteOp.publish.inj ho).symm
    rcases PoiLoop.all_or_missing reads with ⟨powers, hall⟩ | hmissing
    · refine ⟨powers, fun i => htracks.racks i _ (by rw [hr i, hall i]), ?_⟩
      rw [PoiLoop.tick_of_all hall] at hp
      have hheld : (c.compute.bind fun l => (PoiLoop.holdNode c u.nodeW reads).map fun w => (l, w)) =
          c.compute.bind fun l => (SiteOp.lastDraw pre).map fun w => (l, w) := by
        cases hc : c.compute with
        | none => rfl
        | some l =>
          rw [← htracks.node, hn (by rw [hc]; rfl), PoiLoop.holdNode_eq]
          simp [PoiOp.draw, hc]
      rw [← hheld]
      exact (Option.some.inj hp).symm
    · rw [(PoiLoop.tick_of_missing hmissing).1] at hp
      cases hp

/-- What is written from outside spares the racks' power and the meter's. -/
def Spares (s₀ : Site F c.channels) : SiteOp F c.channels → Prop
  | .rack i o => o.Spares rackRegisters (s₀.racks i).meter.writable
  | .meter o => o.Spares poiRegisters s₀.meter.meter.writable
  | _ => True

end Site

/-! ### A site of rated racks -/

namespace Site

variable {parse : String → Option ℚ} {c : PoiConfig ℚ} {s₀ s : Site ℚ c.channels} {ops : List (SiteOp ℚ c.channels)}

/-- Every answer of a rack in a run is a power within the rating, in whole watts. -/
theorem answer_rated (hs : Booted parse s₀) (h : Run (Step c) s₀ ops s) (hspares : ∀ o ∈ ops, s₀.Spares o)
    {i : Fin c.channels} {power : ℚ} (hread : .readRack i (some power) ∈ ops) :
    ∃ v : ℤ, power = v ∧ |v| ≤ 1927000 := by
  obtain ⟨pre, post, rfl⟩ := List.append_of_mem hread
  obtain ⟨u, hu, hrest⟩ := run_append_iff.1 h
  obtain ⟨t, hstep, -⟩ := run_cons_iff.1 hrest
  obtain ⟨env, hboot, hprofile⟩ := hs.racks i
  have hrack := run_rack i hu
  have hsparesRack : ∀ o ∈ pre.filterMap (onRack i), o.Spares rackRegisters (s₀.racks i).meter.writable := by
    intro o ho
    obtain ⟨o', ho', hsees⟩ := List.mem_filterMap.1 ho
    cases o' with
    | rack j o' =>
      by_cases hj : j = i
      · subst hj
        obtain rfl : o' = o := by simpa [onRack] using hsees
        exact hspares _ (List.mem_append_left _ ho')
      · simp [onRack, hj] at hsees
    | meter o' => cases hsees
    | readRack j answer => cases hsees
    | readNode answer => cases hsees
    | publish pPoi => cases hsees
  obtain ⟨v, hv, hrated⟩ := readPower_of_run hboot hprofile hrack hsparesRack
  generalize ho : SiteOp.readRack i (some power) = o at hstep
  cases hstep with
  | rack hd => cases ho
  | meter hp hd => cases ho
  | readNode hc hr => cases ho
  | publish hr hn => cases ho
  | readRack hr ha =>
    cases ho
    rcases ha with ha | ha
    · cases ha
    · rw [hv] at ha
      exact ⟨v.toInt, Option.some.inj ha, hrated⟩

theorem shows_of_site (hs : Booted parse s₀) (h : Run (Step c) s₀ ops s) (hspares : ∀ o ∈ ops, s₀.Spares o) :
    Shows s.meter (shownBits (lastPublished (ops.filterMap onMeter))) := by
  obtain ⟨env, hboot, hprofile⟩ := hs.meter
  refine shows_of_run (bootedMeter hboot hprofile) (run_meter hprofile h) fun o ho => ?_
  obtain ⟨o', ho', hsees⟩ := List.mem_filterMap.1 ho
  cases o' with
  | rack i o' => cases hsees
  | meter o' =>
    cases hsees
    exact hspares _ ho'
  | readRack i answer => cases hsees
  | readNode answer => cases hsees
  | publish pPoi =>
    cases pPoi with
    | none => cases hsees
    | some pPoi =>
      cases hsees
      intro a _
      exact List.not_mem_nil

end Site

/-- For every order of reads, steps, writes and publishes on a site of racks: what is published is the load less, for
each rack, a power it answered since the last publish and within its rating, and what the meter's two registers decode
to is the power published last. -/
theorem site_meter (parse : String → Option ℚ) (c : PoiConfig ℚ) (s₀ : Site ℚ c.channels) (hs : Site.Booted parse s₀)
    (ops : List (SiteOp ℚ c.channels)) (hspares : ∀ o ∈ ops, s₀.Spares o) (s : Site ℚ c.channels)
    (h : Run (Site.Step c) s₀ ops s) :
    (∀ pre pPoi post, ops = pre ++ .publish (some pPoi) :: post → ∃ powers : Fin c.channels → ℤ,
      (∀ i, .readRack i (some (powers i : ℚ)) ∈ SiteOp.window pre ∧ |powers i| ≤ 1927000) ∧
      pPoi = siteLoad c.fixedLoad (c.compute.bind fun l => (SiteOp.lastDraw pre).map fun w => (l, w)) -
        ∑ i, (powers i : ℚ)) ∧
    ∃ words, s.meter.meter.readHoldingRegisters poiActivePower 2 = .ok words ∧
      NearPublished (lastPublished (ops.filterMap Site.onMeter)) (decodeFloat32 words) := by
  refine ⟨?_, nearPublished_of_shows (Site.shows_of_site hs h hspares)⟩
  rintro pre pPoi post rfl
  obtain ⟨u, hu, hrest⟩ := run_append_iff.1 h
  obtain ⟨t, hstep, -⟩ := run_cons_iff.1 hrest
  obtain ⟨powers, hreads, hsum⟩ := Site.publish_reads hs (run_concat_iff.2 ⟨u, hu, hstep⟩)
  have hrated : ∀ i, ∃ v : ℤ, powers i = v ∧ |v| ≤ 1927000 := by
    intro i
    have hmem : .readRack i (some (powers i)) ∈ pre := (List.rtakeWhile_suffix _ _).subset (hreads i)
    exact Site.answer_rated hs hu (fun o ho => hspares o (List.mem_append_left _ ho)) hmem
  choose watts hwatts hbound using hrated
  refine ⟨watts, fun i => ⟨by rw [← hwatts i]; exact hreads i, hbound i⟩, ?_⟩
  rw [hsum, poiActivePowerW, F64.rat_sum, List.sum_ofFn]
  simp only [hwatts]

/-- A site that draws 5 MW and has one rack. -/
def oneRack : PoiConfig ℚ := { fixedLoad := 5000000, channels := 1, compute := none }

def theRack : Fin oneRack.channels := ⟨0, one_pos⟩

/-- The rack takes a step, is read, and the meter publishes. -/
theorem site_meter_one_rack : ∃ (s₀ s : Site ℚ oneRack.channels) (v pPoi : ℚ),
    Run (Site.Step oneRack) s₀
      [.rack theRack (.simulate (.fromSecs 1)), .readRack theRack (some v), .publish (some pPoi)] s ∧
      |pPoi - 5000000| ≤ 1927000 := by
  let parse : String → Option ℚ := fun raw => ExtRat.parseNumber raw.toList
  obtain ⟨env, rack, rack', hrack, hprofile, hstep⟩ := boot_default_rack parse (.fromSecs 1)
  obtain ⟨meter, hmeter, hpoi⟩ : ∃ meter : Device ℚ, Device.boot parse (fun _ => none) = .ok (.ok meter) ∧
      meter.profile = .poiMeter := ⟨_, rfl, rfl⟩
  let s₀ : Site ℚ oneRack.channels :=
    { racks := fun _ => rack, meter, nodeW := none, racksRead := fun _ => none, nodeRead := none }
  have hs : Site.Booted parse s₀ := ⟨fun _ => ⟨env, hrack, hprofile⟩, ⟨_, hmeter, hpoi⟩, rfl, fun _ => rfl, rfl⟩
  have hsimulate : ∀ registers writable, (DeviceOp.simulate (F := ℚ) (.fromSecs 1)).Spares registers writable :=
    fun registers writable a _ => List.not_mem_nil
  obtain ⟨v, hv, -⟩ := readPower_of_run hrack hprofile (Run.cons hstep (Run.nil rack')) (by simp [hsimulate])
  let s₁ : Site ℚ oneRack.channels := { s₀ with racks := Function.update s₀.racks theRack rack' }
  let s₂ : Site ℚ oneRack.channels :=
    { s₁ with racksRead := Function.update s₀.racksRead theRack (some (some (v.toInt : ℚ))) }
  let reads : Reads ℚ oneRack.channels := ⟨fun _ => some (v.toInt : ℚ), none⟩
  have h₁ : Site.Step oneRack s₀ (.rack theRack (.simulate (.fromSecs 1))) s₁ := .rack hstep
  have h₂ : Site.Step oneRack s₁ (.readRack theRack (some (v.toInt : ℚ))) s₂ :=
    .readRack rfl (Or.inr (by simpa [s₁] using hv.symm))
  have hjoined : ∀ i, s₂.racksRead i = some (reads.racks i) := by
    intro i
    obtain rfl : i = theRack := Fin.ext (Nat.lt_one_iff.1 i.2)
    simp [s₂, reads]
  have h₃ := Site.Step.publish hjoined (fun hc => by cases hc)
  obtain ⟨pPoi, hp⟩ : ∃ pPoi, (PoiLoop.tick oneRack ⟨none, meter.meter⟩ reads).2 = some pPoi :=
    ⟨_, PoiLoop.tick_of_all fun _ => rfl⟩
  change Site.Step oneRack _ (.publish (PoiLoop.tick oneRack ⟨none, meter.meter⟩ reads).2) _ at h₃
  rw [hp] at h₃
  have hrun := Run.cons h₁ (Run.cons h₂ (Run.cons h₃ (Run.nil _)))
  refine ⟨s₀, _, (v.toInt : ℚ), pPoi, hrun, ?_⟩
  have hspares : ∀ o ∈ [SiteOp.rack theRack (.simulate (.fromSecs 1)), .readRack theRack (some (v.toInt : ℚ)),
      .publish (some pPoi)], s₀.Spares o := by
    simp [Site.Spares, hsimulate]
  obtain ⟨powers, hpowers, hsum⟩ := (site_meter parse oneRack s₀ hs _ hspares _ hrun).1
    [.rack theRack (.simulate (.fromSecs 1)), .readRack theRack (some (v.toInt : ℚ))] pPoi [] rfl
  have hone : (∑ i, (powers i : ℚ)) = powers theRack := Fin.sum_univ_one fun i => (powers i : ℚ)
  have hload : pPoi - 5000000 = -(powers theRack : ℚ) := by
    rw [hsum, hone]
    show (5000000 : ℚ) + 0 - powers theRack - 5000000 = _
    ring
  rw [hload, abs_neg]
  exact_mod_cast (hpowers theRack).2

end EmsFixtures.Modbus
