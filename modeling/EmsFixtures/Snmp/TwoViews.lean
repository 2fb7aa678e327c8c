import EmsFixtures.Snmp.Readings

/-!
# The two MIB views of one PDU

A map contains its mirror when every PDU2-MIB reading in it is the converted Sentry4 one.  `mirror` reads Sentry4 OIDs
and gives PDU2-MIB ones, so a map extended by its mirror contains it (`containsMirror_extend`); the readings of a load
are such a map over the OIDs they write, and leave the voltages alone.
-/

namespace EmsFixtures.Snmp

open HashMap Runs

variable {F : Type} [F64 F]

/-- Each PDU2-MIB reading of `mirror values` is in `values`. -/
def ContainsMirror (F : Type) [F64 F] (values : Values) : Prop :=
  ∀ k v, (mirror F values).lookup k = some v → values.lookup k = some v

theorem containsMirror_iff {values : Values} : ContainsMirror F values ↔
    ∀ e ∈ mirrored F, ∀ source, values.lookup e.source = some source →
      values.lookup e.target = some (e.convert source) := by
  constructor
  · intro h e he source hs
    apply h
    exact (lookup_mirror_iff F).2 ⟨e, he, rfl, by rw [hs]; rfl⟩
  · intro h k v hv
    obtain ⟨e, he, rfl, hmap⟩ := (lookup_mirror_iff F).1 hv
    obtain ⟨source, hs, rfl⟩ := Option.map_eq_some_iff.1 hmap
    exact h e he source hs

/-! ### What the mirror reads and writes -/

/-- No OID the mirror reads is one it writes. -/
theorem source_notMem_mirror {e : Mirrored} (he : e ∈ mirrored F) (values : Values) : e.source ∉ mirror F values := by
  have happart : ∀ s ∈ [sentry4 3 [], sentry4 4 [1], sentry4 5 [1], sentry4 4 [2], sentry4 5 [2], sentry4 4 [3],
      sentry4 5 [3]], ∀ t ∈ [inletPower, pole 1 rmsCurrent, pole 1 rmsVoltage, pole 2 rmsCurrent,
      pole 2 rmsVoltage, pole 3 rmsCurrent, pole 3 rmsVoltage], s ≠ t := by decide
  intro hmem
  obtain ⟨e', he', heq⟩ := mem_mirror hmem
  exact happart e.source (List.mem_map_of_mem (f := Mirrored.source) he) e'.target
    (List.mem_map_of_mem (f := Mirrored.target) he') heq.symm

/-- A Sentry4 current or voltage is not among what the mirror writes. -/
theorem sentry4_notMem_mirror {table phase : UInt32} (ht : table = 4 ∨ table = 5) (hp : phase ∈ phases)
    (values : Values) : sentry4 table [phase] ∉ mirror F values := by
  have hsource : ∃ e ∈ mirrored F, e.source = sentry4 table [phase] := by
    rcases ht with rfl | rfl <;> rcases mem_phases.1 hp with rfl | rfl | rfl <;> simp [mirrored]
  obtain ⟨e, he, hsource⟩ := hsource
  rw [← hsource]
  exact source_notMem_mirror he values

/-- The currents and voltages an agent starts with. -/
theorem lookup_start {table phase : UInt32} (ht : table = 4 ∨ table = 5) (hp : phase ∈ phases) :
    (Agent.start F).values.lookup (sentry4 table [phase]) = sentry4AndSwitch.lookup (sentry4 table [phase]) := by
  show (sentry4AndSwitch.extend (mirror F sentry4AndSwitch)).lookup _ = _
  rw [lookup_extend, Finmap.lookup_eq_none.2 (sentry4_notMem_mirror ht hp _), Option.none_or]

theorem containsMirror_extend (values : Values) : ContainsMirror F (values.extend (mirror F values)) := by
  rw [containsMirror_iff]
  intro e he source hs
  rw [lookup_extend, Finmap.lookup_eq_none.2 (source_notMem_mirror he values), Option.none_or] at hs
  rw [lookup_extend, (lookup_mirror_iff F).2 ⟨e, he, rfl, by rw [hs]; rfl⟩]
  rfl

/-! ### Stores -/

/-- The readings show an OID in the PDU2-MIB only if they give its Sentry4 source. -/
theorem target_notMem_readings {e : Mirrored} (he : e ∈ mirrored F) (hsource : e.source ∉ readingKeys) :
    e.target ∉ readingKeys := by
  have hpairs : ∀ x ∈ [(inletPower, sentry4 3 []), (pole 1 rmsCurrent, sentry4 4 [1]),
      (pole 1 rmsVoltage, sentry4 5 [1]), (pole 2 rmsCurrent, sentry4 4 [2]), (pole 2 rmsVoltage, sentry4 5 [2]),
      (pole 3 rmsCurrent, sentry4 4 [3]), (pole 3 rmsVoltage, sentry4 5 [3])],
      x.2 ∉ readingKeys → x.1 ∉ readingKeys := by decide
  exact hpairs (e.target, e.source) (List.mem_map_of_mem (f := fun e => (e.target, e.source)) he) hsource

/-- A store of readings writes what it converts, and neither a voltage nor a converted one. -/
theorem containsMirror_store {values : Values} (h : ContainsMirror F values) (load : PduLoad F) (nodeW : F)
    (seen : Values) : ContainsMirror F (values.extend (readings load nodeW seen)) := by
  rw [containsMirror_iff] at h ⊢
  intro e he source hs
  rw [lookup_extend] at hs ⊢
  cases hr : (readings load nodeW seen).lookup e.source with
  | none =>
    -- a voltage: its view is not written either
    rw [hr, Option.none_or] at hs
    have hmissing : e.source ∉ readings load nodeW seen := Finmap.lookup_eq_none.1 hr
    have hsource : e.source ∉ readingKeys := fun h => hmissing (mem_readings_iff.2 h)
    have htarget : (readings load nodeW seen).lookup e.target = none := by
      rw [Finmap.lookup_eq_none, mem_readings_iff]
      exact target_notMem_readings he hsource
    rw [htarget, Option.none_or]
    exact h e he source hs
  | some v =>
    rw [hr, Option.some_or] at hs
    cases hs
    rw [readings_eq_extend, lookup_extend, Finmap.lookup_eq_none.2 (source_notMem_mirror he _), Option.none_or] at hr
    rw [readings_eq_extend, lookup_extend, (lookup_mirror_iff F).2 ⟨e, he, rfl, by rw [hr]; rfl⟩]
    rfl

/-! ### Runs -/

def Op.IsPut : Op F → Prop
  | .put _ => True
  | .tickTask | .store .. => False

theorem containsMirror_tickTask (s : Agent) : ContainsMirror F (s.tickTask F).values := containsMirror_extend _

/-- A tick restores the containment, a store keeps it. -/
theorem containsMirror_op {s : Agent} {o : Op F} (h : ContainsMirror F s.values) (ho : ¬ o.IsPut) :
    ContainsMirror F (s.op o).values := by
  cases o with
  | put body => exact absurd trivial ho
  | tickTask => exact containsMirror_tickTask s
  | store load nodeW seen => exact containsMirror_store h load nodeW seen

/-- Whatever came before, the map right after a tick contains its mirror, and goes on to until the next PUT. -/
theorem views_in_step (before after : List (Op F)) (t u : Agent)
    (ht : Run Agent.Step (Agent.start F) (before ++ [.tickTask]) t) (hafter : ∀ o ∈ after, ¬ o.IsPut)
    (hu : Run Agent.Step t after u) : ContainsMirror F t.values ∧ ContainsMirror F u.values := by
  have htick : ContainsMirror F t.values := by
    obtain ⟨s, -, htick⟩ := run_concat_iff.1 ht
    rw [← show s.op (.tickTask : Op F) = t from htick]
    exact containsMirror_tickTask s
  have hkeeps : ∀ (s : Agent) (o : Op F) (t : Agent), ContainsMirror F s.values → ¬ o.IsPut → s.Step o t →
      ContainsMirror F t.values := by
    intro s o t hs ho hst
    rw [← show s.op o = t from hst]
    exact containsMirror_op hs ho
  have hnoput : Along Agent.Step (fun _ o _ => ¬ o.IsPut) t after := along_of_forall_mem hafter t
  exact ⟨htick, hu.invariant_along hkeeps htick hnoput⟩

/-- A driven phase voltage shows on the other MIB from the next tick on, through a store. -/
theorem views_in_step_voltage : ∃ t u, Run Agent.Step (Agent.start ℚ)
      ([.put [("1.3.6.1.4.1.1718.4.1.5.3.1.3.1.1.1", 2300)]] ++ [(.tickTask : Op ℚ)]) t ∧
    Run Agent.Step t [(.store { nodes := 7, share := 4, baseW := 3000 } 10500 t.values : Op ℚ)] u ∧
    ContainsMirror ℚ u.values := by
  obtain ⟨t, ht⟩ := Agent.exists_run (Agent.start ℚ)
    ([.put [("1.3.6.1.4.1.1718.4.1.5.3.1.3.1.1.1", 2300)]] ++ [(.tickTask : Op ℚ)])
  obtain ⟨u, hu⟩ := Agent.exists_run t [(.store { nodes := 7, share := 4, baseW := 3000 } 10500 t.values : Op ℚ)]
  exact ⟨t, u, ht, hu, (views_in_step _ _ t u ht (by simp [Op.IsPut]) hu).2⟩

end EmsFixtures.Snmp
