import EmsFixtures.Snmp.OutsideWrites

/-!
# The tick task's arithmetic

One iteration adds the sawtooth's step to the L1 current and multiplies each Sentry4 current by ten for the PDU2-MIB.
Every writer of the L1 current but the simulator marks it driven, so while it is undriven it is the simulator's own and
in the band (`L1InBand`); the addition never overflows.  The multiplication does where a current from outside is beyond
a tenth of `i64`, and such a current stays, for what is driven no tick changes (`tick_exact_iff`).
-/

namespace EmsFixtures.Snmp

open HashMap Runs

variable {F : Type} [F64 F]

/-- Ten times `v` is an `i64`. -/
def TenfoldFits (v : Int64) : Prop := -2 ^ 63 ≤ 10 * v.toInt ∧ 10 * v.toInt < 2 ^ 63

theorem tenfoldFits_iff {v : Int64} : TenfoldFits v ↔ (v * 10).toInt = v.toInt * 10 := by
  have hten : (10 : Int64).toInt = 10 := rfl
  have hlow := v.le_toInt
  have hhigh := v.toInt_lt
  rw [Int64.toInt_mul, hten, Int.bmod_def, TenfoldFits]
  split <;> omega

/-- An undriven sawtooth OID holds a value of its band. -/
def L1InBand (s : Agent) : Prop := ∀ sim ∈ Simulator.saws, sim.oid ∉ s.driven →
  ∃ v, s.values.lookup sim.oid = some v ∧ sim.min.toInt ≤ v.toInt ∧ v.toInt ≤ sim.max.toInt

/-- The next iteration of the tick task computes every `i64` exactly, and the undriven L1 current is in its band. -/
structure TickExact (s : Agent) : Prop where
  step : ∀ sim ∈ Simulator.saws, sim.oid ∉ s.driven →
    ((s.values.lookup sim.oid).getD sim.min + sim.step).toInt =
      ((s.values.lookup sim.oid).getD sim.min).toInt + sim.step.toInt
  mirror : ∀ phase ∈ phases, ∀ centiamps,
    (Simulator.tick s.values s.driven).lookup (sentry4 4 [phase]) = some centiamps →
      (centiamps * 10).toInt = centiamps.toInt * 10
  band : L1InBand s

/-- Ten times each current the operation writes is an `i64`. -/
def Op.CurrentsFit (o : Op F) : Prop :=
  ∀ phase ∈ phases, ∀ v, o.writes (sentry4 4 [phase]) = some v → TenfoldFits v

/-! ### The sawtooth -/

theorem oidInputCurrent_eq : oidInputCurrent = sentry4 4 [1] := rfl

theorem l1InBand_iff {s : Agent} : L1InBand s ↔ (oidInputCurrent ∉ s.driven →
    ∃ v, s.values.lookup oidInputCurrent = some v ∧ 1500 ≤ v.toInt ∧ v.toInt ≤ 1600) := by
  have hmin : (1500 : Int64).toInt = 1500 := rfl
  have hmax : (1600 : Int64).toInt = 1600 := rfl
  simp only [L1InBand, Simulator.saws, List.forall_mem_singleton, hmin, hmax]

/-- The sawtooth's next value. -/
def nextCurrent (cur : Int64) : Int64 := if cur + 5 > 1600 then 1500 else cur + 5

theorem toInt_add_step {cur : Int64} (hlow : 1500 ≤ cur.toInt) (hhigh : cur.toInt ≤ 1600) :
    (cur + 5).toInt = cur.toInt + 5 := by
  have hfive : (5 : Int64).toInt = 5 := rfl
  rw [Int64.toInt_add, hfive, Int.bmod_def]
  split <;> omega

theorem nextCurrent_band {cur : Int64} (hlow : 1500 ≤ cur.toInt) (hhigh : cur.toInt ≤ 1600) :
    1500 ≤ (nextCurrent cur).toInt ∧ (nextCurrent cur).toInt ≤ 1600 := by
  have hmin : (1500 : Int64).toInt = 1500 := rfl
  have hmax : (1600 : Int64).toInt = 1600 := rfl
  have hstep := toInt_add_step hlow hhigh
  unfold nextCurrent
  split
  · omega
  · rename_i hle
    rw [gt_iff_lt, Int64.lt_iff_toInt_lt, hmax] at hle
    omega

theorem lookup_tick_of_undriven {values : Values} {driven : Finset Oid} (h : oidInputCurrent ∉ driven) :
    (Simulator.tick values driven).lookup oidInputCurrent =
      some (nextCurrent ((values.lookup oidInputCurrent).getD 1500)) := by
  show (if oidInputCurrent ∈ driven then values else values.insert oidInputCurrent _).lookup _ = _
  rw [if_neg h]
  exact Finmap.lookup_insert _

/-! ### One operation -/

theorem L1InBand.op {s : Agent} (h : L1InBand s) (o : Op F) : L1InBand (s.op o) := by
  rw [l1InBand_iff] at h ⊢
  intro hd
  by_cases ho : o = .tickTask
  · subst ho
    have hundriven : oidInputCurrent ∉ s.driven := hd
    obtain ⟨v, hv, hlow, hhigh⟩ := h hundriven
    refine ⟨nextCurrent v, ?_, nextCurrent_band hlow hhigh⟩
    rw [oidInputCurrent_eq, lookup_op_tickTask s (Or.inl rfl) (by simp [phases]), ← oidInputCurrent_eq,
      lookup_tick_of_undriven hundriven, hv]
    rfl
  · cases hw : o.writes oidInputCurrent with
    | some v => exact absurd (lookup_op_of_writes hw).2 hd
    | none =>
      obtain ⟨hlookup, hdriven⟩ := op_of_not_written (s := s) ho hw
      rw [hlookup]
      exact h (mt hdriven.2 hd)

/-- Ten times each Sentry4 current of the map is an `i64`. -/
def AllTenfoldFit (values : Values) : Prop :=
  ∀ phase ∈ phases, ∀ v, values.lookup (sentry4 4 [phase]) = some v → TenfoldFits v

theorem allTenfoldFit_tick {s : Agent} (hband : L1InBand s) (h : AllTenfoldFit s.values) :
    AllTenfoldFit (Simulator.tick s.values s.driven) := by
  intro phase hp v hv
  by_cases hk : sentry4 4 [phase] = oidInputCurrent
  · by_cases hd : oidInputCurrent ∈ s.driven
    · rw [hk, lookup_tick_of_driven hd, ← hk] at hv
      exact h phase hp v hv
    · obtain ⟨cur, hcur, hlow, hhigh⟩ := l1InBand_iff.1 hband hd
      rw [hk, lookup_tick_of_undriven hd, hcur, Option.getD_some] at hv
      cases hv
      have := nextCurrent_band hlow hhigh
      unfold TenfoldFits
      omega
  · rw [lookup_tick_of_ne hk] at hv
    exact h phase hp v hv

theorem AllTenfoldFit.op {s : Agent} (hband : L1InBand s) (h : AllTenfoldFit s.values) {o : Op F}
    (ho : o.CurrentsFit) : AllTenfoldFit (s.op o).values := by
  intro phase hp v hv
  by_cases htick : o = .tickTask
  · subst htick
    rw [lookup_op_tickTask s (Or.inl rfl) hp] at hv
    exact allTenfoldFit_tick hband h phase hp v hv
  · cases hw : o.writes (sentry4 4 [phase]) with
    | some w =>
      rw [(lookup_op_of_writes hw).1] at hv
      cases hv
      exact ho phase hp v hw
    | none =>
      rw [(op_of_not_written htick hw).1] at hv
      exact h phase hp v hv

/-- In its band the L1 current is stepped exactly; what the mirror multiplies is the map after that. -/
theorem tickExact_iff {s : Agent} (hband : L1InBand s) :
    TickExact s ↔ AllTenfoldFit (Simulator.tick s.values s.driven) := by
  constructor
  · intro h phase hp v hv
    exact tenfoldFits_iff.2 (h.mirror phase hp v hv)
  · intro h
    refine ⟨?_, fun phase hp v hv => tenfoldFits_iff.1 (h phase hp v hv), hband⟩
    simp only [Simulator.saws, List.forall_mem_singleton]
    intro hd
    obtain ⟨cur, hcur, hlow, hhigh⟩ := l1InBand_iff.1 hband hd
    rw [hcur, Option.getD_some]
    exact toInt_add_step hlow hhigh

/-! ### Runs -/

theorem currents_start {phase : UInt32} (hp : phase ∈ phases) :
    ∃ v, (Agent.start F).values.lookup (sentry4 4 [phase]) = some v ∧ 1480 ≤ v.toInt ∧ v.toInt ≤ 1520 := by
  have hinitial : sentry4AndSwitch.lookup (sentry4 4 [1]) = some 1500 ∧
      sentry4AndSwitch.lookup (sentry4 4 [2]) = some 1520 ∧ sentry4AndSwitch.lookup (sentry4 4 [3]) = some 1480 := by
    decide +kernel
  rw [lookup_start (Or.inl rfl) hp]
  rcases mem_phases.1 hp with rfl | rfl | rfl
  · exact ⟨1500, hinitial.1, by decide, by decide⟩
  · exact ⟨1520, hinitial.2.1, by decide, by decide⟩
  · exact ⟨1480, hinitial.2.2, by decide, by decide⟩

theorem l1InBand_start : L1InBand (Agent.start F) := by
  have hinitial : sentry4AndSwitch.lookup oidInputCurrent = some 1500 := by decide +kernel
  rw [l1InBand_iff]
  intro _
  refine ⟨1500, ?_, by decide, by decide⟩
  rw [oidInputCurrent_eq, lookup_start (Or.inl rfl) (by simp [phases]), ← oidInputCurrent_eq, hinitial]

theorem allTenfoldFit_start : AllTenfoldFit (Agent.start F).values := by
  intro phase hp v hv
  obtain ⟨w, hw, hlow, hhigh⟩ := currents_start (F := F) hp
  rw [hw] at hv
  cases hv
  unfold TenfoldFits
  omega

/-- The undriven L1 current is in its band after every run. -/
theorem l1InBand_of_run {ops : List (Op F)} {t : Agent} (h : Run Agent.Step (Agent.start F) ops t) : L1InBand t := by
  have hkeeps : ∀ (s : Agent) (o : Op F) (t : Agent), L1InBand s → s.Step o t → L1InBand t := by
    rintro s o _ hs rfl
    exact hs.op o
  exact h.invariant hkeeps l1InBand_start

/-- In every state of a run the tick task's next iteration is exact, iff every current written from outside, by a PUT
or by a store of readings, is an `i64` ten times over. -/
theorem tick_exact_iff (ops : List (Op F)) :
    (∀ pre, pre <+: ops → ∀ t, Run Agent.Step (Agent.start F) pre t → TickExact t) ↔ ∀ o ∈ ops, o.CurrentsFit := by
  constructor
  · intro h o ho phase hp v hv
    -- right after the operation the current is in the map, and driven
    obtain ⟨pre, hpre, s, hrun⟩ := Agent.exists_run_of_mem (Agent.start F) ho
    have hexact := h pre hpre _ hrun
    obtain ⟨hlookup, hdriven⟩ := lookup_op_of_writes (s := s) hv
    exact (tickExact_iff hexact.band).1 hexact phase hp v (by rw [lookup_tick_of_driven hdriven, hlookup])
  · rintro h pre ⟨post, rfl⟩ t ht
    have hkeeps : ∀ (s : Agent) (o : Op F) (t : Agent), L1InBand s ∧ AllTenfoldFit s.values → o.CurrentsFit →
        s.Step o t → L1InBand t ∧ AllTenfoldFit t.values := by
      rintro s o _ ⟨hband, hfit⟩ ho rfl
      exact ⟨hband.op o, hfit.op hband ho⟩
    have hops : ∀ o ∈ pre, o.CurrentsFit := fun o ho => h o (List.mem_append_left _ ho)
    obtain ⟨hband, hfit⟩ := ht.invariant_along hkeeps ⟨l1InBand_start, allTenfoldFit_start⟩
      (along_of_forall_mem hops (Agent.start F))
    exact (tickExact_iff hband).2 (allTenfoldFit_tick hband hfit)

/-- The L2 current is driven to `i64::MAX` hundredths of an amp. -/
def putMaxCurrent : Op ℚ := .put [("1.3.6.1.4.1.1718.4.1.4.3.1.3.1.1.2", 9223372036854775807)]

/-- The next tick mirrors it as -10 mA. -/
theorem milliamps_wrap : ∃ t, Run Agent.Step (Agent.start ℚ) [putMaxCurrent] t ∧
    (t.tickTask ℚ).values.lookup (pole 2 rmsCurrent) = some (-10) ∧ ¬ TickExact t := by
  have haccepted : putMaxCurrent.accepted = [(sentry4 4 [2], 9223372036854775807)] := by decide +kernel
  have hwrites : putMaxCurrent.writes (sentry4 4 [2]) = some 9223372036854775807 := by
    show lastIn putMaxCurrent.accepted _ = _
    rw [haccepted]
    rfl
  obtain ⟨hlookup, hdriven⟩ := lookup_op_of_writes (s := Agent.start ℚ) hwrites
  refine ⟨_, Run.cons rfl (Run.nil _), ?_, fun h => ?_⟩
  · decide +kernel
  · have hexact := h.mirror 2 (by simp [phases]) 9223372036854775807
      (by rw [lookup_tick_of_driven hdriven, hlookup])
    revert hexact
    decide

end EmsFixtures.Snmp
