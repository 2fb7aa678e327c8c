import EmsFixtures.Lib.Driven
import EmsFixtures.Snmp.Agent

/-!
# Driven OIDs

The tick task writes twice: the simulator, which is given the driven set, and the PDU2-MIB view, which is not.  A
driven OID outside the view survives; a driven PDU2-MIB OID survives a tick exactly when it already holds what its
Sentry4 source converts to after the drift (`MirrorAgrees`).  So driven OIDs are safe for as long as no tick follows a
PUT of one that the view computes, and after such a tick only one value can have been the one put
(`driven_oids_survive`).
-/

namespace EmsFixtures.Snmp

open HashMap Runs Driven

variable {F : Type} [F64 F]

def Agent.toStore (s : Agent) : Store Oid Int64 := ⟨s.values, s.driven⟩

def Op.LoadOff : Op F → Prop
  | .put _ | .tickTask => True
  | .store .. => False

/-- Every driven PDU2-MIB OID holds what its Sentry4 source, once drifted, converts to. -/
def MirrorAgrees (F : Type) [F64 F] (s : Agent) : Prop :=
  ∀ e ∈ mirrored F, e.target ∈ s.driven → ∀ source,
    (Simulator.tick s.values s.driven).lookup e.source = some source →
      s.values.lookup e.target = some (e.convert source)

theorem lookup_tick_of_driven {values : Values} {driven : Finset Oid} {k : Oid} (hk : k ∈ driven) :
    (Simulator.tick values driven).lookup k = values.lookup k := by
  show (if oidInputCurrent ∈ driven then values else values.insert oidInputCurrent _).lookup k = _
  split
  · rfl
  · rename_i h
    exact Finmap.lookup_insert_of_ne _ fun he => h (he ▸ hk)

/-- A tick leaves every driven OID alone iff the PDU2-MIB view agrees with the driven ones. -/
theorem tickTask_keeps_iff {s : Agent} :
    (∀ k ∈ s.driven, (s.tickTask F).values.lookup k = s.values.lookup k) ↔ MirrorAgrees F s := by
  constructor
  · intro h e he hd source hs
    rw [← h _ hd]
    refine (lookup_extend _ _ _).trans ?_
    rw [(lookup_mirror_iff F).2 ⟨e, he, rfl, by rw [hs]; rfl⟩]
    rfl
  · intro h k hk
    refine (lookup_extend _ _ _).trans ?_
    rw [lookup_tick_of_driven hk]
    cases hm : (mirror F (Simulator.tick s.values s.driven)).lookup k with
    | none => rfl
    | some v =>
      obtain ⟨e, he, rfl, hv⟩ := (lookup_mirror_iff F).1 hm
      obtain ⟨source, hs, rfl⟩ := Option.map_eq_some_iff.1 hv
      rw [h e he hk source hs]
      rfl

theorem op_driven {s : Agent} {o : Op F} (ho : o.LoadOff) :
    (s.op o).driven = s.driven ∪ (o.accepted.map Prod.fst).toFinset := by
  cases o with
  | put body => rw [Agent.op_put]
  | tickTask => show s.driven = s.driven ∪ ∅; rw [Finset.union_empty]
  | store load nodeW seen => exact ho.elim

theorem op_writes_iff {s : Agent} {o : Op F} (ho : o.LoadOff) :
    Writes s.toStore o.accepted (s.op o).toStore ↔ (o = .tickTask → MirrorAgrees F s) := by
  cases o with
  | put body =>
    refine iff_of_true ⟨op_driven ho, fun k _ => ?_⟩ (fun h => by cases h)
    rw [Agent.op_put]
    exact lookup_insertAll _ _ k
  | tickTask =>
    -- nothing is written from outside, so the driven OIDs must all keep their values
    constructor
    · intro h _
      exact tickTask_keeps_iff.1 fun k hk => h.lookup k hk
    · intro h
      exact ⟨op_driven ho, fun k hk => tickTask_keeps_iff.2 (h rfl) k hk⟩
  | store load nodeW seen => exact ho.elim

/-- Every driven OID holds the last accepted PUT that named it. -/
def DrivenHold (ops : List (Op F)) (s : Agent) : Prop :=
  ∀ k ∈ s.driven, ∃ v, lastWrite Op.accepted ops k = some v ∧ s.values.lookup k = some v

/-- Every driven OID holds its last accepted PUT after every step of a run iff each tick finds the driven PDU2-MIB OIDs
in agreement with their drifted sources. -/
theorem drivenHold_iff_mirrorAgrees (ops : List (Op F)) (hoff : ∀ o ∈ ops, o.LoadOff) :
    (∀ pre, pre <+: ops → ∀ t, Run Agent.Step (Agent.start F) pre t → DrivenHold pre t) ↔
      Along Agent.Step (fun s o _ => o = .tickTask → MirrorAgrees F s) (Agent.start F) ops := by
  have hC : Along Agent.Step (fun _ o _ => o.LoadOff) (Agent.start F) ops := along_of_forall_mem hoff _
  have hwrites : Along Agent.Step (fun s o t => Writes s.toStore o.accepted t.toStore) (Agent.start F) ops ↔
      Along Agent.Step (fun s o _ => o = .tickTask → MirrorAgrees F s) (Agent.start F) ops := by
    refine along_congr (I := fun _ => True) (fun _ _ _ _ _ _ => trivial) (fun s o t _ ho ht => ?_) trivial hC
    rw [← show s.op o = t from ht]
    exact op_writes_iff ho
  rw [← hwrites]
  constructor
  · refine along_of_agrees Agent.toStore (Along.imp (I := fun _ => True) (fun _ _ _ _ _ _ => trivial)
      (fun s o t _ ht ho => ?_) trivial hC)
    rw [← show s.op o = t from ht]
    exact op_driven ho
  · rintro h pre ⟨post, rfl⟩ t ht k hk
    obtain ⟨v, hv, hk⟩ := agrees_of_run Agent.toStore (fun _ => none) ht (fun k hk => by cases hk) h.of_append k hk
    exact ⟨v, by simpa using hv, hk⟩

/-- An accepted PUT that names an OID the PDU2-MIB view computes. -/
def Op.NamesMirror (o : Op F) : Prop := ∃ e ∈ mirrored F, e.target ∈ o.accepted.map Prod.fst

/-- With the load follower off, driven OIDs are those that accepted PUTs have named. -/
theorem mem_driven_run {ops : List (Op F)} (hoff : ∀ o ∈ ops, o.LoadOff) {t : Agent}
    (h : Run Agent.Step (Agent.start F) ops t) {k : Oid} :
    k ∈ t.driven ↔ ∃ o ∈ ops, k ∈ o.accepted.map Prod.fst := by
  induction ops using List.reverseRecOn generalizing t with
  | nil =>
    obtain rfl := run_nil_iff.1 h
    simp [Agent.start]
  | append_singleton ops o ih =>
    obtain ⟨s, hs, ht⟩ := run_concat_iff.1 h
    rw [← show s.op o = t from ht, op_driven (hoff o (by simp)), Finset.mem_union, List.mem_toFinset,
      ih (fun o' ho' => hoff o' (List.mem_append_left _ ho')) hs]
    simp only [List.mem_append, List.mem_singleton, or_and_right, exists_or, exists_eq_left]

/-- After a tick the view shows its sources. -/
theorem lookup_tickTask_target (s : Agent) {e : Mirrored} (he : e ∈ mirrored F) {source : Int64}
    (hs : (s.tickTask F).values.lookup e.source = some source) :
    (s.tickTask F).values.lookup e.target = some (e.convert source) := by
  have hdrifted : (Simulator.tick s.values s.driven).lookup e.source = some source := by
    rw [← hs]
    refine ((lookup_extend _ _ _).trans ?_).symm
    rw [notMem_mirror (mirrored_apart e he), Option.none_or]
  refine (lookup_extend _ _ _).trans ?_
  rw [(lookup_mirror_iff F).2 ⟨e, he, rfl, by rw [hdrifted]; rfl⟩]
  rfl

/-- With the load follower off, driven OIDs hold their last accepted PUT after every step of a run in which no tick
follows a PUT that names an OID of the PDU2-MIB view.  After a tick that does, the value put there is lost unless it was
the reading that its source shows. -/
theorem driven_oids_survive (ops : List (Op F)) (hoff : ∀ o ∈ ops, o.LoadOff) :
    ((∀ pre o post, ops = pre ++ o :: post → o.NamesMirror → .tickTask ∉ post) →
      ∀ pre, pre <+: ops → ∀ t, Run Agent.Step (Agent.start F) pre t → DrivenHold pre t) ∧
    ∀ pre, pre ++ [.tickTask] <+: ops → ∀ t, Run Agent.Step (Agent.start F) (pre ++ [.tickTask]) t →
      DrivenHold (pre ++ [.tickTask]) t → ∀ e ∈ mirrored F, ∀ put, lastWrite Op.accepted pre e.target = some put →
        ∀ source, t.values.lookup e.source = some source → put = e.convert source := by
  constructor
  · intro hlast
    rw [drivenHold_iff_mirrorAgrees ops hoff, along_iff_after]
    rintro pre o post rfl s t hs - rfl e he hd
    -- a PUT has driven the target, and this tick follows it
    have hpre : ∀ o ∈ pre, o.LoadOff := fun o ho => hoff o (List.mem_append_left _ ho)
    obtain ⟨o, ho, hk⟩ := (mem_driven_run hpre hs).1 hd
    obtain ⟨before, between, rfl⟩ := List.append_of_mem ho
    exact absurd (by simp) (hlast before o (between ++ .tickTask :: post) (by simp) ⟨e, he, hk⟩)
  · intro pre hpre t ht hhold e he put hput source hsource
    obtain ⟨s, hs, hstep⟩ := run_concat_iff.1 ht
    obtain rfl : s.tickTask F = t := hstep
    have hlast : lastWrite Op.accepted (pre ++ [(.tickTask : Op F)]) e.target = some put := by
      rw [lastWrite_append, hput]
      rfl
    have hdriven : e.target ∈ (s.tickTask F).driven :=
      (mem_driven_run (fun o ho => hoff o (hpre.subset ho)) ht).2 (lastWrite_isSome.1 (by rw [hlast]; rfl))
    obtain ⟨v, hv, hk⟩ := hhold e.target hdriven
    rw [lookup_tickTask_target s he hsource] at hk
    rw [hlast] at hv
    cases hv
    cases hk
    rfl

theorem driven_oids_survive_current : ∃ t,
    Run Agent.Step (Agent.start ℚ) [.put [("1.3.6.1.4.1.1718.4.1.4.3.1.3.1.1.1", 42)], (.tickTask : Op ℚ)] t ∧
      DrivenHold [.put [("1.3.6.1.4.1.1718.4.1.4.3.1.3.1.1.1", 42)], (.tickTask : Op ℚ)] t ∧
      oidInputCurrent ∈ t.driven := by
  obtain ⟨t, ht⟩ := Agent.exists_run (Agent.start ℚ)
    [.put [("1.3.6.1.4.1.1718.4.1.4.3.1.3.1.1.1", 42)], (.tickTask : Op ℚ)]
  have haccepted : Op.accepted (.put [("1.3.6.1.4.1.1718.4.1.4.3.1.3.1.1.1", 42)] : Op ℚ) = [(oidInputCurrent, 42)] := by
    decide +kernel
  have hapart : ∀ k ∈ (mirrored ℚ).map Mirrored.target, k ≠ oidInputCurrent :=
    show ∀ k ∈ [inletPower, pole 1 rmsCurrent, pole 1 rmsVoltage, pole 2 rmsCurrent, pole 2 rmsVoltage,
      pole 3 rmsCurrent, pole 3 rmsVoltage], k ≠ oidInputCurrent by decide
  have hoff : ∀ o ∈ [.put [("1.3.6.1.4.1.1718.4.1.4.3.1.3.1.1.1", 42)], (.tickTask : Op ℚ)], o.LoadOff := by
    simp [Op.LoadOff]
  have hspared : ∀ o ∈ [.put [("1.3.6.1.4.1.1718.4.1.4.3.1.3.1.1.1", 42)], (.tickTask : Op ℚ)], ¬ o.NamesMirror := by
    rintro o ho ⟨e, he, hk⟩
    rcases List.mem_pair.1 ho with rfl | rfl
    · rw [haccepted, List.map_singleton, List.mem_singleton] at hk
      exact hapart _ (List.mem_map_of_mem he) hk
    · cases hk
  refine ⟨t, ht, (driven_oids_survive _ hoff).1 ?_ _ List.prefix_rfl t ht, ?_⟩
  · intro pre o post heq hnames
    exact absurd hnames (hspared o (heq ▸ by simp))
  · exact (mem_driven_run hoff ht).2 ⟨_, List.mem_cons_self, by rw [haccepted]; exact List.mem_singleton_self _⟩

/-- A driven PDU2-MIB L1 current is back at the mirrored 15.05 A after one tick. -/
theorem driven_mirror_overwritten : ∃ t,
    Run Agent.Step (Agent.start ℚ) [.put [("1.3.6.1.4.1.13742.6.5.2.4.1.4.1.1.1.1", 777)], (.tickTask : Op ℚ)] t ∧
      pole 1 rmsCurrent ∈ t.driven ∧ t.values.lookup (pole 1 rmsCurrent) = some 15050 ∧
      ¬ DrivenHold [.put [("1.3.6.1.4.1.13742.6.5.2.4.1.4.1.1.1.1", 777)], (.tickTask : Op ℚ)] t := by
  have hdriven : pole 1 rmsCurrent ∈ (((Agent.start ℚ).op
      (.put [("1.3.6.1.4.1.13742.6.5.2.4.1.4.1.1.1.1", 777)] : Op ℚ)).op (.tickTask : Op ℚ)).driven := by decide +kernel
  have hvalue : (((Agent.start ℚ).op (.put [("1.3.6.1.4.1.13742.6.5.2.4.1.4.1.1.1.1", 777)] : Op ℚ)).op
      (.tickTask : Op ℚ)).values.lookup (pole 1 rmsCurrent) = some 15050 := by decide +kernel
  have hlast : lastWrite Op.accepted [.put [("1.3.6.1.4.1.13742.6.5.2.4.1.4.1.1.1.1", 777)], (.tickTask : Op ℚ)]
      (pole 1 rmsCurrent) = some 777 := by decide +kernel
  refine ⟨_, Run.cons rfl (Run.cons rfl (Run.nil _)), hdriven, hvalue, fun h => ?_⟩
  obtain ⟨v, hv, hk⟩ := h _ hdriven
  rw [hlast] at hv
  rw [hvalue] at hk
  cases hv
  cases hk

end EmsFixtures.Snmp
