import Mathlib.Data.List.DropRight
import EmsFixtures.Lib.Sawtooth
import EmsFixtures.Snmp.Response
import EmsFixtures.Snmp.TickOverflow

/-!
# The value map as its history

What an agent serves, told from the operations since its start alone.  A Sentry4 or switch OID holds the last value
that a PUT or a load store wrote to it, else the L1 sawtooth after so many ticks, else its initial value (`sourceAt`); a
PDU2-MIB OID the last value written since the last tick, else what its source converted to at that tick (`shown`).
-/

namespace EmsFixtures.Snmp

open HashMap Panics Runs

variable {F : Type} [F64 F]

/-! ### The history -/

def Op.isTick : Op F → Bool
  | .tickTask => true
  | .put _ | .store .. => false

/-- The last value written to an OID from outside the tick task. -/
def lastWritten : List (Op F) → Oid → Option Int64
  | [], _ => none
  | o :: ops, k => (lastWritten ops k).or (o.writes k)

/-- The band of the simulator's sawtooth. -/
def currentBand : Sawtooth ℤ := { min := 1500, max := 1600, step := 5 }

/-- What the map starts with, and an undriven L1 current after `n` ticks. -/
def undisturbed (n : ℕ) (k : Oid) : Option Int64 :=
  if k = oidInputCurrent then some (Int64.ofInt (currentBand.value 21 n)) else sentry4AndSwitch.lookup k

/-- What an OID that is no view holds after `ops`. -/
def sourceAt (ops : List (Op F)) (k : Oid) : Option Int64 :=
  (lastWritten ops k).or (undisturbed (ops.countP Op.isTick) k)

/-- What any OID holds after `ops`. -/
def shown (ops : List (Op F)) (k : Oid) : Option Int64 :=
  match (mirrored F).find? (·.target = k) with
  | none => sourceAt ops k
  | some e =>
    (lastWritten (ops.rtakeWhile fun o => !o.isTick) k).or
      ((sourceAt (ops.rdropWhile fun o => !o.isTick) e.source).map e.convert)

theorem lastWritten_concat (ops : List (Op F)) (o : Op F) (k : Oid) :
    lastWritten (ops ++ [o]) k = (o.writes k).or (lastWritten ops k) := by
  induction ops with
  | nil => simp [lastWritten]
  | cons o' ops ih => rw [List.cons_append, lastWritten, ih, lastWritten, Option.or_assoc]

/-! ### The sawtooth -/

theorem currentBand_hasPeriod : currentBand.HasPeriod 21 := ⟨by decide, by decide, by decide, by decide⟩

theorem toInt_currentBand (n : ℕ) : (Int64.ofInt (currentBand.value 21 n)).toInt = currentBand.value 21 n := by
  obtain ⟨hlow, hhigh⟩ := currentBand_hasPeriod.value_mem n
  have hmin : currentBand.min = 1500 := rfl
  have hmax : currentBand.max = 1600 := rfl
  exact Int64.toInt_ofInt_of_le (by omega) (by omega)

/-- In its band the simulator's arithmetic is the sawtooth's. -/
theorem toInt_nextCurrent {cur : Int64} (hlow : 1500 ≤ cur.toInt) (hhigh : cur.toInt ≤ 1600) :
    (nextCurrent cur).toInt = currentBand.next cur.toInt := by
  have hmax : (1600 : Int64).toInt = 1600 := rfl
  have hstep := toInt_add_step hlow hhigh
  have hover : cur + 5 > 1600 ↔ currentBand.max < cur.toInt + currentBand.step := by
    rw [gt_iff_lt, Int64.lt_iff_toInt_lt, hmax, hstep]
    rfl
  unfold nextCurrent Sawtooth.next
  by_cases h : cur + 5 > 1600
  · rw [if_pos h, if_pos (hover.1 h)]
    rfl
  · rw [if_neg h, if_neg (mt hover.2 h), hstep]
    rfl

theorem nextCurrent_currentBand (n : ℕ) :
    nextCurrent (Int64.ofInt (currentBand.value 21 n)) = Int64.ofInt (currentBand.value 21 (n + 1)) := by
  obtain ⟨hlow, hhigh⟩ := currentBand_hasPeriod.value_mem n
  refine Int64.toInt_inj.1 ?_
  rw [toInt_nextCurrent (by rwa [toInt_currentBand]) (by rwa [toInt_currentBand]), toInt_currentBand, toInt_currentBand,
    Sawtooth.next_value currentBand_hasPeriod]

/-! ### One operation -/

/-- The state `s` is what `ops` leave. -/
structure Recalls (ops : List (Op F)) (s : Agent) : Prop where
  driven : ∀ k, k ∈ s.driven ↔ (lastWritten ops k).isSome
  source : ∀ k, (∀ e ∈ mirrored F, e.target ≠ k) → s.values.lookup k = sourceAt ops k
  view : ∀ e ∈ mirrored F, s.values.lookup e.target =
    (lastWritten (ops.rtakeWhile fun o => !o.isTick) e.target).or
      ((sourceAt (ops.rdropWhile fun o => !o.isTick) e.source).map e.convert)

/-- Every source of a view holds something. -/
theorem sourceAt_isSome (ops : List (Op F)) {e : Mirrored} (he : e ∈ mirrored F) :
    ∃ v, sourceAt ops e.source = some v := by
  have hsources : ∀ k ∈ [sentry4 3 [], sentry4 4 [1], sentry4 5 [1], sentry4 4 [2], sentry4 5 [2], sentry4 4 [3],
      sentry4 5 [3]], (sentry4AndSwitch.lookup k).isSome := List.forall_iff_forall_mem.1 (by decide +kernel)
  have hstart := hsources _ (List.mem_map_of_mem (f := Mirrored.source) he)
  rw [← Option.isSome_iff_exists, sourceAt, Option.isSome_or, undisturbed]
  split <;> simp [hstart]

theorem sourceAt_nil (k : Oid) : sourceAt ([] : List (Op F)) k = sentry4AndSwitch.lookup k := by
  have hstart : sentry4AndSwitch.lookup oidInputCurrent = some (Int64.ofInt (currentBand.value 21 0)) := by
    decide +kernel
  rw [sourceAt, lastWritten, Option.none_or, undisturbed]
  split
  · rename_i hk
    rw [hk, hstart]
    rfl
  · rfl

theorem recalls_start : Recalls ([] : List (Op F)) (Agent.start F) where
  driven k := by simp [Agent.start, lastWritten]
  source k h := by
    show (sentry4AndSwitch.extend (mirror F sentry4AndSwitch)).lookup k = _
    rw [lookup_extend, notMem_mirror h, Option.none_or, sourceAt_nil]
  view e he := by
    obtain ⟨v, hv⟩ := sourceAt_isSome ([] : List (Op F)) he
    show (sentry4AndSwitch.extend (mirror F sentry4AndSwitch)).lookup e.target = _
    rw [List.rtakeWhile_nil, List.rdropWhile_nil, lastWritten, Option.none_or, lookup_extend, hv,
      (lookup_mirror_iff F).2 ⟨e, he, rfl, by rw [← sourceAt_nil (F := F), hv]; rfl⟩]
    rfl

/-- An operation from outside the tick task: what it writes shows, in both MIBs. -/
theorem Recalls.write {ops : List (Op F)} {s : Agent} (h : Recalls ops s) {o : Op F} (ho : o.isTick = false) :
    Recalls (ops ++ [o]) (s.op o) := by
  have hne : o ≠ .tickTask := fun h => by rw [h] at ho; cases ho
  have hlookup : ∀ k, (s.op o).values.lookup k = (o.writes k).or (s.values.lookup k) := by
    intro k
    cases hw : o.writes k with
    | some v => rw [(lookup_op_of_writes hw).1, Option.some_or]
    | none => rw [(op_of_not_written hne hw).1, Option.none_or]
  have hcount : (ops ++ [o]).countP Op.isTick = ops.countP Op.isTick := by simp [ho]
  constructor
  · intro k
    rw [lastWritten_concat, Option.isSome_or, Bool.or_eq_true, ← h.driven]
    cases hw : o.writes k with
    | some v => simp [(lookup_op_of_writes (s := s) hw).2]
    | none => simp [(op_of_not_written (s := s) hne hw).2]
  · intro k hk
    rw [hlookup, h.source k hk, sourceAt, sourceAt, lastWritten_concat, hcount, Option.or_assoc]
  · intro e he
    rw [List.rtakeWhile_concat_pos _ _ _ (by simp [ho]), List.rdropWhile_concat_pos _ _ _ (by simp [ho]), hlookup,
      h.view e he, lastWritten_concat, Option.or_assoc]

/-- What the simulator leaves in the sources. -/
theorem Recalls.tick_source {ops : List (Op F)} {s : Agent} (h : Recalls ops s) {k : Oid}
    (hk : ∀ e ∈ mirrored F, e.target ≠ k) :
    (Simulator.tick s.values s.driven).lookup k = sourceAt (ops ++ [.tickTask]) k := by
  have hwritten : lastWritten (ops ++ [.tickTask]) k = lastWritten ops k := lastWritten_concat ..
  have hcount : (ops ++ [(.tickTask : Op F)]).countP Op.isTick = ops.countP Op.isTick + 1 := by simp [Op.isTick]
  rw [sourceAt, hwritten, hcount]
  by_cases hl1 : k = oidInputCurrent
  swap
  · rw [lookup_tick_of_ne hl1, h.source k hk, sourceAt, undisturbed, undisturbed, if_neg hl1, if_neg hl1]
  subst hl1
  by_cases hd : oidInputCurrent ∈ s.driven
  · -- it has been written, so the sawtooth does not show
    obtain ⟨v, hv⟩ := Option.isSome_iff_exists.1 ((h.driven _).1 hd)
    rw [lookup_tick_of_driven hd, h.source _ hk, sourceAt, hv, Option.some_or, Option.some_or]
  · have hnone : lastWritten ops oidInputCurrent = none := by simpa using mt (h.driven _).2 hd
    rw [lookup_tick_of_undriven hd, h.source _ hk, sourceAt, hnone, Option.none_or, Option.none_or, undisturbed,
      undisturbed, if_pos rfl, if_pos rfl, Option.getD_some, nextCurrent_currentBand]

/-- A tick moves the sawtooth, and every view is its source's again. -/
theorem Recalls.tick {ops : List (Op F)} {s : Agent} (h : Recalls ops s) :
    Recalls (ops ++ [.tickTask]) (s.op (.tickTask : Op F)) := by
  have hwritten : ∀ k, lastWritten (ops ++ [.tickTask]) k = lastWritten ops k := fun k => lastWritten_concat ..
  have hlookup : ∀ k, (s.op (.tickTask : Op F)).values.lookup k =
      ((mirror F (Simulator.tick s.values s.driven)).lookup k).or ((Simulator.tick s.values s.driven).lookup k) :=
    fun k => lookup_extend _ _ _
  constructor
  · intro k
    rw [hwritten]
    exact h.driven k
  · intro k hk
    rw [hlookup, notMem_mirror hk, Option.none_or, h.tick_source hk]
  · intro e he
    have hsource := h.tick_source (mirrored_apart e he)
    obtain ⟨v, hv⟩ := sourceAt_isSome (ops ++ [.tickTask]) he
    rw [List.rtakeWhile_concat_neg _ _ _ (by simp [Op.isTick]), List.rdropWhile_concat_neg _ _ _ (by simp [Op.isTick]),
      hlookup, (lookup_mirror_iff F).2 ⟨e, he, rfl, by rw [hsource, hv]; rfl⟩, lastWritten, hv]
    rfl

/-! ### Runs -/

theorem recalls_of_run {ops : List (Op F)} {t : Agent} (h : Run Agent.Step (Agent.start F) ops t) : Recalls ops t := by
  induction ops using List.reverseRecOn generalizing t with
  | nil =>
    obtain rfl := run_nil_iff.1 h
    exact recalls_start
  | append_singleton ops o ih =>
    obtain ⟨s, hrun, rfl⟩ := run_concat_iff.1 h
    cases ho : o.isTick with
    | false => exact (ih hrun).write ho
    | true =>
      cases o with
      | tickTask => exact (ih hrun).tick
      | put body => cases ho
      | store load nodeW seen => cases ho

theorem Recalls.lookup {ops : List (Op F)} {s : Agent} (h : Recalls ops s) (k : Oid) :
    s.values.lookup k = shown ops k := by
  unfold shown
  cases hfind : (mirrored F).find? (·.target = k) with
  | none =>
    have hnone := List.find?_eq_none.1 hfind
    exact h.source k fun e he => by simpa using hnone e he
  | some e =>
    obtain rfl : e.target = k := by simpa using List.find?_some hfind
    exact h.view e (List.mem_of_find?_eq_some hfind)

/-- How a GetRequest answers for an OID that holds `value`. -/
def servedAs : Option Int64 → VarBindValue
  | some v => sent v
  | none => missed false

/-- After any run of PUTs, ticks and load stores the map is what its history shows, and a GetRequest for any OIDs is
answered with it. -/
theorem agent_serves_history [OidRule] (ops : List (Op F)) (t : Agent) (h : Run Agent.Step (Agent.start F) ops t)
    (request : Pdu) : (∀ k, t.values.lookup k = shown ops k) ∧
      buildResponse request t.values false = .ok
        { requestId := request.requestId, errorStatus := 0, errorIndex := 0
          variableBindings := request.variableBindings.map fun vb =>
            { name := vb.name, value := servedAs (shown ops vb.name.arcs) } } := by
  have hlookup := (recalls_of_run h).lookup
  refine ⟨hlookup, ?_⟩
  have hanswer : ∀ vb : VarBind, answer t.values false vb =
      .ok { name := vb.name, value := servedAs (shown ops vb.name.arcs) } := by
    intro vb
    rw [← hlookup]
    cases hv : t.values.lookup vb.name.arcs with
    | none =>
      exact answer_of_not_named (if_neg (Finmap.lookup_eq_none.1 hv))
    | some v =>
      have hnamed : named t.values false vb.name.arcs = some vb.name.arcs := if_pos (mem_of_lookup hv)
      rw [answer_of_named hnamed hv, dif_pos vb.name.valid]
      rfl
  unfold buildResponse
  have hall : request.variableBindings.mapM (answer t.values false) = .ok (request.variableBindings.map fun vb =>
      { name := vb.name, value := servedAs (shown ops vb.name.arcs) }) := by
    induction request.variableBindings with
    | nil => rfl
    | cons vb l ih => rw [List.mapM_cons, hanswer, ih]; rfl
  rw [hall]
  rfl

/-- Two ticks, and a PUT of the L1 current between them that the second does not disturb. -/
theorem agent_serves_history_current : ∃ t : Agent,
    Run Agent.Step (Agent.start ℚ) [.tickTask, .put [("1.3.6.1.4.1.1718.4.1.4.3.1.3.1.1.1", 42)], (.tickTask : Op ℚ)] t ∧
    buildResponse (getOne 1 inputCurrent) t.values false = .ok
      { requestId := 1, errorStatus := 0, errorIndex := 0
        variableBindings := [{ name := inputCurrent, value := .value (.integer 42) }] } := by
  obtain ⟨t, ht⟩ := Agent.exists_run (Agent.start ℚ)
    [.tickTask, .put [("1.3.6.1.4.1.1718.4.1.4.3.1.3.1.1.1", 42)], (.tickTask : Op ℚ)]
  have hshown : shown [.tickTask, .put [("1.3.6.1.4.1.1718.4.1.4.3.1.3.1.1.1", 42)], (.tickTask : Op ℚ)]
      inputCurrent.arcs = some 42 := by
    decide +kernel
  refine ⟨t, ht, (agent_serves_history _ t ht _).2.trans ?_⟩
  simp only [getOne, List.map_cons, List.map_nil, hshown]
  rfl

end EmsFixtures.Snmp
