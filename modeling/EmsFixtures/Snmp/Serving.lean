import EmsFixtures.Snmp.Response

/-!
# What the agent serves

Values are stored as `i64` and sent as `i32`; keys are stored as parsed and sent as OIDs.  A response carries what is
stored exactly when the library accepts the keys it names and their values fit 32 bits (`serves_stored_iff`), and every
request gets a response exactly when no accepted PUT has named an OID the library refuses (`serves_iff`).
-/

namespace EmsFixtures.Snmp

open HashMap Panics Runs

/-! ### Stored and sent values -/

def FitsI32 (v : Int64) : Prop := -2 ^ 31 ≤ v.toInt ∧ v.toInt < 2 ^ 31

instance (v : Int64) : Decidable (FitsI32 v) := inferInstanceAs (Decidable (_ ∧ _))

theorem toInt32_toInt_eq_iff {v : Int64} : v.toInt32.toInt = v.toInt ↔ FitsI32 v := by
  rw [Int64.toInt_toInt32, FitsI32]
  constructor
  · intro h
    have hlo := Int.le_bmod (x := v.toInt) (m := 2 ^ 32) (by norm_num)
    have hhi := Int.bmod_lt (x := v.toInt) (m := 2 ^ 32) (by norm_num)
    rw [h] at hlo hhi
    omega
  · intro h
    obtain ⟨hlo, hhi⟩ := h
    exact Int.bmod_eq_of_le (by omega) (by omega)

theorem sent_eq_iff {v : Int64} : sent v = .value (.integer v.toInt) ↔ FitsI32 v := by
  rw [← toInt32_toInt_eq_iff, sent, VarBindValue.value.injEq, ObjectSyntax.integer.injEq]

section

variable [OidRule]

/-- Each varbind of the response that names a key of the map carries the integer stored under it. -/
def ServesStored (values : Values) (request : Pdu) (isGetNext : Bool) : Prop :=
  ∃ response : Pdu, buildResponse request values isGetNext = .ok response ∧
    ∀ (i : Nat) (vb : VarBind), request.variableBindings[i]? = some vb → ∀ k v,
      named values isGetNext vb.name.arcs = some k → values.lookup k = some v →
        ∃ rvb : VarBind, response.variableBindings[i]? = some rvb ∧ rvb.name.arcs = k ∧
          rvb.value = .value (.integer v.toInt)

private theorem servesStored_iff {values : Values} {request : Pdu} {isGetNext : Bool} :
    ServesStored values request isGetNext ↔ ∀ vb ∈ request.variableBindings, ∀ k v,
      named values isGetNext vb.name.arcs = some k → values.lookup k = some v → IsValidOid k ∧ FitsI32 v := by
  constructor
  · rintro ⟨response, hr, hserved⟩ vb hvb k v hk hv
    obtain ⟨i, hi⟩ := List.getElem?_of_mem hvb
    obtain ⟨rvb, hrvb, hname, hvalue⟩ := hserved i vb hi k v hk hv
    obtain ⟨rvb', hanswer, hrvb'⟩ := mapM_getElem? (buildResponse_eq_ok_iff.1 hr).1 hi
    obtain rfl : rvb = rvb' := Option.some.inj (hrvb.symm.trans hrvb')
    have hvalid : IsValidOid k := hname ▸ rvb.name.valid
    rw [answer_of_named hk hv, dif_pos hvalid] at hanswer
    cases hanswer
    exact ⟨hvalid, sent_eq_iff.1 hvalue⟩
  · intro h
    have hret : Returns (buildResponse request values isGetNext) := by
      refine returns_buildResponse_iff.2 fun vb hvb => returns_answer_iff.2 fun k hk => ?_
      obtain ⟨v, hv⟩ := Finmap.mem_iff.1 (mem_of_named hk)
      exact (h vb hvb k v hk hv).1
    obtain ⟨response, hr⟩ := hret
    refine ⟨response, hr, fun i vb hi k v hk hv => ?_⟩
    obtain ⟨hvalid, hfits⟩ := h vb (List.mem_of_getElem? hi) k v hk hv
    obtain ⟨rvb, hanswer, hrvb⟩ := mapM_getElem? (buildResponse_eq_ok_iff.1 hr).1 hi
    rw [answer_of_named hk hv, dif_pos hvalid] at hanswer
    cases hanswer
    exact ⟨_, hrvb, rfl, sent_eq_iff.2 hfits⟩

/-- A response serves the stored integers iff the keys it names are valid OIDs and their values fit an `i32`; so a GET
after a PUT returns the value put iff that fits an `i32`. -/
theorem serves_stored_iff (values : Values) (request : Pdu) (isGetNext : Bool) :
    (ServesStored values request isGetNext ↔
      ∀ vb ∈ request.variableBindings, ∀ k v, named values isGetNext vb.name.arcs = some k →
        values.lookup k = some v → IsValidOid k ∧ FitsI32 v) ∧
    ∀ (s : Agent) (body : SetOids) (parsed : List (Oid × Int64)) (oid : ObjectIdentifier) (v : Int64)
      (requestId : Int32),
      parseBody body = some parsed → lastIn parsed oid.arcs = some v →
        (buildResponse (getOne requestId oid) (s.putOids body).1.values false =
          .ok { requestId, errorStatus := 0, errorIndex := 0,
                variableBindings := [{ name := oid, value := .value (.integer v.toInt) }] } ↔ FitsI32 v) := by
  refine ⟨servesStored_iff, fun s body parsed oid v requestId hparsed hlast => ?_⟩
  have hlookup : (s.putOids body).1.values.lookup oid.arcs = some v := by
    unfold Agent.putOids
    rw [hparsed]
    simp only [Agent.foldl_drive, lookup_insertAll, hlast, Option.some_or]
  have hnamed : named (s.putOids body).1.values false oid.arcs = some oid.arcs := by
    rw [named, if_neg (by decide), if_pos (mem_of_lookup hlookup)]
  rw [getOne_of_named hnamed hlookup, dif_pos oid.valid, ← sent_eq_iff]
  show Except.ok _ = _ ↔ _
  simp only [Except.ok.injEq, Pdu.mk.injEq, List.cons.injEq, VarBind.mk.injEq, true_and, and_true]

end

theorem serves_stored_iff_small : buildResponse (getOne 1 inputCurrent)
      ((Agent.start ℚ).putOids [("1.3.6.1.4.1.1718.4.1.4.3.1.3.1.1.1", 42)]).1.values false =
    .ok { requestId := 1, errorStatus := 0, errorIndex := 0,
          variableBindings := [{ name := inputCurrent, value := .value (.integer (42 : Int64).toInt) }] } :=
  ((serves_stored_iff ∅ (getOne 1 inputCurrent) false).2 _ _
    [(oidInputCurrent, 42)] _ 42 1 (by decide +kernel) (by decide +kernel)).2 (by decide)

/-- 3000000000 is put, and got back as -1294967296. -/
theorem stored_value_wraps :
    ((Agent.start ℚ).putOids [("1.3.6.1.4.1.1718.4.1.4.3.1.3.1.1.1", 3000000000)]).2 = .noContent ∧
    ((Agent.start ℚ).putOids [("1.3.6.1.4.1.1718.4.1.4.3.1.3.1.1.1", 3000000000)]).1.values.lookup oidInputCurrent =
      some 3000000000 ∧
    buildResponse (getOne 1 inputCurrent)
        ((Agent.start ℚ).putOids [("1.3.6.1.4.1.1718.4.1.4.3.1.3.1.1.1", 3000000000)]).1.values false =
      .ok { requestId := 1, errorStatus := 0, errorIndex := 0,
            variableBindings := [{ name := inputCurrent, value := .value (.integer (-1294967296)) }] } ∧
    ¬ ServesStored ((Agent.start ℚ).putOids [("1.3.6.1.4.1.1718.4.1.4.3.1.3.1.1.1", 3000000000)]).1.values
      (getOne 1 inputCurrent) false := by
  have hlookup : ((Agent.start ℚ).putOids [("1.3.6.1.4.1.1718.4.1.4.3.1.3.1.1.1", 3000000000)]).1.values.lookup
      oidInputCurrent = some 3000000000 := by decide +kernel
  have hnamed : named ((Agent.start ℚ).putOids [("1.3.6.1.4.1.1718.4.1.4.3.1.3.1.1.1", 3000000000)]).1.values false
      oidInputCurrent = some oidInputCurrent := by rw [named, if_neg (by decide), if_pos (mem_of_lookup hlookup)]
  refine ⟨by decide +kernel, hlookup, ?_, fun h => ?_⟩
  · rw [getOne_of_named hnamed hlookup, dif_pos (by decide)]
    rfl
  · have hfits := (servesStored_iff.1 h _ (List.mem_singleton_self _) _ _ hnamed hlookup).2
    exact absurd hfits (by decide)

/-! ### Served keys -/

section Runs

variable {F : Type} [F64 F]

theorem initialValues_carried : ∀ k ∈ initialValues F, Carried k := by
  intro k hk
  have hbase : ∀ k ∈ [sentry4 4 [1], sentry4 4 [2], sentry4 4 [3], sentry4 5 [1], sentry4 5 [2], sentry4 5 [3],
      sentry4 3 [], [1, 3, 6, 1, 2, 1, 2, 2, 1, 8, 1], [1, 3, 6, 1, 2, 1, 99, 1, 1, 1, 4, 1],
      [1, 3, 6, 1, 2, 1, 99, 1, 1, 1, 4, 2]], Carried k := by decide
  rcases mem_extend.1 hk with hk | hk
  · exact hbase k (mem_ofList.1 hk)
  · obtain ⟨e, he, rfl⟩ := mem_mirror hk
    exact computed_carried _ (mirrored_computed e he)

theorem Agent.mem_of_run {s t : Agent} {ops : List (Op F)} (h : Run Agent.Step s ops t) {k : Oid} (hk : k ∈ s.values) :
    k ∈ t.values :=
  h.invariant (I := fun s => k ∈ s.values) (fun s o t hs ht => (show s.op o = t from ht) ▸ s.op_mono o hs) hk

theorem Agent.mem_of_mem_run {s t : Agent} {ops : List (Op F)} (h : Run Agent.Step s ops t) {k : Oid}
    (hk : k ∈ t.values) : k ∈ s.values ∨ k ∈ computed ∨ ∃ o ∈ ops, k ∈ o.accepted.map Prod.fst := by
  induction h with
  | nil s => exact Or.inl hk
  | cons hstep _ ih =>
    rcases ih hk with hk | hk | ⟨o, ho, hk⟩
    · rcases mem_of_mem_op ((show _ = _ from hstep) ▸ hk) with hk | hk | hk
      · exact Or.inl hk
      · exact Or.inr (Or.inl hk)
      · exact Or.inr (Or.inr ⟨_, List.mem_cons_self .., hk⟩)
    · exact Or.inr (Or.inl hk)
    · exact Or.inr (Or.inr ⟨o, List.mem_cons_of_mem _ ho, hk⟩)

theorem Agent.mem_run_of_accepted {s t : Agent} {ops : List (Op F)} (h : Run Agent.Step s ops t) {o : Op F}
    (ho : o ∈ ops) {k : Oid} (hk : k ∈ o.accepted.map Prod.fst) : k ∈ t.values := by
  induction h with
  | nil s => cases ho
  | @cons s u t i is hstep hrun ih =>
    rcases List.mem_cons.1 ho with rfl | ho
    · refine mem_of_run hrun ?_
      rw [← show s.op o = u from hstep]
      exact s.mem_op_of_accepted o hk
    · exact ih ho

variable [OidRule]

def Serves (s : Agent) : Prop :=
  (∀ k ∈ s.values, IsValidOid k) ∧ ∀ request isGetNext, Returns (buildResponse request s.values isGetNext)

/-- The agent serves every request after a run iff the PUTs it accepted named only OIDs the library accepts. -/
theorem serves_iff (ops : List (Op F)) (s : Agent) (h : Run Agent.Step (Agent.start F) ops s) :
    Serves s ↔ ∀ o ∈ ops, ∀ k ∈ o.accepted.map Prod.fst, IsValidOid k := by
  constructor
  · rintro ⟨hkeys, -⟩ o ho k hk
    exact hkeys k (Agent.mem_run_of_accepted h ho hk)
  · intro hops
    have hkeys : ∀ k ∈ s.values, IsValidOid k := by
      intro k hk
      rcases Agent.mem_of_mem_run h hk with hk | hk | ⟨o, ho, hk⟩
      · exact (initialValues_carried k hk).valid
      · exact (computed_carried k hk).valid
      · exact hops o ho k hk
    exact ⟨hkeys, returns_buildResponse hkeys⟩

end Runs

theorem serves_iff_put : ∃ s, Run Agent.Step (Agent.start ℚ) [(.put [("1.3.6.1.4.1.1718.9", 1)] : Op ℚ), .tickTask] s ∧
    Serves s := by
  obtain ⟨s, hs⟩ := Agent.exists_run (Agent.start ℚ) [(.put [("1.3.6.1.4.1.1718.9", 1)] : Op ℚ), .tickTask]
  refine ⟨s, hs, (serves_iff _ s hs).2 ?_⟩
  decide +kernel

/-- `{"3.1": 1}` is accepted; a GetNextRequest from the last PDU2-MIB reading then panics. -/
theorem put_refused_oid_breaks_walk : ∃ s, Run Agent.Step (Agent.start ℚ) [(.put [("3.1", 1)] : Op ℚ)] s ∧
    ((Agent.start ℚ).putOids [("3.1", 1)]).2 = .noContent ∧
    buildResponse (getOne 1 ⟨pole 3 rmsVoltage, (computed_carried _ (by decide)).valid⟩) s.values true =
      .error (.expect "non-empty OID") ∧
    ¬ Serves s := by
  have hvalue : ((Agent.start ℚ).putOids [("3.1", 1)]).1.values.lookup [3, 1] = some 1 := by decide +kernel
  have hnext : nextOid ((Agent.start ℚ).putOids [("3.1", 1)]).1.values (pole 3 rmsVoltage) = some [3, 1] := by
    refine nextOid_eq_some_iff.2 ⟨mem_of_lookup hvalue, by decide, ?_⟩
    have hkeys : ∀ k ∈ ((Agent.start ℚ).putOids [("3.1", 1)]).1.values.keys, pole 3 rmsVoltage < k → [3, 1] ≤ k := by
      decide +kernel
    exact fun k hk => hkeys k (Finmap.mem_keys.2 hk)
  refine ⟨((Agent.start ℚ).putOids [("3.1", 1)]).1, Run.cons rfl (Run.nil _), by decide +kernel, ?_, fun h => ?_⟩
  · have hnamed : named ((Agent.start ℚ).putOids [("3.1", 1)]).1.values true (pole 3 rmsVoltage) = some [3, 1] := by
      rw [named, if_pos rfl, hnext]
    refine (getOne_of_named hnamed hvalue).trans ?_
    rw [dif_neg (by decide)]
  · exact absurd (h.1 [3, 1] (mem_of_lookup hvalue)) (by decide)

end EmsFixtures.Snmp
