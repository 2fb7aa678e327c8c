import EmsFixtures.Snmp.Tasks

/-!
# Tasks as critical sections

What the sections of the agent's tasks do, run without interruption: those of the writers are the operations of
`Agent.op`, and the readers answer as `handle_datagram` and `handle_v3_datagram` do on one map.
-/

namespace EmsFixtures.Snmp

open Locks HashMap Panics

variable {F : Type} [F64 F] {held : Finset Lock} {d : shared.AllData}

/-- The agent between sections. -/
def agentOf (d : shared.AllData) : Agent := { values := d .values, driven := d .driven }

namespace Task

/-! ### Stretches -/

theorem ofList_entries (order : Iteration) (m : Values) : ofList (order.entries m) = m := by
  apply Finmap.ext_lookup
  intro k
  apply Option.ext
  intro v
  rw [lookup_ofList_eq_some_iff (order.nodup m), order.mem_iff]

/-- In whatever order the entries of a map are inserted, the map is extended by it. -/
theorem insertAll_entries (order : Iteration) (values m : Values) :
    values.insertAll (order.entries m) = values.extend m := by
  rw [← extend_ofList, ofList_entries]

theorem keys_entries (order : Iteration) (m : Values) : ((order.entries m).map Prod.fst).toFinset = m.keys := by
  ext k
  rw [List.mem_toFinset, ← mem_ofList, ofList_entries, Finmap.mem_keys]

theorem alone_insertValues (l : List (Oid × Int64)) : alone (l.forM fun e => insertValue e.1 e.2) d =
    ((), Function.update d .values ((d .values).insertAll l)) := by
  induction l generalizing d with
  | nil => exact congrArg (Prod.mk ()) (Function.update_eq_self Lock.values d).symm
  | cons e l ih =>
    refine (ih (d := Function.update d .values ((d .values).insert e.1 e.2))).trans ?_
    rw [Function.update_idem, Function.update_self]
    rfl

theorem alone_insertDriven (l : List (Oid × Int64)) : alone (l.forM fun e => insertDriven e.1) d =
    ((), Function.update d .driven (d .driven ∪ (l.map Prod.fst).toFinset)) := by
  induction l generalizing d with
  | nil =>
    refine congrArg (Prod.mk ()) ?_
    simp
  | cons e l ih =>
    refine (ih (d := Function.update d .driven (insert e.1 (d .driven)))).trans ?_
    rw [Function.update_idem, Function.update_self]
    simp

/-- The entries of a PUT, driven one after the other. -/
theorem alone_drive (l : List (Oid × Int64)) : alone (l.forM fun e => do
      insertValue e.1 e.2
      insertDriven e.1) d =
    ((), Function.update (Function.update d .values ((d .values).insertAll l)) .driven
      (d .driven ∪ (l.map Prod.fst).toFinset)) := by
  induction l generalizing d with
  | nil =>
    refine congrArg (Prod.mk ()) ?_
    simp [insertAll]
  | cons e l ih =>
    refine (ih (d := Function.update (Function.update d .values ((d .values).insert e.1 e.2)) .driven
      (insert e.1 (d .driven)))).trans ?_
    refine congrArg (Prod.mk ()) ?_
    funext k
    cases k <;> simp [insertAll]

theorem alone_tickOne (sim : IntSawtooth) : alone (tickOne sim) d =
    ((), Function.update d .values (Simulator.tickOne (d .driven) (d .values) sim)) := by
  unfold Simulator.tickOne
  by_cases h : sim.oid ∈ d .driven
  · rw [if_pos h, Function.update_eq_self]
    show alone (if decide (sim.oid ∈ d .driven) = true then _ else _) d = _
    rw [decide_eq_true h]
    rfl
  · rw [if_neg h]
    show alone (if decide (sim.oid ∈ d .driven) = true then _ else _) d = _
    rw [decide_eq_false h]
    rfl

theorem alone_saws (saws : List IntSawtooth) : alone (saws.forM tickOne) d =
    ((), Function.update d .values (saws.foldl (Simulator.tickOne (d .driven)) (d .values))) := by
  induction saws generalizing d with
  | nil => exact congrArg (Prod.mk ()) (Function.update_eq_self Lock.values d).symm
  | cons sim saws ih =>
    have hbind : alone ((sim :: saws).forM tickOne) d = alone (saws.forM tickOne) (alone (tickOne sim) d).2 :=
      alone_bind (tickOne sim) (fun _ => saws.forM tickOne) d
    rw [hbind, alone_tickOne, ih]
    simp only [Function.update_idem, Function.update_self]
    rfl

theorem alone_tick (order : Iteration) : alone (tick F order) d = ((), Function.update d .values
    ((Simulator.tick (d .values) (d .driven)).extend (Snmp.mirror F (Simulator.tick (d .values) (d .driven))))) := by
  have hbind : alone (tick F order) d = alone ((order.entries (Snmp.mirror F _)).forM fun e => insertValue e.1 e.2)
      (alone (Simulator.saws.forM tickOne) d).2 :=
    (alone_bind (Simulator.saws.forM tickOne) _ d).trans (alone_bind (mirror F) _ _)
  rw [hbind, alone_saws, alone_insertValues, insertAll_entries]
  simp only [Function.update_idem, Function.update_self]
  rfl

theorem alone_lookupFor (isGetNext : Bool) (reqOid : Oid) :
    alone (lookupFor isGetNext reqOid) d = (Snmp.lookupFor (d .values) isGetNext reqOid, d) := by
  cases isGetNext with
  | false => rfl
  | true =>
    have hnext : alone (nextKey reqOid) d = (nextOid (d .values) reqOid, d) := rfl
    refine (alone_bind (nextKey reqOid) _ d).trans ?_
    unfold Snmp.lookupFor
    rw [if_pos rfl, hnext]
    dsimp only
    cases nextOid (d .values) reqOid <;> rfl

/-! ### Writers -/

/-- A section over the driven set and the value map ends as its two stretches do. -/
theorem ends_both {R : Type} {p q : Task Unit} {r : R} (hp : Within {.driven} p) (hq : Within {.values, .driven} q) :
    ends ∅ (.acquire .driven (p.bind fun _ => .acquire .values
      (q.bind fun _ => .release .values (.release .driven (.done r))))) d =
    ((.done r : Task R), (alone q (alone p d).2).2) := by
  refine (ends_bind hp _ d).trans ((ends_bind hq _ _).trans ?_)
  refine (ends_release ?_ _ _).trans (ends_release_last ?_ _ _)
  · decide
  · decide

theorem ends_putOids {body : SetOids} {parsed : List (Oid × Int64)} (h : parseBody body = some parsed) :
    ∃ d', ends ∅ (putOids body) d = (.done .noContent, d') ∧ agentOf d' = ((agentOf d).putOids body).1 := by
  unfold putOids Agent.putOids
  rw [h]
  refine ⟨_, ends_both (p := .done ()) trivial (Within.forM fun e => ?_), ?_⟩
  · exact ⟨by simp, by simp, trivial⟩
  · dsimp only
    rw [Agent.foldl_drive]
    show agentOf (alone (parsed.forM fun e => do insertValue e.1 e.2; insertDriven e.1) d).2 = _
    rw [alone_drive]
    rfl

theorem ends_store (order : Iteration) (next : Values) :
    ∃ d', ends ∅ (store order next) d = (.done (), d') ∧ agentOf d' = (agentOf d).store next := by
  refine ⟨_, ends_both (Within.forM fun _ => ⟨by simp, trivial⟩) (Within.forM fun _ => ⟨by simp, trivial⟩), ?_⟩
  rw [alone_insertDriven, alone_insertValues, insertAll_entries, keys_entries]
  rfl

theorem ends_tickTask (order : Iteration) :
    ∃ d', ends ∅ (tickTask F order) d = (.done (), d') ∧ agentOf d' = (agentOf d).tickTask F := by
  refine ⟨_, ends_both (p := .done ()) trivial (within_tick (by simp) (by simp) order), ?_⟩
  show agentOf (alone (tick F order) d).2 = _
  rw [alone_tick]
  rfl

/-- The readings are a section of their own; storing them is another. -/
theorem ends_follow (load : PduLoad F) (nodeW : F) (order : Iteration) :
    ends ∅ (follow load nodeW order) d = (store order (Snmp.readings load nodeW (d .values)), d) := by
  refine (ends_bind (within_readings (by simp) load nodeW) _ d).trans ?_
  exact ends_release_last (by decide) _ _

/-! ### Readers -/

theorem asking_lookupFor (isGetNext : Bool) (reqOid : Oid) : Asking (lookupFor isGetNext reqOid) := by
  unfold lookupFor
  cases isGetNext with
  | false => exact fun _ => trivial
  | true =>
    intro next
    cases next with
    | none => trivial
    | some next => exact fun _ => trivial

variable [OidRule]

theorem answer_eq_respond (values : Values) (isGetNext : Bool) (vb : VarBind) :
    answer values isGetNext vb = respond isGetNext (Snmp.lookupFor values isGetNext vb.name.arcs) := rfl

theorem alone_responseVars (isGetNext : Bool) (vbs : List VarBind) : alone (responseVars isGetNext vbs) d =
    (vbs.mapM (answer (d .values) isGetNext), d) := by
  induction vbs with
  | nil => rfl
  | cons vb vbs ih =>
    refine (alone_bind (lookupFor isGetNext vb.name.arcs) _ d).trans ?_
    rw [alone_lookupFor, List.mapM_cons, answer_eq_respond]
    dsimp only
    cases respond isGetNext (Snmp.lookupFor (d .values) isGetNext vb.name.arcs) with
    | error panic => rfl
    | ok var =>
      refine (alone_bind (responseVars isGetNext vbs) _ d).trans ?_
      rw [ih]
      dsimp only
      cases vbs.mapM (answer (d .values) isGetNext) <;> rfl

theorem asking_responseVars (isGetNext : Bool) (vbs : List VarBind) : Asking (responseVars isGetNext vbs) := by
  induction vbs with
  | nil => trivial
  | cons vb vbs ih =>
    refine (asking_lookupFor isGetNext vb.name.arcs).bind fun found => ?_
    cases respond isGetNext found with
    | error panic => trivial
    | ok var => exact ih.bind fun _ => trivial

theorem reader_buildResponse {R : Type} (request : Pdu) (isGetNext : Bool) {f : Except Panic Pdu → Task R}
    (hf : ∀ r, Reader false (f r)) : Reader true ((buildResponse request isGetNext).bind f) := by
  refine ⟨rfl, ?_⟩
  have hassoc := Prog.bind_assoc (responseVars isGetNext request.variableBindings) (fun vars => .release .values
    (.done (vars.map fun bindings => ({ requestId := request.requestId, errorStatus := 0, errorIndex := 0,
                                        variableBindings := bindings } : Pdu)))) f
  refine cast (congrArg (Reader true) hassoc.symm) ?_
  exact (asking_responseVars isGetNext request.variableBindings).reader_bind fun vars => hf _

theorem reader_handleDatagram (codec : V2cCodec) (datagram : Bytes) : Reader true (handleDatagram codec datagram) := by
  rcases handleDatagram_cases codec datagram with ⟨r, h⟩ | ⟨req, isGetNext, f, h⟩
  · rw [h]
    trivial
  · rw [h]
    exact reader_buildResponse req isGetNext fun _ => trivial

theorem Guarded.reader {p : Task (Except Panic (Option Bytes))} (h : Guarded p) : Reader true p := by
  cases h with
  | drop r => trivial
  | serve req isGetNext f => exact reader_buildResponse req isGetNext fun _ => trivial

theorem reader_handleV3Datagram (codec : V3Codec) (crypto : Crypto) (datagram : Bytes) (env : Surroundings) :
    Reader true (handleV3Datagram codec crypto datagram env) := by
  rcases handleV3Datagram_cases codec crypto datagram env with ⟨r, h⟩ | ⟨guarded, h, hguarded⟩
  · rw [h]
    trivial
  · rw [h]
    exact ⟨rfl, fun s => (hguarded s).reader⟩

theorem alone_buildResponse (request : Pdu) (isGetNext : Bool) :
    alone (buildResponse request isGetNext) d = (Snmp.buildResponse request (d .values) isGetNext, d) := by
  refine (alone_bind (responseVars isGetNext request.variableBindings) _ d).trans ?_
  rw [alone_responseVars]
  unfold Snmp.buildResponse
  dsimp only
  cases request.variableBindings.mapM (answer (d .values) isGetNext) <;> rfl

/-- Alone, the task of a v2c datagram answers as `handle_datagram` does. -/
theorem alone_handleDatagram (codec : V2cCodec) (datagram : Bytes) :
    alone (handleDatagram codec datagram) d = (Snmp.handleDatagram codec datagram (d .values), d) := by
  unfold handleDatagram Snmp.handleDatagram
  cases codec.decode datagram with
  | none => rfl
  | some message =>
    dsimp only
    have hreply : ∀ req isGetNext, alone ((buildResponse req isGetNext).bind fun r =>
          .done (r.map fun responsePdu => codec.encode { version := message.version, community := message.community,
                                                          data := .response responsePdu })) d =
        ((do
          let responsePdu ← Snmp.buildResponse req (d .values) isGetNext
          return codec.encode { version := message.version, community := message.community
                                data := .response responsePdu }), d) := by
      intro req isGetNext
      rw [alone_bind, alone_buildResponse]
      dsimp only
      cases Snmp.buildResponse req (d .values) isGetNext <;> rfl
    cases message.data <;> first
      | exact hreply ..
      | rfl

section

variable (codec : V3Codec) (crypto : Crypto)

/-- Admission and service of `handle_v3_datagram`'s authenticated path. -/
theorem authenticatedPath_eq (datagram : Bytes) (message : Message) (usmParams : USMSecurityParameters) (s : AgentState)
    (env : Surroundings) (values : Values) :
    Snmp.authenticatedPath codec crypto datagram message usmParams s env values = (do
      match ← authenticate codec crypto datagram message usmParams s with
      | none => return none
      | some (user, scopedPdu) =>
        match ← dispatch values scopedPdu.data with
        | none => return none
        | some responsePdu =>
          some <$> buildAuthenticatedReply codec crypto message user s env
            { engineId := s.engineId, name := scopedPdu.name, data := .response responsePdu } message.wantPriv) := by
  have hserve : ∀ user, serveRequest codec crypto message usmParams user s env values = (do
      match ← (do return (← openScoped codec crypto message usmParams user).map fun scopedPdu => (user, scopedPdu)) with
      | none => return none
      | some (user, scopedPdu) =>
        match ← dispatch values scopedPdu.data with
        | none => return none
        | some responsePdu =>
          some <$> buildAuthenticatedReply codec crypto message user s env
            { engineId := s.engineId, name := scopedPdu.name, data := .response responsePdu } message.wantPriv) := by
    intro user
    unfold serveRequest
    rcases openScoped codec crypto message usmParams user with panic | _ | scopedPdu <;> rfl
  unfold Snmp.authenticatedPath authenticate
  by_cases hengine : usmParams.authoritativeEngineId ≠ s.engineId
  · rw [if_pos hengine, if_pos hengine]
    rfl
  · rw [if_neg hengine, if_neg hengine]
    cases s.findUser usmParams.userName with
    | none => rfl
    | some user =>
      cases message.wantAuth with
      | false =>
        simp only [Bool.false_eq_true, if_false]
        exact hserve user
      | true =>
        rcases hverify : verifyHmac crypto datagram usmParams user.authKey with panic | _ | _
        · simp only [hverify]
          rfl
        · simp only [hverify]
          rfl
        · simp only [hverify, if_true]
          exact hserve user

theorem alone_serve (message : Message) (user : UsmUser) (scopedPdu : ScopedPdu) (s : AgentState) (env : Surroundings)
    (req : Pdu) (isGetNext : Bool) : alone (serve codec crypto message user scopedPdu s env req isGetNext) d =
      ((Snmp.buildResponse req (d .values) isGetNext).bind fun responsePdu =>
        some <$> buildAuthenticatedReply codec crypto message user s env
          { engineId := s.engineId, name := scopedPdu.name, data := .response responsePdu } message.wantPriv, d) := by
  refine (alone_bind (buildResponse req isGetNext) _ d).trans ?_
  rw [alone_buildResponse]
  rfl

theorem alone_authenticatedPath (datagram : Bytes) (message : Message) (usmParams : USMSecurityParameters)
    (env : Surroundings) : alone (authenticatedPath codec crypto datagram message usmParams env) d =
      (Snmp.authenticatedPath codec crypto datagram message usmParams (d .agentState) env (d .values), d) := by
  rw [authenticatedPath_eq]
  have hstate : alone agentState d = (d .agentState, d) := rfl
  refine (alone_bind (lock .agentState) _ d).trans ((alone_bind agentState _ d).trans ?_)
  rw [hstate]
  dsimp only
  rcases authenticate codec crypto datagram message usmParams (d .agentState) with
    panic | _ | ⟨user, engineId, name, pdus⟩
  · rfl
  · rfl
  · dsimp only
    have hdispatch : ∀ scopedPdu req isGetNext,
        alone (serve codec crypto message user scopedPdu (d .agentState) env req isGetNext) d =
        ((do
          match ← some <$> Snmp.buildResponse req (d .values) isGetNext with
          | none => return none
          | some responsePdu =>
            some <$> buildAuthenticatedReply codec crypto message user (d .agentState) env
              { engineId := (d .agentState).engineId, name := scopedPdu.name, data := .response responsePdu }
              message.wantPriv), d) := by
      intro scopedPdu req isGetNext
      rw [alone_serve]
      cases Snmp.buildResponse req (d .values) isGetNext <;> rfl
    cases pdus <;> first
      | exact hdispatch ..
      | rfl

/-- Alone, the task of a v3 datagram answers as `handle_v3_datagram` does. -/
theorem alone_handleV3Datagram (datagram : Bytes) (env : Surroundings) :
    alone (handleV3Datagram codec crypto datagram env) d =
      (Snmp.handleV3Datagram codec crypto datagram (d .agentState) env (d .values), d) := by
  unfold handleV3Datagram Snmp.handleV3Datagram
  cases codec.decodeMessage datagram with
  | none => rfl
  | some message =>
    dsimp only
    cases codec.decodeUsm message.securityParameters with
    | none => rfl
    | some usmParams =>
      dsimp only
      by_cases hdiscovery : usmParams.authoritativeEngineId = []
      · rw [if_pos hdiscovery, if_pos hdiscovery]
        rfl
      · rw [if_neg hdiscovery, if_neg hdiscovery]
        exact alone_authenticatedPath ..

end

end Task

end EmsFixtures.Snmp
