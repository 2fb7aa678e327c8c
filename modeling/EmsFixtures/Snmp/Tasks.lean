import EmsFixtures.Lib.TwoPhase
import EmsFixtures.Snmp.Readings
import EmsFixtures.Snmp.V3

/-!
# The tasks of the agent

The tasks that `main.rs` spawns, over the three async mutexes.  A guard is a lock and an unlock: a named guard is given
back at the end of its block, a temporary at the end of its statement, and unwinding gives back what is held.  Whatever
the tasks and however their steps interleave, none of them wait for each other in a circle (`tasks_never_deadlock`).
-/

namespace EmsFixtures.Snmp

open Locks HashMap Panics Runs

/-! ### The shared state -/

/-- The mutexes, in the order in which they are taken. -/
inductive Lock where
  | agentState
  | driven
  | values

namespace Lock

def rank : Lock → ℕ
  | agentState => 0
  | driven => 1
  | values => 2

theorem rank_injective : Function.Injective rank := by
  intro l m h
  cases l <;> cases m <;> first | rfl | cases h

instance instLinearOrder : LinearOrder Lock := LinearOrder.lift' rank rank_injective

theorem agentState_lt_values : agentState < values := by decide

theorem driven_lt_values : driven < values := by decide

instance instFintype : Fintype Lock where
  elems := {agentState, driven, values}
  complete l := by cases l <;> simp

end Lock

/-- The lookups of the value map: a key, or the next key above one. -/
inductive ValuesQuery where
  | get (oid : Oid)
  | next (reqOid : Oid)

abbrev shared : Shared Lock where
  Data
    | .agentState => AgentState
    | .driven => Finset Oid
    | .values => Values
  Query
    | .agentState => Unit
    | .driven => Oid
    | .values => ValuesQuery
  Answer
    | .agentState, _ => AgentState
    | .driven, _ => Bool
    | .values, .get _ => Option Int64
    | .values, .next _ => Option Oid
  ask
    | .agentState, _, s => s
    | .driven, oid, driven => decide (oid ∈ driven)
    | .values, .get oid, values => values.lookup oid
    | .values, .next reqOid, values => nextOid values reqOid
  Write
    | .agentState => Empty
    | .driven => Oid
    | .values => Oid × Int64
  apply
    | .agentState, _, s => s
    | .driven, oid, driven => insert oid driven
    | .values, e, values => values.insert e.1 e.2

abbrev Task := Prog shared

namespace Task

def agentState : Task AgentState := .ask .agentState () .done

def isDriven (oid : Oid) : Task Bool := .ask .driven oid .done

def getValue (oid : Oid) : Task (Option Int64) := .ask .values (.get oid) .done

def nextKey (reqOid : Oid) : Task (Option Oid) := .ask .values (.next reqOid) .done

def insertValue (oid : Oid) (value : Int64) : Task Unit := .write .values (oid, value) (.done ())

def insertDriven (oid : Oid) : Task Unit := .write .driven oid (.done ())

/-! ### Writers -/

/-- The entries of a hash map in the order it yields them. -/
structure Iteration where
  entries : Values → List (Oid × Int64)
  nodup : ∀ m, ((entries m).map Prod.fst).Nodup
  mem_iff : ∀ m k v, (k, v) ∈ entries m ↔ m.lookup k = some v

theorem Iteration.nonempty : Nonempty Iteration := by
  refine ⟨⟨fun m => m.keys.toList.map fun k => (k, (m.lookup k).getD 0), fun m => ?_, fun m k v => ?_⟩⟩
  · have hkeys : (m.keys.toList.map fun k => (k, (m.lookup k).getD 0)).map Prod.fst = m.keys.toList := by
      rw [List.map_map]
      exact List.map_id _
    rw [hkeys]
    exact m.keys.nodup_toList
  · rw [List.mem_map]
    constructor
    · rintro ⟨k', hk', he⟩
      obtain ⟨v', hv'⟩ := Finmap.mem_iff.1 (Finmap.mem_keys.1 (Finset.mem_toList.1 hk'))
      rw [hv'] at he
      cases he
      exact hv'
    · intro hv
      refine ⟨k, Finset.mem_toList.2 (Finmap.mem_keys.2 (mem_of_lookup hv)), ?_⟩
      rw [hv]
      rfl

def putOids (body : SetOids) : Task StatusCode :=
  match parseBody body with
  | none => pure .unprocessableEntity
  | some parsed => do
    lock .driven
    lock .values
    parsed.forM fun e => do
      insertValue e.1 e.2
      insertDriven e.1
    unlock .values
    unlock .driven
    pure .noContent

/-- Mark `next`'s OIDs driven and store them. -/
def store (order : Iteration) (next : Values) : Task Unit := do
  lock .driven
  (order.entries next).forM fun e => insertDriven e.1
  lock .values
  (order.entries next).forM fun e => insertValue e.1 e.2
  unlock .values
  unlock .driven

section

variable {F : Type} [F64 F]

/-- `readings` on the map behind the lock. -/
def readings (load : PduLoad F) (nodeW : F) : Task Values := do
  let powerW := powerOf load nodeW
  let out := HashMap.ofList [(sentry4 3 [], F64.toI64 (F64.round powerW))]
  let out ← phases.foldlM (fun out phase => do
    let volts ← getValue (sentry4 5 [phase])
    pure (out.insert (sentry4 4 [phase]) (currentAt powerW (volts.getD 2400)))) out
  pure (out.extend (mirror F out))

/-- One iteration of the load-follow loop; the guard of `readings` is a temporary. -/
def follow (load : PduLoad F) (nodeW : F) (order : Iteration) : Task Unit := do
  lock .values
  let next ← readings load nodeW
  unlock .values
  store order next

end

def tickOne (sim : IntSawtooth) : Task Unit := do
  if ← isDriven sim.oid then pure ()
  else
    let cur := (← getValue sim.oid).getD sim.min
    insertValue sim.oid (if cur + sim.step > sim.max then sim.min else cur + sim.step)

/-- `mirror` of the map behind the lock. -/
def mirror (F : Type) [F64 F] : Task Values := do
  let out := insertSome ∅ inletPower (← getValue (sentry4 3 []))
  phases.foldlM (fun out p => do
    let out := out.insertSome (pole p rmsCurrent) ((← getValue (sentry4 4 [p])).map (· * 10))
    pure (out.insertSome (pole p rmsVoltage) ((← getValue (sentry4 5 [p])).map (lineVolts F)))) out

/-- The simulator, then the PDU2-MIB view of the drifted map. -/
def tick (F : Type) [F64 F] (order : Iteration) : Task Unit := do
  Simulator.saws.forM tickOne
  let mirrored ← mirror F
  (order.entries mirrored).forM fun e => insertValue e.1 e.2

/-- One iteration of the tick task. -/
def tickTask (F : Type) [F64 F] (order : Iteration) : Task Unit := do
  lock .driven
  lock .values
  tick F order
  unlock .values
  unlock .driven

/-! ### Readers -/

section

variable [OidRule]

/-- `lookupFor` on the map behind the lock. -/
def lookupFor (isGetNext : Bool) (reqOid : Oid) : Task (Oid × Option Int64) := do
  if isGetNext then
    match ← nextKey reqOid with
    | some next => pure (next, ← getValue next)
    | none => pure (reqOid, none)
  else pure (reqOid, ← getValue reqOid)

/-- The varbind that carries what was looked up. -/
def respond (isGetNext : Bool) (found : Oid × Option Int64) : Except Panic VarBind := do
  let oid ← expect "non-empty OID" (ObjectIdentifier.new found.1)
  let value := match found.2 with
    | some v => .value (.integer v.toInt32.toInt)
    | none => if isGetNext then .endOfMibView else .noSuchInstance
  pure { name := oid, value }

def responseVars (isGetNext : Bool) : List VarBind → Task (Except Panic (List VarBind))
  | [] => pure (.ok [])
  | vb :: vbs => do
    match respond isGetNext (← lookupFor isGetNext vb.name.arcs) with
    | .error panic => pure (.error panic)
    | .ok var => return (← responseVars isGetNext vbs).map (var :: ·)

def buildResponse (request : Pdu) (isGetNext : Bool) : Task (Except Panic Pdu) := do
  lock .values
  let vars ← responseVars isGetNext request.variableBindings
  unlock .values
  pure (vars.map fun variableBindings =>
    { requestId := request.requestId, errorStatus := 0, errorIndex := 0, variableBindings })

def handleDatagram (codec : V2cCodec) (datagram : Bytes) : Task (Except Panic (Option Bytes)) :=
  match codec.decode datagram with
  | none => pure (.ok none)
  | some message =>
    let reply (responsePdu : Pdu) : Option Bytes :=
      codec.encode { version := message.version, community := message.community, data := .response responsePdu }
    match message.data with
    | .getRequest req => do return (← buildResponse req false).map reply
    | .getNextRequest req => do return (← buildResponse req true).map reply
    | _ => pure (.ok none)

variable (codec : V3Codec) (crypto : Crypto)

/-- Whom the authenticated path serves, and the scoped PDU it opens. -/
def authenticate (datagram : Bytes) (message : Message) (usmParams : USMSecurityParameters) (s : AgentState) :
    Except Panic (Option (UsmUser × ScopedPdu)) := do
  if usmParams.authoritativeEngineId ≠ s.engineId then return none
  match s.findUser usmParams.userName with
  | none => return none
  | some user =>
    if message.wantAuth then
      if !(← verifyHmac crypto datagram usmParams user.authKey) then return none
    return (← openScoped codec crypto message usmParams user).map fun scopedPdu => (user, scopedPdu)

/-- The response to an admitted request; the guard of the agent's state is held until the reply is built. -/
def serve (message : Message) (user : UsmUser) (scopedPdu : ScopedPdu) (s : AgentState) (env : Surroundings) (req : Pdu)
    (isGetNext : Bool) : Task (Except Panic (Option Bytes)) := do
  let response ← buildResponse req isGetNext
  unlock .agentState
  pure (response.bind fun responsePdu =>
    some <$> buildAuthenticatedReply codec crypto message user s env
      { engineId := s.engineId, name := scopedPdu.name, data := .response responsePdu } message.wantPriv)

def authenticatedPath (datagram : Bytes) (message : Message) (usmParams : USMSecurityParameters) (env : Surroundings) :
    Task (Except Panic (Option Bytes)) := do
  lock .agentState
  let s ← agentState
  let drop (reply : Except Panic (Option Bytes)) : Task (Except Panic (Option Bytes)) := do
    unlock .agentState
    pure reply
  match authenticate codec crypto datagram message usmParams s with
  | .error panic => drop (.error panic)
  | .ok none => drop (.ok none)
  | .ok (some (user, scopedPdu)) => match scopedPdu.data with
    | .getRequest req => serve codec crypto message user scopedPdu s env req false
    | .getNextRequest req => serve codec crypto message user scopedPdu s env req true
    | _ => drop (.ok none)

def discovery (message : Message) (usmParams : USMSecurityParameters) (env : Surroundings) :
    Task (Except Panic (Option Bytes)) := do
  lock .agentState
  let s ← agentState
  unlock .agentState
  pure (some <$> buildDiscoveryReport codec message usmParams s env)

def handleV3Datagram (datagram : Bytes) (env : Surroundings) : Task (Except Panic (Option Bytes)) :=
  match codec.decodeMessage datagram with
  | none => pure (.ok none)
  | some message =>
    match codec.decodeUsm message.securityParameters with
    | none => pure (.ok none)
    | some usmParams =>
      if usmParams.authoritativeEngineId = [] then discovery codec message usmParams env
      else authenticatedPath codec crypto datagram message usmParams env

end

end Task

/-! ### The agent's tasks -/

/-- What a task ends in. -/
inductive Outcome where
  | finished
  | status (code : StatusCode)
  | reply (reply : Except Panic (Option Bytes))

/-- What the agent spawns a task for, or runs one more iteration of a background task for. -/
inductive Job (F : Type) where
  | putOids (body : SetOids)
  | follow (load : PduLoad F) (nodeW : F) (order : Task.Iteration)
  | tickTask (order : Task.Iteration)
  | datagram (datagram : Bytes)
  | v3Datagram (datagram : Bytes) (env : Surroundings)

/-- The libraries the agent is built over. -/
structure Libraries [OidRule] where
  v2c : V2cCodec
  v3 : V3Codec
  crypto : Crypto

variable {F : Type} [F64 F]

def Job.task [OidRule] (lib : Libraries) : Job F → Task Outcome
  | putOids body => do return .status (← Task.putOids body)
  | follow load nodeW order => do
    Task.follow load nodeW order
    pure .finished
  | tickTask order => do
    Task.tickTask F order
    pure .finished
  | datagram bytes => do return .reply (← Task.handleDatagram lib.v2c bytes)
  | v3Datagram bytes env => do return .reply (← Task.handleV3Datagram lib.v3 lib.crypto bytes env)

/-! ### The shapes of the readers -/

namespace Task

variable [OidRule]

theorem handleDatagram_cases (codec : V2cCodec) (datagram : Bytes) :
    (∃ r, handleDatagram codec datagram = .done r) ∨
      ∃ req isGetNext, ∃ f : Except Panic Pdu → Except Panic (Option Bytes),
        handleDatagram codec datagram = (buildResponse req isGetNext).bind fun r => .done (f r) := by
  unfold handleDatagram
  cases codec.decode datagram with
  | none => exact Or.inl ⟨_, rfl⟩
  | some message =>
    dsimp only
    cases message.data <;> first
      | exact Or.inr ⟨_, _, _, rfl⟩
      | exact Or.inl ⟨_, rfl⟩

/-- What is done under the guard of the agent's state: nothing, or one response. -/
inductive Guarded : Task (Except Panic (Option Bytes)) → Prop
  | drop (r : Except Panic (Option Bytes)) : Guarded (.release .agentState (.done r))
  | serve (req : Pdu) (isGetNext : Bool) (f : Except Panic Pdu → Except Panic (Option Bytes)) :
      Guarded ((buildResponse req isGetNext).bind fun r => .release .agentState (.done (f r)))

theorem authenticatedPath_cases (codec : V3Codec) (crypto : Crypto) (datagram : Bytes) (message : Message)
    (usmParams : USMSecurityParameters) (env : Surroundings) : ∃ guarded,
      authenticatedPath codec crypto datagram message usmParams env =
        .acquire .agentState (.ask .agentState () guarded) ∧ ∀ s, Guarded (guarded s) := by
  refine ⟨_, rfl, fun s => ?_⟩
  dsimp only [Prog.bind]
  rcases authenticate codec crypto datagram message usmParams s with panic | _ | ⟨user, scopedPdu⟩
  · exact .drop _
  · exact .drop _
  · dsimp only
    cases scopedPdu.data <;> first
      | exact .serve ..
      | exact .drop _

theorem handleV3Datagram_cases (codec : V3Codec) (crypto : Crypto) (datagram : Bytes) (env : Surroundings) :
    (∃ r, handleV3Datagram codec crypto datagram env = .done r) ∨ ∃ guarded,
      handleV3Datagram codec crypto datagram env = .acquire .agentState (.ask .agentState () guarded) ∧
        ∀ s, Guarded (guarded s) := by
  unfold handleV3Datagram
  cases codec.decodeMessage datagram with
  | none => exact Or.inl ⟨_, rfl⟩
  | some message =>
    dsimp only
    cases codec.decodeUsm message.securityParameters with
    | none => exact Or.inl ⟨_, rfl⟩
    | some usmParams =>
      dsimp only
      split
      · exact Or.inr ⟨_, rfl, fun s => .drop _⟩
      · exact Or.inr (authenticatedPath_cases ..)

end Task

/-! ### The discipline -/

namespace Task

variable {held : Finset Lock}

theorem within_tickOne (hd : .driven ∈ held) (hv : .values ∈ held) (sim : IntSawtooth) : Within held (tickOne sim) := by
  refine ⟨hd, fun driven => ?_⟩
  cases driven with
  | true => trivial
  | false => exact ⟨hv, fun _ => ⟨hv, trivial⟩⟩

theorem within_mirror (hv : .values ∈ held) : Within held (mirror F) := by
  refine ⟨hv, fun _ => Within.foldlM fun out p => ?_⟩
  exact ⟨hv, fun _ => ⟨hv, fun _ => trivial⟩⟩

theorem within_readings (hv : .values ∈ held) (load : PduLoad F) (nodeW : F) : Within held (readings load nodeW) := by
  refine Within.bind (Within.foldlM fun out p => ?_) fun _ => trivial
  exact ⟨hv, fun _ => trivial⟩

theorem within_lookupFor (hv : .values ∈ held) (isGetNext : Bool) (reqOid : Oid) :
    Within held (lookupFor isGetNext reqOid) := by
  unfold lookupFor
  cases isGetNext with
  | true =>
    refine ⟨hv, fun next => ?_⟩
    cases next with
    | none => trivial
    | some next => exact ⟨hv, fun _ => trivial⟩
  | false => exact ⟨hv, fun _ => trivial⟩

theorem within_tick (hd : .driven ∈ held) (hv : .values ∈ held) (order : Iteration) : Within held (tick F order) := by
  refine (Within.forM fun sim => within_tickOne hd hv sim).bind fun _ => ?_
  exact (within_mirror hv).bind fun mirrored => Within.forM fun e => ⟨hv, trivial⟩

/-- The driven set and the value map, taken one after the other, touched, and given back the other way round. -/
theorem follows_both {R : Type} {p q : Task Unit} {r : R} (hp : Within {.driven} p)
    (hq : Within {.values, .driven} q) : Follows true ∅ (.acquire .driven (p.bind fun _ => .acquire .values
      (q.bind fun _ => .release .values (.release .driven (.done r))))) := by
  refine ⟨rfl, by simp, ?_⟩
  apply Within.follows_bind hp
  intro _
  refine ⟨rfl, by simp [Lock.driven_lt_values], ?_⟩
  apply Within.follows_bind hq
  intro _
  have hrest : ({.values, .driven} : Finset Lock).erase .values = {.driven} := by decide
  refine Follows.release_of (by simp) hrest ?_
  exact Follows.release_of (by simp) (by decide) rfl

theorem follows_putOids (body : SetOids) : Follows true ∅ (putOids body) := by
  unfold putOids
  cases parseBody body with
  | none => rfl
  | some parsed =>
    refine follows_both (p := .done ()) trivial (Within.forM fun e => ?_)
    exact ⟨by simp, by simp, trivial⟩

theorem follows_store (order : Iteration) (next : Values) : Follows true ∅ (store order next) :=
  follows_both (Within.forM fun _ => ⟨by simp, trivial⟩) (Within.forM fun _ => ⟨by simp, trivial⟩)

theorem follows_tickTask (order : Iteration) : Follows true ∅ (tickTask F order) :=
  follows_both (p := .done ()) trivial (within_tick (by simp) (by simp) order)

theorem follows_follow (load : PduLoad F) (nodeW : F) (order : Iteration) :
    Follows true ∅ (follow load nodeW order) := by
  refine ⟨rfl, by simp, ?_⟩
  apply Within.follows_bind (within_readings (by simp) load nodeW)
  intro next
  have hrest : ({.values} : Finset Lock).erase .values = ∅ := by decide
  refine Follows.release_of (by simp) hrest ?_
  exact follows_store order next

variable [OidRule]

theorem within_responseVars (hv : .values ∈ held) (isGetNext : Bool) (vbs : List VarBind) :
    Within held (responseVars isGetNext vbs) := by
  induction vbs with
  | nil => trivial
  | cons vb vbs ih =>
    refine (within_lookupFor hv isGetNext vb.name.arcs).bind fun found => ?_
    cases respond isGetNext found with
    | error panic => trivial
    | ok var => exact ih.bind fun _ => trivial

/-- A response takes the value map over whatever is held, and gives it back before the task goes on. -/
theorem follows_buildResponse {R : Type} (hlt : ∀ l ∈ held, l < .values) (request : Pdu) (isGetNext : Bool)
    {f : Except Panic Pdu → Task R} (hf : ∀ r, Follows (decide (held = ∅)) held (f r)) :
    Follows true held ((buildResponse request isGetNext).bind f) := by
  have hnot : .values ∉ held := fun h => lt_irrefl _ (hlt _ h)
  have hbind : (buildResponse request isGetNext).bind f = .acquire .values
      ((responseVars isGetNext request.variableBindings).bind fun vars => .release .values (f (vars.map fun bindings =>
        { requestId := request.requestId, errorStatus := 0, errorIndex := 0, variableBindings := bindings }))) := by
    have hassoc := Prog.bind_assoc (responseVars isGetNext request.variableBindings) (fun vars => .release .values
      (.done (vars.map fun bindings => ({ requestId := request.requestId, errorStatus := 0, errorIndex := 0,
                                          variableBindings := bindings } : Pdu)))) f
    exact congrArg (Prog.acquire _) hassoc
  rw [hbind]
  refine ⟨rfl, hlt, ?_⟩
  apply Within.follows_bind (within_responseVars (Finset.mem_insert_self ..) _ _)
  intro vars
  exact Follows.release_of (Finset.mem_insert_self ..) (Finset.erase_insert hnot) (hf _)

theorem follows_handleDatagram (codec : V2cCodec) (datagram : Bytes) :
    Follows true ∅ (handleDatagram codec datagram) := by
  rcases handleDatagram_cases codec datagram with ⟨r, h⟩ | ⟨req, isGetNext, f, h⟩
  · rw [h]
    rfl
  · rw [h]
    exact follows_buildResponse (by simp) req isGetNext fun _ => rfl

theorem Guarded.follows {p : Task (Except Panic (Option Bytes))} (h : Guarded p) : Follows true {.agentState} p := by
  have hdrop : ∀ (growing : Bool) (r : Except Panic (Option Bytes)),
      Follows growing {.agentState} (.release .agentState (.done r) : Task _) :=
    fun growing r => Follows.release_of (by simp) (by decide) rfl
  cases h with
  | drop r => exact hdrop true r
  | serve req isGetNext f =>
    apply follows_buildResponse (by simp [Lock.agentState_lt_values])
    intro r
    exact hdrop _ (f r)

theorem follows_handleV3Datagram (codec : V3Codec) (crypto : Crypto) (datagram : Bytes) (env : Surroundings) :
    Follows true ∅ (handleV3Datagram codec crypto datagram env) := by
  rcases handleV3Datagram_cases codec crypto datagram env with ⟨r, h⟩ | ⟨guarded, h, hguarded⟩
  · rw [h]
    rfl
  · rw [h]
    exact ⟨rfl, by simp, by simp, fun s => (hguarded s).follows⟩

end Task

theorem Job.follows [OidRule] (lib : Libraries) (job : Job F) : Follows true ∅ (job.task lib) := by
  cases job with
  | putOids body => exact (Task.follows_putOids body).map _
  | follow load nodeW order => exact (Task.follows_follow load nodeW order).map _
  | tickTask order => exact (Task.follows_tickTask order).map _
  | datagram bytes => exact (Task.follows_handleDatagram lib.v2c bytes).map _
  | v3Datagram bytes env => exact (Task.follows_handleV3Datagram lib.v3 lib.crypto bytes env).map _

/-- The agent with a task for each job, before any has acted. -/
def agentStart [OidRule] {ι : Type} (lib : Libraries) (data : shared.AllData) (jobs : ι → Job F) :
    State shared ι Outcome :=
  State.start data fun i => (jobs i).task lib

/-- Whatever the jobs and however their tasks' steps interleave, no set of tasks waits for locks it holds itself. -/
theorem tasks_never_deadlock [OidRule] {ι : Type} [DecidableEq ι] (lib : Libraries) (data : shared.AllData)
    (jobs : ι → Job F) (labels : List (ι × Action shared)) (s : State shared ι Outcome)
    (h : Run Step (agentStart lib data jobs) labels s) (tasks : Set ι) : ¬ s.Deadlocked tasks :=
  ((Disciplined.start fun i => (jobs i).follows lib).run h).no_deadlock tasks

/-- No codec decodes anything. -/
def deafLibraries : Libraries where
  v2c := { decode := fun _ => none, encode := fun _ => none }
  v3 := { decodeMessage := fun _ => none, decodeUsm := fun _ => none, decodeScoped := fun _ => none
          encodeMessage := fun _ => none, encodeUsm := fun _ => none, encodeScoped := fun _ => none }
  crypto := { hmacSha256 := fun _ _ => List.replicate 32 0, length_hmacSha256 := fun _ _ => rfl
              cfbDecrypt := fun _ _ ct => ct, cfbEncrypt := fun _ _ pt => pt }

def emptyAgent : shared.AllData
  | .agentState => { engineId := [], engineBoots := 1, users := ∅ }
  | .driven => ∅
  | .values => ∅

/-- Two PUTs of which one waits for the other. -/
theorem tasks_never_deadlock_puts : ∃ s, Run Step
    (agentStart deafLibraries emptyAgent fun _ : Bool => (.putOids [("1.3", 5)] : Job ℚ))
    [(false, .acquire .driven), (false, .acquire .values)] s ∧ s.WaitsFor true false ∧ ¬ s.Deadlocked Set.univ := by
  obtain ⟨next, hnext⟩ : ∃ next, (Job.putOids [("1.3", 5)] : Job ℚ).task deafLibraries = .acquire .driven
      (.acquire .values next) := ⟨_, rfl⟩
  obtain ⟨s, hs, hwaits⟩ : ∃ s, Run Step
      (agentStart deafLibraries emptyAgent fun _ : Bool => (.putOids [("1.3", 5)] : Job ℚ))
      [(false, .acquire .driven), (false, .acquire .values)] s ∧ s.WaitsFor true false :=
    ⟨_, Run.cons (.acquire hnext rfl) (Run.cons (.acquire rfl rfl) (Run.nil _)), .driven, .acquire .values next, hnext,
      rfl⟩
  exact ⟨s, hs, hwaits, tasks_never_deadlock deafLibraries emptyAgent _ _ s hs Set.univ⟩

end EmsFixtures.Snmp
