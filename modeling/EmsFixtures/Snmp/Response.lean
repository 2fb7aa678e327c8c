import EmsFixtures.Lib.Panic
import EmsFixtures.Snmp.Agent

/-!
# Responses

The PDUs of the SNMP library and `build_response` of `main.rs`.  Each varbind is answered by itself: with the key a
request names (`named`), provided the library accepts that key as an OID, else the response panics
(`answer_of_named`).
-/

namespace EmsFixtures.Snmp

open HashMap Panics

abbrev Bytes := List UInt8

variable [OidRule]

/-! ### The PDUs -/

/-- `rasn_smi::v2::ObjectSyntax`; the syntaxes other than an integer only pass through. -/
inductive ObjectSyntax where
  | integer (value : ℤ)
  | other (encoding : Bytes)
  deriving DecidableEq

inductive VarBindValue where
  | value (syn : ObjectSyntax)
  | unspecified
  | noSuchObject
  | noSuchInstance
  | endOfMibView
  deriving DecidableEq

structure VarBind where
  name : ObjectIdentifier
  value : VarBindValue
  deriving DecidableEq

structure Pdu where
  requestId : Int32
  errorStatus : UInt32
  errorIndex : UInt32
  variableBindings : List VarBind
  deriving DecidableEq

structure BulkPdu where
  requestId : Int32
  nonRepeaters : UInt32
  maxRepetitions : UInt32
  variableBindings : List VarBind
  deriving DecidableEq

inductive Pdus where
  | getRequest (pdu : Pdu)
  | getNextRequest (pdu : Pdu)
  | response (pdu : Pdu)
  | setRequest (pdu : Pdu)
  | getBulkRequest (pdu : BulkPdu)
  | informRequest (pdu : Pdu)
  | trap (pdu : Pdu)
  | report (pdu : Pdu)
  deriving DecidableEq

/-! ### `build_response` -/

/-- The OID and value that answer a request for `reqOid`. -/
def lookupFor (values : Values) (isGetNext : Bool) (reqOid : Oid) : Oid × Option Int64 :=
  if isGetNext then
    match nextOid values reqOid with
    | some next => (next, values.lookup next)
    | none => (reqOid, none)
  else (reqOid, values.lookup reqOid)

def answer (values : Values) (isGetNext : Bool) (vb : VarBind) : Except Panic VarBind := do
  let (respOid, respValue) := lookupFor values isGetNext vb.name.arcs
  let oid ← expect "non-empty OID" (ObjectIdentifier.new respOid)
  let value := match respValue with
    | some v => .value (.integer v.toInt32.toInt) -- `v as i32`
    | none => if isGetNext then .endOfMibView else .noSuchInstance
  pure { name := oid, value }

/-- For a GetRequest, the exact OID's value; for a GetNextRequest, the lexicographic-next OID's. -/
def buildResponse (request : Pdu) (values : Values) (isGetNext : Bool) : Except Panic Pdu := do
  let responseVars ← request.variableBindings.mapM (answer values isGetNext)
  pure { requestId := request.requestId, errorStatus := 0, errorIndex := 0, variableBindings := responseVars }

structure V2cMessage where
  version : ℤ
  community : Bytes
  data : Pdus
  deriving DecidableEq

structure V2cCodec where
  decode : Bytes → Option V2cMessage
  encode : V2cMessage → Option Bytes

/-- The value of a binding of a request, or one `build_response` gives. -/
def VarBindValue.Plain : VarBindValue → Prop
  | .value (.integer v) => -2 ^ 31 ≤ v ∧ v < 2 ^ 31
  | .value (.other _) => False
  | _ => True

/-- A request or response whose names BER can carry. -/
def Pdus.Carried : Pdus → Prop
  | .getRequest pdu | .getNextRequest pdu | .response pdu => pdu.errorStatus = 0 ∧ pdu.errorIndex = 0 ∧
      ∀ vb ∈ pdu.variableBindings, Snmp.Carried vb.name.arcs ∧ vb.value.Plain
  | _ => False

structure V2cCodec.RoundTrips (codec : V2cCodec) : Prop where
  encode_isSome : ∀ message : V2cMessage, message.data.Carried → ∃ bytes, codec.encode message = some bytes
  decode_encode : ∀ (message : V2cMessage) (bytes : Bytes), message.data.Carried →
    codec.encode message = some bytes → codec.decode bytes = some message

/-- Decode a raw datagram, build a Response, encode it back to bytes; `none` is an `Err`. -/
def handleDatagram (codec : V2cCodec) (datagram : Bytes) (values : Values) : Except Panic (Option Bytes) := do
  match codec.decode datagram with
  | none => pure none
  | some message =>
    let reply (responsePdu : Pdu) : Option Bytes :=
      codec.encode { version := message.version, community := message.community, data := .response responsePdu }
    match message.data with
    | .getRequest req => return reply (← buildResponse req values false)
    | .getNextRequest req => return reply (← buildResponse req values true)
    | _ => pure none

/-! ### Answers -/

/-- The key of the map that a request for `reqOid` names. -/
def named (values : Values) (isGetNext : Bool) (reqOid : Oid) : Option Oid :=
  if isGetNext then nextOid values reqOid else if reqOid ∈ values then some reqOid else none

def sent (v : Int64) : VarBindValue := .value (.integer v.toInt32.toInt)

def missed (isGetNext : Bool) : VarBindValue := if isGetNext then .endOfMibView else .noSuchInstance

omit [OidRule] in
theorem mem_of_named {values : Values} {isGetNext : Bool} {reqOid k : Oid}
    (h : named values isGetNext reqOid = some k) : k ∈ values := by
  unfold named at h
  split at h
  · exact (nextOid_eq_some_iff.1 h).1
  · split at h
    · cases h; assumption
    · cases h

omit [OidRule] in
theorem lookupFor_of_named {values : Values} {isGetNext : Bool} {reqOid k : Oid}
    (h : named values isGetNext reqOid = some k) : lookupFor values isGetNext reqOid = (k, values.lookup k) := by
  unfold named at h
  unfold lookupFor
  cases isGetNext with
  | true => simp only [if_true] at h ⊢; rw [h]
  | false =>
    simp only [Bool.false_eq_true, if_false] at h ⊢
    split at h
    · cases h; rfl
    · cases h

omit [OidRule] in
theorem lookupFor_of_not_named {values : Values} {isGetNext : Bool} {reqOid : Oid}
    (h : named values isGetNext reqOid = none) : lookupFor values isGetNext reqOid = (reqOid, none) := by
  unfold named at h
  unfold lookupFor
  cases isGetNext with
  | true => simp only [if_true] at h ⊢; rw [h]
  | false =>
    simp only [Bool.false_eq_true, if_false] at h ⊢
    split at h
    · cases h
    · rw [Finmap.lookup_eq_none.2 ‹_›]

theorem answer_of_not_named {values : Values} {isGetNext : Bool} {vb : VarBind}
    (h : named values isGetNext vb.name.arcs = none) :
    answer values isGetNext vb = .ok { name := vb.name, value := missed isGetNext } := by
  unfold answer
  rw [lookupFor_of_not_named h]
  simp only [ObjectIdentifier.new_arcs]
  rfl

/-- A request that names the key `k` is answered with its value if `k` is a valid OID, and panics otherwise. -/
theorem answer_of_named {values : Values} {isGetNext : Bool} {vb : VarBind} {k : Oid} {v : Int64}
    (h : named values isGetNext vb.name.arcs = some k) (hv : values.lookup k = some v) :
    answer values isGetNext vb = if hk : IsValidOid k then .ok { name := ⟨k, hk⟩, value := sent v }
      else .error (.expect "non-empty OID") := by
  unfold answer
  rw [lookupFor_of_named h, hv]
  by_cases hk : IsValidOid k
  · simp only [ObjectIdentifier.new_of_valid hk, dif_pos hk]
    rfl
  · simp only [ObjectIdentifier.new_of_not_valid hk, dif_neg hk]
    rfl

theorem returns_answer_iff {values : Values} {isGetNext : Bool} {vb : VarBind} :
    Returns (answer values isGetNext vb) ↔ ∀ k, named values isGetNext vb.name.arcs = some k → IsValidOid k := by
  cases h : named values isGetNext vb.name.arcs with
  | none => rw [answer_of_not_named h]; simp
  | some k =>
    obtain ⟨v, hv⟩ := Finmap.mem_iff.1 (mem_of_named h)
    rw [answer_of_named h hv]
    by_cases hk : IsValidOid k <;> simp [hk]

theorem buildResponse_eq_ok_iff {request response : Pdu} {values : Values} {isGetNext : Bool} :
    buildResponse request values isGetNext = .ok response ↔
      request.variableBindings.mapM (answer values isGetNext) = .ok response.variableBindings ∧
        response = { requestId := request.requestId, errorStatus := 0, errorIndex := 0,
                     variableBindings := response.variableBindings } := by
  unfold buildResponse
  rw [bind_eq_ok_iff]
  constructor
  · intro h
    obtain ⟨vars, hvars, h⟩ := h
    cases h
    exact ⟨hvars, rfl⟩
  · intro h
    obtain ⟨hvars, h⟩ := h
    exact ⟨_, hvars, by rw [h]; rfl⟩

theorem returns_buildResponse_iff {request : Pdu} {values : Values} {isGetNext : Bool} :
    Returns (buildResponse request values isGetNext) ↔
      ∀ vb ∈ request.variableBindings, Returns (answer values isGetNext vb) := by
  constructor
  · rintro ⟨r, hr⟩ vb hvb
    exact returns_of_mapM ⟨_, (buildResponse_eq_ok_iff.1 hr).1⟩ hvb
  · intro h
    obtain ⟨vars, hvars⟩ := returns_mapM h
    exact returns_bind_iff.2 ⟨vars, hvars, returns_pure _⟩

/-- Over a map of valid OIDs every request is answered. -/
theorem returns_buildResponse {values : Values} (h : ∀ k ∈ values, IsValidOid k) (request : Pdu) (isGetNext : Bool) :
    Returns (buildResponse request values isGetNext) :=
  returns_buildResponse_iff.2 fun _ _ => returns_answer_iff.2 fun k hk => h k (mem_of_named hk)

def getOne (requestId : Int32) (oid : ObjectIdentifier) : Pdu :=
  { requestId, errorStatus := 0, errorIndex := 0, variableBindings := [{ name := oid, value := .unspecified }] }

def inputCurrent : ObjectIdentifier := ⟨oidInputCurrent, (computed_carried _ (by decide)).valid⟩

theorem buildResponse_getOne {requestId : Int32} {oid : ObjectIdentifier} {values : Values} {isGetNext : Bool} :
    buildResponse (getOne requestId oid) values isGetNext =
      (answer values isGetNext { name := oid, value := .unspecified }).map fun vb =>
        { requestId, errorStatus := 0, errorIndex := 0, variableBindings := [vb] } := by
  show ([_].mapM (answer values isGetNext) >>= _) = _
  rw [List.mapM_cons, List.mapM_nil]
  cases answer values isGetNext { name := oid, value := .unspecified } <;> rfl

theorem getOne_of_not_named {requestId : Int32} {oid : ObjectIdentifier} {values : Values} {isGetNext : Bool}
    (h : named values isGetNext oid.arcs = none) : buildResponse (getOne requestId oid) values isGetNext =
      .ok { requestId, errorStatus := 0, errorIndex := 0,
            variableBindings := [{ name := oid, value := missed isGetNext }] } := by
  have hanswer : answer values isGetNext { name := oid, value := .unspecified } = _ := answer_of_not_named h
  rw [buildResponse_getOne, hanswer]
  rfl

theorem getOne_of_named {requestId : Int32} {oid : ObjectIdentifier} {values : Values} {isGetNext : Bool} {k : Oid}
    {v : Int64} (h : named values isGetNext oid.arcs = some k) (hv : values.lookup k = some v) :
    buildResponse (getOne requestId oid) values isGetNext =
      if hk : IsValidOid k then
        .ok { requestId, errorStatus := 0, errorIndex := 0,
              variableBindings := [{ name := ⟨k, hk⟩, value := sent v }] }
      else .error (.expect "non-empty OID") := by
  have hanswer : answer values isGetNext { name := oid, value := .unspecified } = _ := answer_of_named h hv
  rw [buildResponse_getOne, hanswer]
  split <;> rfl

end EmsFixtures.Snmp
