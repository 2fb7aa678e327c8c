import Mathlib.Data.Finmap
import EmsFixtures.Snmp.Usm

/-!
# The SNMPv3 handler

`v3.rs`: discovery, and the authenticated path from the engine id to the signed reply.  BER coding is the library's
(`V3Codec`).  The handler is cut where the source changes subject: the gate (`authenticatedPath`), opening the scoped
PDU (`openScoped`), answering it (`dispatch`) and building the reply.
-/

namespace EmsFixtures.Snmp

open Panics

variable [OidRule]

structure USMSecurityParameters where
  authoritativeEngineId : Bytes
  authoritativeEngineBoots : ℤ
  authoritativeEngineTime : ℤ
  userName : Bytes
  authenticationParameters : Bytes
  privacyParameters : Bytes
  deriving DecidableEq

structure HeaderData where
  messageId : ℤ
  maxSize : ℤ
  flags : Bytes
  securityModel : ℤ
  deriving DecidableEq

structure ScopedPdu where
  engineId : Bytes
  name : Bytes
  data : Pdus
  deriving DecidableEq

inductive ScopedPduData where
  | cleartextPdu (pdu : ScopedPdu)
  | encryptedPdu (ciphertext : Bytes)
  deriving DecidableEq

structure Message where
  version : ℤ
  globalData : HeaderData
  securityParameters : Bytes
  scopedData : ScopedPduData
  deriving DecidableEq

structure V3Codec where
  decodeMessage : Bytes → Option Message
  decodeUsm : Bytes → Option USMSecurityParameters
  decodeScoped : Bytes → Option ScopedPdu
  encodeMessage : Message → Option Bytes
  encodeUsm : USMSecurityParameters → Option Bytes
  encodeScoped : ScopedPdu → Option Bytes

/-- One registered USM user; `register_user` cuts the priv key to its length. -/
structure UsmUser where
  authKey : Bytes
  privKey : Bytes
  length_privKey : privKey.length = privKeyLen
  deriving DecidableEq

structure AgentState where
  engineId : Bytes
  engineBoots : UInt32
  users : HashMap String UsmUser

/-- What the surroundings give a call: the seconds since boot and the random salt of a reply. -/
structure Surroundings where
  elapsedSecs : Nat
  salt : Salt

/-- Seconds since this agent booted. -/
def engineTime (env : Surroundings) : UInt32 :=
  if env.elapsedSecs < 2 ^ 32 then UInt32.ofNat env.elapsedSecs else 0xFFFFFFFF

def tryU32 (i : ℤ) : Option UInt32 := if 0 ≤ i ∧ i < 2 ^ 32 then some (UInt32.ofNat i.toNat) else none

/-- The user a message names; a name that is not UTF-8 stands for the empty one. -/
def AgentState.findUser (s : AgentState) (userName : Bytes) : Option UsmUser :=
  s.users.lookup ((String.fromUTF8? ⟨userName.toArray⟩).getD "")

def Message.flags (message : Message) : UInt8 := message.globalData.flags.head?.getD 0

def Message.wantAuth (message : Message) : Bool := message.flags &&& 0x01 != 0

def Message.wantPriv (message : Message) : Bool := message.flags &&& 0x02 != 0

/-- `04 18 <auth_params>`. -/
def authNeedle (authParams : Bytes) : Bytes := 0x04 :: UInt8.ofNat authTruncLen :: authParams

def zeroAuth : Bytes := List.replicate authTruncLen 0

/-- Verify the HMAC over the original datagram with `authentication_parameters` zeroed. -/
def verifyHmac (crypto : Crypto) (raw : Bytes) (usmParams : USMSecurityParameters) (authKey : Bytes) :
    Except Panic Bool := do
  let authParams := usmParams.authenticationParameters
  if authParams.length ≠ authTruncLen then return false
  match findWindow (authNeedle authParams) raw with
  | none => return false
  | some pos =>
    let zeroed ← copyFromSlice raw (pos + 2) authTruncLen zeroAuth
    let computed ← hmacSign crypto authKey zeroed
    return computed == authParams

def extractRequestId (message : Message) : Option Int32 :=
  match message.scopedData with
  | .encryptedPdu _ => none
  | .cleartextPdu scopedPdu =>
    match scopedPdu.data with
    | .getRequest req => some req.requestId
    | .getNextRequest req => some req.requestId
    | .getBulkRequest req => some req.requestId
    | _ => none

def usmStatsUnknownEngineIds : Oid := [1, 3, 6, 1, 6, 3, 15, 1, 1, 4, 0]

variable (codec : V3Codec) (crypto : Crypto)

/-- A REPORT message that announces our engine id to a discovering client. -/
def buildDiscoveryReport (request : Message) (requestUsm : USMSecurityParameters) (s : AgentState)
    (env : Surroundings) : Except Panic Bytes := do
  let name ← expect "static OID" (ObjectIdentifier.new usmStatsUnknownEngineIds)
  let reportPdu : Pdu :=
    { requestId := (extractRequestId request).getD 0, errorStatus := 0, errorIndex := 0
      variableBindings := [{ name, value := .value (.integer 1) }] }
  let scopedPdu : ScopedPdu := { engineId := s.engineId, name := [], data := .report reportPdu }
  let responseUsm : USMSecurityParameters :=
    { authoritativeEngineId := s.engineId, authoritativeEngineBoots := s.engineBoots.toNat
      authoritativeEngineTime := (engineTime env).toNat, userName := requestUsm.userName
      authenticationParameters := [], privacyParameters := [] }
  let securityParameters ← expect "USM params encode" (codec.encodeUsm responseUsm)
  let response : Message :=
    { version := request.version
      globalData := { messageId := request.globalData.messageId, maxSize := request.globalData.maxSize
                      flags := [0x04], securityModel := 3 }
      securityParameters, scopedData := .cleartextPdu scopedPdu }
  expect "v3 message encode" (codec.encodeMessage response)

/-- The scoped data of a reply and its privacy parameters: encrypted, or as it is. -/
def sealScoped (user : UsmUser) (s : AgentState) (env : Surroundings) (responseScoped : ScopedPdu) (encrypt : Bool) :
    Except Panic (ScopedPduData × Bytes) :=
  if encrypt then do
    let pt ← expect "encode scoped PDU" (codec.encodeScoped responseScoped)
    let (ct, privParams) ← aesCfbEncrypt crypto pt user.privKey s.engineBoots (engineTime env) env.salt
    pure (.encryptedPdu ct, privParams)
  else pure (.cleartextPdu responseScoped, [])

def replyUsm (request : Message) (s : AgentState) (env : Surroundings) (privParams : Bytes) : USMSecurityParameters :=
  { authoritativeEngineId := s.engineId, authoritativeEngineBoots := s.engineBoots.toNat
    authoritativeEngineTime := (engineTime env).toNat
    userName := ((codec.decodeUsm request.securityParameters).map (·.userName)).getD []
    authenticationParameters := zeroAuth, privacyParameters := privParams }

def replyMessage (request : Message) (scopedData : ScopedPduData) (encrypt : Bool) : Message :=
  { version := request.version
    globalData := { messageId := request.globalData.messageId, maxSize := request.globalData.maxSize
                    flags := [if encrypt then 0x03 else 0x01], securityModel := 3 }
    securityParameters := [], scopedData }

/-- Build the encrypted and signed reply: encode once with the zero placeholder, sign, splice the tag in. -/
def buildAuthenticatedReply (request : Message) (user : UsmUser) (s : AgentState) (env : Surroundings)
    (responseScoped : ScopedPdu) (encrypt : Bool) : Except Panic Bytes := do
  let (scopedData, privParams) ← sealScoped codec crypto user s env responseScoped encrypt
  let responseUsm := replyUsm codec request s env privParams
  let response := replyMessage request scopedData encrypt
  let securityParameters ← expect "response USM encode" (codec.encodeUsm responseUsm)
  let bytes ← expect "encode v3 message" (codec.encodeMessage { response with securityParameters })
  let mac ← hmacSign crypto user.authKey bytes
  -- the first such window of the whole encoding
  let pos ← expect "zero auth_params placeholder must be present in own encoding"
    (findWindow (authNeedle zeroAuth) bytes)
  copyFromSlice bytes (pos + 2) authTruncLen mac

/-- The scoped PDU of a message, decrypted if its priv flag is set; `none` is a drop. -/
def openScoped (message : Message) (usmParams : USMSecurityParameters) (user : UsmUser) :
    Except Panic (Option ScopedPdu) :=
  match message.scopedData with
  | .cleartextPdu p => pure (some p)
  | .encryptedPdu ct =>
    if message.wantPriv then do
      let plaintext ← aesCfbDecrypt crypto ct user.privKey
        ((tryU32 usmParams.authoritativeEngineBoots).getD 0) ((tryU32 usmParams.authoritativeEngineTime).getD 0)
        usmParams.privacyParameters
      pure (codec.decodeScoped plaintext)
    else pure none

def dispatch (values : Values) : Pdus → Except Panic (Option Pdu)
  | .getRequest req => some <$> buildResponse req values false
  | .getNextRequest req => some <$> buildResponse req values true
  | _ => pure none

def serveRequest (message : Message) (usmParams : USMSecurityParameters) (user : UsmUser) (s : AgentState)
    (env : Surroundings) (values : Values) : Except Panic (Option Bytes) := do
  match ← openScoped codec crypto message usmParams user with
  | none => return none
  | some scopedPdu =>
    match ← dispatch values scopedPdu.data with
    | none => return none
    | some responsePdu =>
      let responseScoped : ScopedPdu := { engineId := s.engineId, name := scopedPdu.name, data := .response responsePdu }
      some <$> buildAuthenticatedReply codec crypto message user s env responseScoped message.wantPriv

/-- Engine id, user and HMAC; then the request. -/
def authenticatedPath (datagram : Bytes) (message : Message) (usmParams : USMSecurityParameters) (s : AgentState)
    (env : Surroundings) (values : Values) : Except Panic (Option Bytes) := do
  if usmParams.authoritativeEngineId ≠ s.engineId then return none
  match s.findUser usmParams.userName with
  | none => return none
  | some user =>
    -- a message that clears the flag is served unverified
    if message.wantAuth then
      if !(← verifyHmac crypto datagram usmParams user.authKey) then return none
    serveRequest codec crypto message usmParams user s env values

/-- Dispatch a v3 datagram: the encoded reply, or `none` if the message is dropped. -/
def handleV3Datagram (datagram : Bytes) (s : AgentState) (env : Surroundings) (values : Values) :
    Except Panic (Option Bytes) := do
  match codec.decodeMessage datagram with
  | none => return none
  | some message =>
    match codec.decodeUsm message.securityParameters with
    | none => return none
    | some usmParams =>
      if usmParams.authoritativeEngineId = [] then some <$> buildDiscoveryReport codec message usmParams s env
      else authenticatedPath codec crypto datagram message usmParams s env values

end EmsFixtures.Snmp
