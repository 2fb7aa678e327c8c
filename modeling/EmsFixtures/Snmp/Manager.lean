import EmsFixtures.Snmp.KeyStretch
import EmsFixtures.Snmp.TagWindow

/-!
# A manager

The client that the tests of `v3.rs` play: it asks for the engine id, derives the keys of its user for the engine that
reports itself, sends an encrypted and signed request, and opens the reply.  What the tests fix (ids, user, target) are
arguments here, and the tag of the reply is checked the way the agent checks one.
-/

namespace EmsFixtures.Snmp

open Panics

variable [OidRule]

def utf8 (s : String) : Bytes := s.toUTF8.data.toList

structure Manager where
  userName : String
  authPass : Bytes
  privPass : Bytes
  messageId : ℤ
  requestId : Int32

/-! ### What it sends -/

def discoveryUsm : USMSecurityParameters :=
  { authoritativeEngineId := [], authoritativeEngineBoots := 0, authoritativeEngineTime := 0, userName := []
    authenticationParameters := [], privacyParameters := [] }

def managerHeader (messageId : ℤ) (flags : UInt8) : HeaderData :=
  { messageId, maxSize := 65507, flags := [flags], securityModel := 3 }

def discoveryMessage (m : Manager) : Message :=
  { version := 3, globalData := managerHeader m.messageId 0x04, securityParameters := []
    scopedData := .cleartextPdu
      { engineId := [], name := []
        data := .getRequest { requestId := m.requestId, errorStatus := 0, errorIndex := 0, variableBindings := [] } } }

/-- Empty engine id, empty user, reportable. -/
def makeDiscoveryRequest (codec : V3Codec) (m : Manager) : Except Panic Bytes := do
  let securityParameters ← expect "usm encode" (codec.encodeUsm discoveryUsm)
  expect "encode" (codec.encodeMessage { discoveryMessage m with securityParameters })

/-- What a manager knows of the agent: its engine id, boots and time, and the keys of its user there. -/
structure Peer where
  engineId : Bytes
  engineBoots : UInt32
  engineTime : UInt32
  authKey : Bytes
  privKey : Bytes

def authprivUsm (m : Manager) (peer : Peer) (privParams : Bytes) : USMSecurityParameters :=
  { authoritativeEngineId := peer.engineId, authoritativeEngineBoots := peer.engineBoots.toNat
    authoritativeEngineTime := peer.engineTime.toNat, userName := utf8 m.userName
    authenticationParameters := zeroAuth, privacyParameters := privParams }

def authprivMessage (m : Manager) (ct : Bytes) : Message :=
  { version := 3, globalData := managerHeader m.messageId 0x03, securityParameters := []
    scopedData := .encryptedPdu ct }

/-- Encrypt the scoped PDU, sign the encoding with the zero tag, and encode again with the tag. -/
def makeAuthprivRequest (codec : V3Codec) (crypto : Crypto) (m : Manager) (peer : Peer) (data : Pdus) (salt : Salt) :
    Except Panic Bytes := do
  let pt ← expect "encode scoped" (codec.encodeScoped { engineId := peer.engineId, name := [], data })
  let (ct, privParams) ← aesCfbEncrypt crypto pt peer.privKey peer.engineBoots peer.engineTime salt
  let usmParams := authprivUsm m peer privParams
  let msg := authprivMessage m ct
  let securityParameters ← expect "usm encode" (codec.encodeUsm usmParams)
  let withZeroAuth ← expect "encode v3" (codec.encodeMessage { msg with securityParameters })
  let mac ← hmacSign crypto peer.authKey withZeroAuth
  let securityParameters ← expect "usm re-encode" (codec.encodeUsm { usmParams with authenticationParameters := mac })
  expect "encode v3 final" (codec.encodeMessage { msg with securityParameters })

/-! ### What it makes of the replies -/

/-- The agent that a report announces, with the keys localized to it. -/
def Manager.meet (codec : V3Codec) (sha256 : Bytes → Bytes) (m : Manager) (report : Bytes) :
    Except Panic (Option Peer) := do
  match codec.decodeMessage report with
  | none => return none
  | some message =>
    match codec.decodeUsm message.securityParameters with
    | none => return none
    | some usmParams =>
      let engineBoots ← expect "unwrap" (tryU32 usmParams.authoritativeEngineBoots)
      let engineTime ← expect "unwrap" (tryU32 usmParams.authoritativeEngineTime)
      let authKey ← deriveLocalizedKey sha256 m.authPass usmParams.authoritativeEngineId
      let privKey ← deriveLocalizedKey sha256 m.privPass usmParams.authoritativeEngineId
      let privKey ← sliceTo privKey privKeyLen
      return some { engineId := usmParams.authoritativeEngineId, engineBoots, engineTime, authKey, privKey }

/-- The response in a reply that is signed by the peer and encrypted for it. -/
def openReply (codec : V3Codec) (crypto : Crypto) (peer : Peer) (reply : Bytes) : Except Panic (Option Pdu) := do
  match codec.decodeMessage reply with
  | none => return none
  | some message =>
    match codec.decodeUsm message.securityParameters with
    | none => return none
    | some usmParams =>
      if !(← verifyHmac crypto reply usmParams peer.authKey) then return none
      match message.scopedData with
      | .cleartextPdu _ => return none
      | .encryptedPdu ct =>
        let engineBoots ← expect "unwrap" (tryU32 usmParams.authoritativeEngineBoots)
        let engineTime ← expect "unwrap" (tryU32 usmParams.authoritativeEngineTime)
        let plain ← aesCfbDecrypt crypto ct peer.privKey engineBoots engineTime usmParams.privacyParameters
        match codec.decodeScoped plain with
        | some { data := .response response, .. } => return some response
        | _ => return none

/-! ### Discovery and a request -/

/-- A manager discovers the agent, and asks it something later. -/
def Manager.ask (codec : V3Codec) (crypto : Crypto) (sha256 : Bytes → Bytes) (m : Manager) (s : AgentState)
    (atDiscovery atRequest : Surroundings) (seen values : Values) (salt : Salt) (data : Pdus) :
    Except Panic (Option Pdu) := do
  let hello ← makeDiscoveryRequest codec m
  match ← handleV3Datagram codec crypto hello s atDiscovery seen with
  | none => return none
  | some report =>
    match ← m.meet codec sha256 report with
    | none => return none
    | some peer =>
      let request ← makeAuthprivRequest codec crypto m peer data salt
      match ← handleV3Datagram codec crypto request s atRequest values with
      | none => return none
      | some reply => openReply codec crypto peer reply

end EmsFixtures.Snmp
