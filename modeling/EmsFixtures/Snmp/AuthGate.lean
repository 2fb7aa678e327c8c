import EmsFixtures.Snmp.SignedReply

/-!
# The authentication gate

What a datagram passes on its way to a reply (`authenticatedPath_eq_ok_some_iff`).  The HMAC is one of the steps only
if the message sets its auth flag; a message that clears it is answered without one.
-/

namespace EmsFixtures.Snmp

open Panics

section

variable [OidRule] {codec : V3Codec} {crypto : Crypto} {datagram reply : Bytes} {message : Message}
  {usmParams : USMSecurityParameters} {user : UsmUser} {s : AgentState} {env : Surroundings} {values : Values}

/-! ### The steps of the path -/

omit [OidRule] in
/-- The tag is found with all its octets, so the check of an HMAC returns. -/
theorem returns_verifyHmac (crypto : Crypto) (raw : Bytes) (usmParams : USMSecurityParameters) (authKey : Bytes) :
    Returns (verifyHmac crypto raw usmParams authKey) := by
  unfold verifyHmac
  by_cases hlen : usmParams.authenticationParameters.length = authTruncLen
  · rw [if_neg (not_not.2 hlen)]
    cases hpos : findWindow (authNeedle usmParams.authenticationParameters) raw with
    | none => exact returns_pure _
    | some pos =>
      obtain ⟨pre, post, -, -, hcopy⟩ := copyFromSlice_needle hlen length_zeroAuth hpos
      exact returns_bind_iff.2 ⟨_, hcopy, returns_bind_iff.2 ⟨_, hmacSign_eq .., returns_pure _⟩⟩
  · rw [if_pos hlen]
    exact returns_pure _

/-- A GET or GETNEXT over keys that are all valid OIDs. -/
def Readable (values : Values) : Pdus → Prop
  | .getRequest req => ∀ vb ∈ req.variableBindings, ∀ k, named values false vb.name.arcs = some k → IsValidOid k
  | .getNextRequest req => ∀ vb ∈ req.variableBindings, ∀ k, named values true vb.name.arcs = some k → IsValidOid k
  | _ => False

private theorem buildResponse_some_iff {req : Pdu} {isGetNext : Bool} :
    (∃ responsePdu, some <$> buildResponse req values isGetNext = .ok (some responsePdu)) ↔
      ∀ vb ∈ req.variableBindings, ∀ k, named values isGetNext vb.name.arcs = some k → IsValidOid k := by
  rw [← forall₂_congr fun vb _ => returns_answer_iff, ← returns_buildResponse_iff]
  unfold Returns
  refine exists_congr fun responsePdu => ?_
  cases buildResponse req values isGetNext <;> simp

theorem dispatch_eq_ok_some_iff {data : Pdus} :
    (∃ responsePdu, dispatch values data = .ok (some responsePdu)) ↔ Readable values data := by
  cases data with
  | getRequest req => exact buildResponse_some_iff
  | getNextRequest req => exact buildResponse_some_iff
  | _ => exact iff_of_false (by rintro ⟨responsePdu, ⟨⟩⟩) id

theorem serveRequest_eq_ok_some_iff (hber : codec.EncodesBer) :
    (∃ reply, serveRequest codec crypto message usmParams user s env values = .ok (some reply)) ↔
      ∃ scopedPdu, openScoped codec crypto message usmParams user = .ok (some scopedPdu) ∧
        Readable values scopedPdu.data := by
  unfold serveRequest
  constructor
  · intro h
    obtain ⟨reply, h⟩ := h
    obtain ⟨_ | scopedPdu, hopen, h⟩ := bind_eq_ok_iff.1 h
    · cases h
    · obtain ⟨_ | responsePdu, hdispatch, h⟩ := bind_eq_ok_iff.1 h
      · cases h
      · exact ⟨scopedPdu, hopen, dispatch_eq_ok_some_iff.1 ⟨responsePdu, hdispatch⟩⟩
  · intro h
    obtain ⟨scopedPdu, hopen, hread⟩ := h
    obtain ⟨responsePdu, hdispatch⟩ := dispatch_eq_ok_some_iff.2 hread
    obtain ⟨reply, hreply⟩ := returns_buildAuthenticatedReply hber crypto message user s env
      { engineId := s.engineId, name := scopedPdu.name, data := .response responsePdu } message.wantPriv
    exact ⟨reply, bind_eq_ok_iff.2 ⟨_, hopen, bind_eq_ok_iff.2 ⟨_, hdispatch, by dsimp only; rw [hreply]; rfl⟩⟩⟩

/-- The gate is open to a registered user of this engine, verified if the message sets its auth flag. -/
def Admits (crypto : Crypto) (datagram : Bytes) (message : Message) (usmParams : USMSecurityParameters) (s : AgentState)
    (user : UsmUser) : Prop :=
  usmParams.authoritativeEngineId = s.engineId ∧ s.findUser usmParams.userName = some user ∧
    (message.wantAuth → verifyHmac crypto datagram usmParams user.authKey = .ok true)

theorem Admits.unique {user' : UsmUser} (h : Admits crypto datagram message usmParams s user)
    (h' : Admits crypto datagram message usmParams s user') : user' = user :=
  Option.some.inj (h'.2.1.symm.trans h.2.1)

/-- The path serves the user the gate is open to, and drops the message if there is none. -/
theorem authenticatedPath_cases (codec : V3Codec) (crypto : Crypto) (datagram : Bytes) (message : Message)
    (usmParams : USMSecurityParameters) (s : AgentState) (env : Surroundings) (values : Values) :
    (∃ user, Admits crypto datagram message usmParams s user ∧
      authenticatedPath codec crypto datagram message usmParams s env values =
        serveRequest codec crypto message usmParams user s env values) ∨
    ((∀ user, ¬ Admits crypto datagram message usmParams s user) ∧
      authenticatedPath codec crypto datagram message usmParams s env values = .ok none) := by
  unfold authenticatedPath
  by_cases hid : usmParams.authoritativeEngineId = s.engineId
  swap
  · rw [if_pos hid]
    exact .inr ⟨fun user h => hid h.1, rfl⟩
  rw [if_neg (not_not.2 hid)]
  cases huser : s.findUser usmParams.userName with
  | none =>
    refine .inr ⟨fun user h => ?_, rfl⟩
    have := huser.symm.trans h.2.1
    cases this
  | some user =>
    obtain ⟨verified, hverify⟩ := returns_verifyHmac crypto datagram usmParams user.authKey
    by_cases hgate : message.wantAuth = true → verified = true
    · refine .inl ⟨user, ⟨hid, huser, fun hauth => by rw [hverify, hgate hauth]⟩, ?_⟩
      cases hauth : message.wantAuth with
      | false => rfl
      | true => simp [hverify, hgate hauth, bind, Except.bind]
    · obtain ⟨hauth, hfalse⟩ := Classical.not_imp.1 hgate
      refine .inr ⟨fun user' h => hfalse ?_, ?_⟩
      · have hsome : user' = user := Option.some.inj (h.2.1.symm.trans huser)
        have hok := h.2.2 hauth
        rw [hsome, hverify] at hok
        exact Except.ok.inj hok
      · simp [hauth, hverify, Bool.eq_false_iff.2 hfalse, bind, Except.bind, pure, Except.pure]

theorem authenticatedPath_eq_ok_some_iff :
    authenticatedPath codec crypto datagram message usmParams s env values = .ok (some reply) ↔
      ∃ user, Admits crypto datagram message usmParams s user ∧
        serveRequest codec crypto message usmParams user s env values = .ok (some reply) := by
  rcases authenticatedPath_cases codec crypto datagram message usmParams s env values with
    ⟨user, huser, heq⟩ | ⟨hnone, heq⟩
  · rw [heq]
    constructor
    · intro h
      exact ⟨user, huser, h⟩
    · intro h
      obtain ⟨user', huser', h⟩ := h
      rwa [huser.unique huser'] at h
  · rw [heq]
    refine iff_of_false nofun ?_
    intro h
    obtain ⟨user, huser, -⟩ := h
    exact hnone user huser

def Decodes (codec : V3Codec) (datagram : Bytes) (message : Message) (usmParams : USMSecurityParameters) : Prop :=
  codec.decodeMessage datagram = some message ∧ codec.decodeUsm message.securityParameters = some usmParams

theorem Decodes.unique {message' : Message} {usmParams' : USMSecurityParameters}
    (h : Decodes codec datagram message usmParams) (h' : Decodes codec datagram message' usmParams') :
    message' = message ∧ usmParams' = usmParams := by
  have hmessage := Option.some.inj (h'.1.symm.trans h.1)
  subst hmessage
  exact ⟨rfl, Option.some.inj (h'.2.symm.trans h.2)⟩

theorem Decodes.handleV3Datagram_eq (h : Decodes codec datagram message usmParams) :
    handleV3Datagram codec crypto datagram s env values =
      if usmParams.authoritativeEngineId = [] then some <$> buildDiscoveryReport codec message usmParams s env
      else authenticatedPath codec crypto datagram message usmParams s env values := by
  unfold handleV3Datagram
  rw [h.1]
  dsimp only
  rw [h.2]

theorem handleV3Datagram_of_not_decodes (h : ∀ message usmParams, ¬ Decodes codec datagram message usmParams) :
    handleV3Datagram codec crypto datagram s env values = .ok none := by
  unfold handleV3Datagram
  cases hdecode : codec.decodeMessage datagram with
  | none => rfl
  | some message =>
    cases husm : codec.decodeUsm message.securityParameters with
    | none =>
      dsimp only
      rw [husm]
      rfl
    | some usmParams => exact absurd ⟨hdecode, husm⟩ (h message usmParams)

/-! ### Unauthenticated replies -/

/-- A datagram is replied to only if the key of the user it names verifies it. -/
def OnlyVerified (codec : V3Codec) (crypto : Crypto) (datagram : Bytes) (usmParams : USMSecurityParameters)
    (s : AgentState) (env : Surroundings) (values : Values) : Prop :=
  ∀ reply, handleV3Datagram codec crypto datagram s env values = .ok (some reply) →
    ∃ user, s.findUser usmParams.userName = some user ∧ verifyHmac crypto datagram usmParams user.authKey = .ok true

private theorem not_onlyVerified (hreply : handleV3Datagram codec crypto datagram s env values = .ok (some reply))
    (huser : s.findUser usmParams.userName = some user)
    (hverify : verifyHmac crypto datagram usmParams user.authKey = .ok false) :
    ¬ OnlyVerified codec crypto datagram usmParams s env values := by
  intro h
  obtain ⟨user', huser', hverify'⟩ := h reply hreply
  rw [huser] at huser'
  cases huser'
  rw [hverify] at hverify'
  cases hverify'

/-- Verified or not, a message can be answered: it names this engine and carries a readable scoped PDU. -/
def Answerable (codec : V3Codec) (crypto : Crypto) (message : Message) (usmParams : USMSecurityParameters)
    (user : UsmUser) (s : AgentState) (values : Values) : Prop :=
  usmParams.authoritativeEngineId = s.engineId ∧
    ∃ scopedPdu, openScoped codec crypto message usmParams user = .ok (some scopedPdu) ∧ Readable values scopedPdu.data

/-- Replies are to verified datagrams iff every answerable message sets its auth flag, or verifies anyway. -/
theorem only_verified_iff (hber : codec.EncodesBer) (hdecodes : Decodes codec datagram message usmParams)
    (hne : usmParams.authoritativeEngineId ≠ []) (s : AgentState) (env : Surroundings) (values : Values) :
    OnlyVerified codec crypto datagram usmParams s env values ↔
      ∀ user, s.findUser usmParams.userName = some user → Answerable codec crypto message usmParams user s values →
        message.wantAuth ∨ verifyHmac crypto datagram usmParams user.authKey = .ok true := by
  unfold OnlyVerified
  rw [hdecodes.handleV3Datagram_eq, if_neg hne]
  constructor
  · rintro h user huser ⟨hid, hserve⟩
    obtain ⟨reply, hreply⟩ := (serveRequest_eq_ok_some_iff hber).2 hserve
    by_cases hauth : message.wantAuth = true
    · exact .inl hauth
    · obtain ⟨user', huser', hverify⟩ :=
        h reply (authenticatedPath_eq_ok_some_iff.2 ⟨user, ⟨hid, huser, fun hauth' => absurd hauth' hauth⟩, hreply⟩)
      rw [huser] at huser'
      cases huser'
      exact .inr hverify
  · intro h reply hreply
    obtain ⟨user, ⟨hid, huser, hgate⟩, hreply⟩ := authenticatedPath_eq_ok_some_iff.1 hreply
    rcases h user huser ⟨hid, (serveRequest_eq_ok_some_iff hber).1 ⟨reply, hreply⟩⟩ with hauth | hverify
    · exact ⟨user, huser, hgate hauth⟩
    · exact ⟨user, huser, hverify⟩

end

theorem mockCodec_decodes (message : Message) (u : USMSecurityParameters) (h : message.securityParameters = usmBytes u) :
    Decodes (mockCodec message u) (mockBytes message) message u := by
  simp [Decodes, mockCodec, h]

def signedUsm : USMSecurityParameters := gatewayUsm (requestDigest.1.take authTruncLen) []

def signedRequest : Message := gatewayMessage 1 0x01 signedUsm (.cleartextPdu currentRequest)

theorem only_verified_iff_signed :
    OnlyVerified (mockCodec signedRequest signedUsm) plainCrypto (mockBytes signedRequest) signedUsm mockAgent atBoot
      (initialValues ℚ) :=
  (only_verified_iff (mockCodec_encodesBer _ _) (mockCodec_decodes _ _ rfl) (by decide) _ _ _).2
    fun _ _ _ => .inl (by decide)

def clearUsm : USMSecurityParameters := gatewayUsm [] []

def clearRequest : Message := gatewayMessage 1 0x00 clearUsm (.cleartextPdu currentRequest)

/-- Its reply, which ends in the L1 current, 1500. -/
def clearReply : Bytes :=
  [0x30, 0x81, 0x88, 0x02, 0x01, 0x03, 0x30, 0x0D, 0x02, 0x01, 0x01, 0x02, 0x02, 0x05, 0xDC, 0x04, 0x01, 0x01,
  0x02, 0x01, 0x03, 0x04, 0x3C, 0x30, 0x3A, 0x04, 0x0D, 0x80, 0x00, 0x86, 0x9F, 0x05, 0x6D, 0x6F, 0x63, 0x6B,
  0x00, 0x00, 0x00, 0x01, 0x02, 0x01, 0x01, 0x02, 0x01, 0x00, 0x04, 0x07, 0x67, 0x61, 0x74, 0x65, 0x77, 0x61,
  0x79, 0x04, 0x18, 0x83, 0x40, 0xF0, 0x3A, 0x57, 0x6E, 0x2B, 0xBD, 0xE1, 0x40, 0xAA, 0x40, 0x4A, 0xA6, 0x7F,
  0x81, 0x4A, 0x01, 0x96, 0xF3, 0xDE, 0x70, 0x39, 0x26, 0x04, 0x00, 0x30, 0x36, 0x04, 0x0D, 0x80, 0x00, 0x86,
  0x9F, 0x05, 0x6D, 0x6F, 0x63, 0x6B, 0x00, 0x00, 0x00, 0x01, 0x04, 0x00, 0xA2, 0x23, 0x02, 0x01, 0x07, 0x02,
  0x01, 0x00, 0x02, 0x01, 0x00, 0x30, 0x18, 0x30, 0x16, 0x06, 0x10, 0x2B, 0x06, 0x01, 0x04, 0x01, 0x8D, 0x36,
  0x04, 0x01, 0x04, 0x03, 0x01, 0x03, 0x01, 0x01, 0x01, 0x02, 0x02, 0x05, 0xDC]

theorem clear_flag_answered :
    Decodes (mockCodec clearRequest clearUsm) (mockBytes clearRequest) clearRequest clearUsm ∧
    clearUsm.authoritativeEngineId ≠ [] ∧
    handleV3Datagram (mockCodec clearRequest clearUsm) plainCrypto (mockBytes clearRequest) mockAgent atBoot
      (initialValues ℚ) = .ok (some clearReply) ∧
    mockAgent.findUser clearUsm.userName = some gatewayUser ∧
    verifyHmac plainCrypto (mockBytes clearRequest) clearUsm gatewayUser.authKey = .ok false ∧
    ¬ OnlyVerified (mockCodec clearRequest clearUsm) plainCrypto (mockBytes clearRequest) clearUsm mockAgent atBoot
      (initialValues ℚ) := by
  have hreply : handleV3Datagram (mockCodec clearRequest clearUsm) plainCrypto (mockBytes clearRequest) mockAgent atBoot
      (initialValues ℚ) = .ok (some clearReply) := by
    decide +kernel
  have huser : mockAgent.findUser clearUsm.userName = some gatewayUser := by decide +kernel
  have hverify : verifyHmac plainCrypto (mockBytes clearRequest) clearUsm gatewayUser.authKey = .ok false := by
    decide +kernel
  exact ⟨mockCodec_decodes _ _ rfl, by decide, hreply, huser, hverify, not_onlyVerified hreply huser hverify⟩

end EmsFixtures.Snmp
