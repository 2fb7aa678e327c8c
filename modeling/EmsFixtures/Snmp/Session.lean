import EmsFixtures.Snmp.Manager

/-!
# An authPriv session

A manager that has the passphrases of a registered user gets the answer to its request: the report tells it the engine
id, both sides derive the same keys, the agent verifies and decrypts what the manager signed and encrypted, and the
manager what the agent did.  Either side looks for a tag by its octets, so nothing in front of a tag may look like it
(`TagFirst`, `PlaceFirst`).
-/

namespace EmsFixtures.Snmp

open Ber Panics

section

variable [OidRule] {codec : V3Codec} {crypto : Crypto}

/-! ### What the libraries and the octets must not spoil -/

/-- A message with its security parameters, as it is encoded. -/
def secured (m : Message) (u : USMSecurityParameters) : Message := { m with securityParameters := usmBytes u }

/-- The decoder reads the message that the encoder wrote. -/
def Legible (codec : V3Codec) (m : Message) (u : USMSecurityParameters) : Prop :=
  ∀ scopedBytes, scopedDataBytes codec m.scopedData = some scopedBytes →
    Decodes codec (wire m u scopedBytes) (secured m u) u

def LegibleScoped (codec : V3Codec) (p : ScopedPdu) : Prop :=
  ∀ bytes, codec.encodeScoped p = some bytes → codec.decodeScoped bytes = some p

/-- No `04 18 <tag>` starts before the tag. -/
def TagFirst (codec : V3Codec) (m : Message) (u : USMSecurityParameters) : Prop :=
  ∀ scopedBytes, scopedDataBytes codec m.scopedData = some scopedBytes → ∀ before after,
    wire m u scopedBytes = before ++ authNeedle u.authenticationParameters ++ after →
      (beforeAuth m u scopedBytes).length ≤ before.length

/-- No `04 18 00…00` stands before the place of the tag. -/
def PlaceFirst (codec : V3Codec) (m : Message) (u : USMSecurityParameters) : Prop :=
  ∀ scopedBytes, scopedDataBytes codec m.scopedData = some scopedBytes →
    ¬ authNeedle zeroAuth <:+: beforeAuth m u scopedBytes

def Crypto.Inverts (crypto : Crypto) : Prop :=
  ∀ key iv plaintext, crypto.cfbDecrypt key iv (crypto.cfbEncrypt key iv plaintext) = plaintext

/-! ### Signing and verifying -/

/-- The parameters with the tag of the encoding that carries a zero one. -/
def signed (codec : V3Codec) (crypto : Crypto) (authKey : Bytes) (m : Message) (u : USMSecurityParameters) :
    USMSecurityParameters :=
  let zeroed := wire m { u with authenticationParameters := zeroAuth } ((scopedDataBytes codec m.scopedData).getD [])
  { u with authenticationParameters := authTag crypto authKey zeroed }

/-- Who holds the key verifies what was signed with it. -/
theorem verifyHmac_signed {authKey : Bytes} {m : Message} {u : USMSecurityParameters} {scopedBytes : Bytes}
    (hdata : scopedDataBytes codec m.scopedData = some scopedBytes)
    (hfirst : TagFirst codec m (signed codec crypto authKey m u)) :
    verifyHmac crypto (wire m (signed codec crypto authKey m u) scopedBytes) (signed codec crypto authKey m u) authKey =
      .ok true := by
  set v := signed codec crypto authKey m u with hv
  have hlen : v.authenticationParameters.length = authTruncLen := length_authTag ..
  have hwire := wire_eq m v scopedBytes hlen
  have hfound : findWindow (authNeedle v.authenticationParameters) (wire m v scopedBytes) =
      some (beforeAuth m v scopedBytes).length := by
    cases hpos : findWindow (authNeedle v.authenticationParameters) (wire m v scopedBytes) with
    | none => exact absurd hwire (ne_of_findWindow_eq_none (authNeedle_ne_nil _) hpos _ _)
    | some pos =>
      have hle := findWindow_min (authNeedle_ne_nil _) hwire hpos
      obtain ⟨before, after, hsplit, rfl⟩ := findWindow_eq_append hpos
      rw [le_antisymm hle (hfirst _ hdata _ _ hsplit)]
  refine (verifyHmac_of_found crypto authKey hlen hwire hfound).2 ?_
  have hbefore : beforeAuth m { u with authenticationParameters := zeroAuth } scopedBytes =
      beforeAuth m v scopedBytes :=
    beforeAuth_setAuth m v scopedBytes (length_zeroAuth.trans hlen.symm)
  have hzeroed : wire m { u with authenticationParameters := zeroAuth } scopedBytes =
      beforeAuth m v scopedBytes ++ authNeedle zeroAuth ++ afterAuth v scopedBytes := by
    rw [wire_eq m _ scopedBytes length_zeroAuth, hbefore]
    rfl
  rw [← hzeroed, hmacSign_eq, hv, signed, hdata]
  rfl

/-- A reply is the signed encoding. -/
theorem buildAuthenticatedReply_signed (hber : codec.EncodesBer) (request : Message) {user : UsmUser} {s : AgentState}
    {env : Surroundings} {responseScoped : ScopedPdu} {encrypt : Bool} {scopedData : ScopedPduData}
    {privParams scopedBytes : Bytes}
    (hseal : sealScoped codec crypto user s env responseScoped encrypt = .ok (scopedData, privParams))
    (hdata : scopedDataBytes codec scopedData = some scopedBytes)
    (hplace : PlaceFirst codec (replyMessage request scopedData encrypt) (replyUsm codec request s env privParams)) :
    buildAuthenticatedReply codec crypto request user s env responseScoped encrypt =
      .ok (wire (replyMessage request scopedData encrypt) (signed codec crypto user.authKey
        (replyMessage request scopedData encrypt) (replyUsm codec request s env privParams)) scopedBytes) := by
  have hdata' : scopedDataBytes codec (replyMessage request scopedData encrypt).scopedData = some scopedBytes := hdata
  have hzero : (replyUsm codec request s env privParams).authenticationParameters = zeroAuth := rfl
  have htag := length_authTag crypto user.authKey
    (wire (replyMessage request scopedData encrypt) (replyUsm codec request s env privParams) scopedBytes)
  obtain ⟨pos, pre, post, hpos, hsplit, hcopy, hcase⟩ := splice_tag hzero htag
  rw [← (wire_setAuth_eq_iff hzero htag hsplit hcase).2 (Or.inl (hplace scopedBytes hdata))] at hcopy
  rw [signed, hdata']
  exact buildAuthenticatedReply_eq_ok hber hseal hdata rfl hpos hcopy

/-! ### Discovery -/

def reportScoped (m : Manager) (s : AgentState) : ScopedPdu :=
  { engineId := s.engineId, name := []
    data := .report { requestId := m.requestId, errorStatus := 0, errorIndex := 0
                      variableBindings := [{ name := ⟨usmStatsUnknownEngineIds, Carried.valid (by decide)⟩
                                             value := .value (.integer 1) }] } }

def reportUsm (s : AgentState) (env : Surroundings) : USMSecurityParameters :=
  { authoritativeEngineId := s.engineId, authoritativeEngineBoots := s.engineBoots.toNat
    authoritativeEngineTime := (engineTime env).toNat, userName := [], authenticationParameters := []
    privacyParameters := [] }

def reportMessage (m : Manager) (s : AgentState) : Message :=
  { version := 3, globalData := managerHeader m.messageId 0x04, securityParameters := []
    scopedData := .cleartextPdu (reportScoped m s) }

theorem makeDiscoveryRequest_eq (hber : codec.EncodesBer) (m : Manager) {scopedBytes : Bytes}
    (hdata : scopedDataBytes codec (discoveryMessage m).scopedData = some scopedBytes) :
    makeDiscoveryRequest codec m = .ok (wire (discoveryMessage m) discoveryUsm scopedBytes) :=
  bind_eq_ok_iff.2 ⟨_, expect_eq_ok_iff.2 (hber.usm _), expect_eq_ok_iff.2 (hber.message _ _ hdata)⟩

/-- The agent answers discovery with a report of its engine, whatever its users and its values. -/
theorem handle_discovery (hber : codec.EncodesBer) (crypto : Crypto) (m : Manager) (s : AgentState) (env : Surroundings)
    (values : Values) (hlegible : Legible codec (discoveryMessage m) discoveryUsm) {scopedBytes reportBytes : Bytes}
    (hdata : scopedDataBytes codec (discoveryMessage m).scopedData = some scopedBytes)
    (hreport : scopedDataBytes codec (reportMessage m s).scopedData = some reportBytes) :
    handleV3Datagram codec crypto (wire (discoveryMessage m) discoveryUsm scopedBytes) s env values =
      .ok (some (wire (reportMessage m s) (reportUsm s env) reportBytes)) := by
  have hdecodes := hlegible _ hdata
  have hvalid : IsValidOid usmStatsUnknownEngineIds := Carried.valid (by decide)
  have hbuild : buildDiscoveryReport codec (secured (discoveryMessage m) discoveryUsm) discoveryUsm s env =
      .ok (wire (reportMessage m s) (reportUsm s env) reportBytes) :=
    bind_eq_ok_iff.2 ⟨_, expect_eq_ok_iff.2 (ObjectIdentifier.new_of_valid hvalid), bind_eq_ok_iff.2
      ⟨_, expect_eq_ok_iff.2 (hber.usm _), expect_eq_ok_iff.2 (hber.message _ _ hreport)⟩⟩
  rw [hdecodes.handleV3Datagram_eq, if_pos (show discoveryUsm.authoritativeEngineId = [] from rfl), hbuild]
  rfl

/-! ### Keys -/

omit [OidRule] in
theorem fromUTF8?_utf8 (s : String) : String.fromUTF8? ⟨(utf8 s).toArray⟩ = some s := by
  have h : (⟨(utf8 s).toArray⟩ : ByteArray) = s.toByteArray := by simp [utf8]
  rw [h, String.fromUTF8?, dif_pos s.isValidUTF8]
  rfl

omit [OidRule] in
theorem tryU32_toNat (n : UInt32) : tryU32 (n.toNat : ℤ) = some n := by
  have hlt := n.toNat_lt
  unfold tryU32
  rw [if_pos ⟨by omega, by exact_mod_cast hlt⟩, Int.toNat_natCast, UInt32.ofNat_toNat]

omit [OidRule] in
/-- Both keys of a user just registered are the localized ones. -/
theorem registerUser_cases {sha256 : Bytes → Bytes} {s₀ s : AgentState} {name : String} {authPass privPass : Bytes}
    (h : s₀.registerUser sha256 name authPass privPass = .ok s) :
    s.engineId = s₀.engineId ∧ ∃ user privKey, s.users.lookup name = some user ∧
      deriveLocalizedKey sha256 authPass s₀.engineId = .ok user.authKey ∧
      deriveLocalizedKey sha256 privPass s₀.engineId = .ok privKey ∧
      sliceTo privKey privKeyLen = .ok user.privKey := by
  obtain ⟨authKey, hauth, h⟩ := bind_eq_ok_iff.1 h
  obtain ⟨privKey, hpriv, h⟩ := bind_eq_ok_iff.1 h
  split at h
  · rename_i hlen
    cases h
    exact ⟨rfl, _, privKey, Finmap.lookup_insert _, hauth, hpriv, sliceTo_eq_ok_iff.2 ⟨hlen, rfl⟩⟩
  · cases h

/-- A manager with the passphrases of a registered user derives the keys that the agent holds. -/
theorem meet_report {sha256 : Bytes → Bytes} {m : Manager} {s₀ s : AgentState} {env : Surroundings}
    (hreg : s₀.registerUser sha256 m.userName m.authPass m.privPass = .ok s)
    (hlegible : Legible codec (reportMessage m s) (reportUsm s env)) {reportBytes : Bytes}
    (hreport : scopedDataBytes codec (reportMessage m s).scopedData = some reportBytes) :
    ∃ user, s.users.lookup m.userName = some user ∧
      m.meet codec sha256 (wire (reportMessage m s) (reportUsm s env) reportBytes) =
        .ok (some ⟨s.engineId, s.engineBoots, engineTime env, user.authKey, user.privKey⟩) := by
  obtain ⟨hid, user, privKey, huser, hauth, hpriv, hslice⟩ := registerUser_cases hreg
  refine ⟨user, huser, ?_⟩
  have hdecodes := hlegible _ hreport
  unfold Manager.meet
  rw [hdecodes.1]
  dsimp only
  rw [hdecodes.2]
  dsimp only [reportUsm]
  rw [tryU32_toNat, tryU32_toNat, hid, hauth, hpriv]
  exact bind_eq_ok_iff.2 ⟨_, rfl, bind_eq_ok_iff.2 ⟨_, rfl, bind_eq_ok_iff.2 ⟨_, rfl, bind_eq_ok_iff.2 ⟨_, rfl,
    bind_eq_ok_iff.2 ⟨_, hslice, rfl⟩⟩⟩⟩⟩

/-! ### A request and its reply -/

section Exchange

variable (m : Manager) (s : AgentState) (user : UsmUser) (atDiscovery atRequest : Surroundings) (salt : Salt)
  (data : Pdus) (response : Pdu)

/-- What the manager knows of the agent after the report. -/
def peerOf : Peer := ⟨s.engineId, s.engineBoots, engineTime atDiscovery, user.authKey, user.privKey⟩

def requestScoped : ScopedPdu := { engineId := s.engineId, name := [], data }

def responseScoped : ScopedPdu := { engineId := s.engineId, name := [], data := .response response }

/-- A scoped PDU, encrypted for the user. -/
def encryptedFor (codec : V3Codec) (crypto : Crypto) (p : ScopedPdu) (engineTime : UInt32) (salt : Salt) : Bytes :=
  crypto.cfbEncrypt user.privKey (ivOf s.engineBoots engineTime salt) ((codec.encodeScoped p).getD [])

def requestMessage (codec : V3Codec) (crypto : Crypto) : Message :=
  authprivMessage m (encryptedFor s user codec crypto (requestScoped s data) (engineTime atDiscovery) salt)

def requestUsm (codec : V3Codec) (crypto : Crypto) : USMSecurityParameters :=
  signed codec crypto user.authKey (requestMessage m s user atDiscovery salt data codec crypto)
    (authprivUsm m (peerOf s user atDiscovery) salt.1)

def responseMessage (codec : V3Codec) (crypto : Crypto) : Message :=
  { version := 3, globalData := managerHeader m.messageId 0x03, securityParameters := []
    scopedData := .encryptedPdu
      (encryptedFor s user codec crypto (responseScoped s response) (engineTime atRequest) atRequest.salt) }

/-- The parameters of the reply before it is signed. -/
def unsignedUsm : USMSecurityParameters :=
  { authoritativeEngineId := s.engineId, authoritativeEngineBoots := s.engineBoots.toNat
    authoritativeEngineTime := (engineTime atRequest).toNat, userName := utf8 m.userName
    authenticationParameters := zeroAuth, privacyParameters := atRequest.salt.1 }

def responseUsm (codec : V3Codec) (crypto : Crypto) : USMSecurityParameters :=
  signed codec crypto user.authKey (responseMessage m s user atRequest response codec crypto) (unsignedUsm m s atRequest)

/-- The four datagrams are read as they were written, and nothing in front of a tag is taken for it. -/
structure ClearExchange (codec : V3Codec) (crypto : Crypto) : Prop where
  hello : Legible codec (discoveryMessage m) discoveryUsm
  report : Legible codec (reportMessage m s) (reportUsm s atDiscovery)
  request : Legible codec (requestMessage m s user atDiscovery salt data codec crypto)
    (requestUsm m s user atDiscovery salt data codec crypto)
  requestPdu : LegibleScoped codec (requestScoped s data)
  requestTag : TagFirst codec (requestMessage m s user atDiscovery salt data codec crypto)
    (requestUsm m s user atDiscovery salt data codec crypto)
  reply : Legible codec (responseMessage m s user atRequest response codec crypto)
    (responseUsm m s user atRequest response codec crypto)
  responsePdu : LegibleScoped codec (responseScoped s response)
  replyPlace : PlaceFirst codec (responseMessage m s user atRequest response codec crypto) (unsignedUsm m s atRequest)
  replyTag : TagFirst codec (responseMessage m s user atRequest response codec crypto)
    (responseUsm m s user atRequest response codec crypto)

variable {m s user atDiscovery atRequest salt data response}

theorem makeAuthprivRequest_eq (hber : codec.EncodesBer) : ∃ scopedBytes,
    scopedDataBytes codec (requestMessage m s user atDiscovery salt data codec crypto).scopedData = some scopedBytes ∧
    makeAuthprivRequest codec crypto m (peerOf s user atDiscovery) data salt =
      .ok (wire (requestMessage m s user atDiscovery salt data codec crypto)
        (requestUsm m s user atDiscovery salt data codec crypto) scopedBytes) := by
  obtain ⟨pt, hpt⟩ := hber.scopedPdu (requestScoped s data)
  have hct : aesCfbEncrypt crypto pt user.privKey s.engineBoots (engineTime atDiscovery) salt =
      .ok (encryptedFor s user codec crypto (requestScoped s data) (engineTime atDiscovery) salt, salt.1) := by
    rw [aesCfbEncrypt_eq crypto pt _ _ user.length_privKey, encryptedFor, hpt]
    rfl
  have hencode : ∀ u : USMSecurityParameters, codec.encodeMessage
      { requestMessage m s user atDiscovery salt data codec crypto with securityParameters := usmBytes u } =
        some (wire (requestMessage m s user atDiscovery salt data codec crypto) u (octetString
          (encryptedFor s user codec crypto (requestScoped s data) (engineTime atDiscovery) salt))) :=
    fun u => hber.message _ _ rfl
  refine ⟨_, rfl, ?_⟩
  unfold makeAuthprivRequest
  dsimp only [peerOf]
  rw [show codec.encodeScoped { engineId := s.engineId, name := [], data } = some pt from hpt, expect_some]
  refine bind_eq_ok_iff.2 ⟨pt, rfl, bind_eq_ok_iff.2 ⟨_, hct, ?_⟩⟩
  refine bind_eq_ok_iff.2 ⟨_, expect_eq_ok_iff.2 (hber.usm _), ?_⟩
  refine bind_eq_ok_iff.2 ⟨_, expect_eq_ok_iff.2 (hencode _), ?_⟩
  refine bind_eq_ok_iff.2 ⟨_, hmacSign_eq .., ?_⟩
  refine bind_eq_ok_iff.2 ⟨_, expect_eq_ok_iff.2 (hber.usm _), ?_⟩
  exact expect_eq_ok_iff.2 (hencode _)

/-- What is encrypted for the user opens again. -/
theorem decrypt_encryptedFor (s : AgentState) (user : UsmUser) (hinverts : crypto.Inverts) {p : ScopedPdu} {pt : Bytes}
    (hpt : codec.encodeScoped p = some pt) (time : UInt32) (salt : Salt) :
    aesCfbDecrypt crypto (encryptedFor s user codec crypto p time salt) user.privKey s.engineBoots time salt.1 =
      .ok pt := by
  rw [aesCfbDecrypt_eq crypto _ _ _ user.length_privKey, encryptedFor, hpt, hinverts]
  rfl

theorem openScoped_of_encrypted {message : Message} {u : USMSecurityParameters} {ct pt : Bytes} {boots time : UInt32}
    (hct : message.scopedData = .encryptedPdu ct) (hpriv : message.wantPriv = true)
    (hboots : tryU32 u.authoritativeEngineBoots = some boots) (htime : tryU32 u.authoritativeEngineTime = some time)
    (hopen : aesCfbDecrypt crypto ct user.privKey boots time u.privacyParameters = .ok pt) :
    openScoped codec crypto message u user = .ok (codec.decodeScoped pt) := by
  unfold openScoped
  rw [hct]
  dsimp only
  rw [if_pos hpriv, hboots, htime]
  exact bind_eq_ok_iff.2 ⟨pt, hopen, rfl⟩

theorem openScoped_request (hber : codec.EncodesBer) (hinverts : crypto.Inverts)
    (hclear : ClearExchange m s user atDiscovery atRequest salt data response codec crypto) :
    openScoped codec crypto (secured (requestMessage m s user atDiscovery salt data codec crypto)
        (requestUsm m s user atDiscovery salt data codec crypto))
      (requestUsm m s user atDiscovery salt data codec crypto) user = .ok (some (requestScoped s data)) := by
  obtain ⟨pt, hpt⟩ := hber.scopedPdu (requestScoped s data)
  have hpriv : (secured (requestMessage m s user atDiscovery salt data codec crypto)
      (requestUsm m s user atDiscovery salt data codec crypto)).wantPriv = true :=
    show ((3 : UInt8) &&& 0x02 != 0) = true by decide
  have hboots : tryU32 (requestUsm m s user atDiscovery salt data codec crypto).authoritativeEngineBoots =
      some s.engineBoots := tryU32_toNat _
  have htime : tryU32 (requestUsm m s user atDiscovery salt data codec crypto).authoritativeEngineTime =
      some (engineTime atDiscovery) := tryU32_toNat _
  have hdecrypt := decrypt_encryptedFor s user hinverts hpt (engineTime atDiscovery) salt
  rw [openScoped_of_encrypted rfl hpriv hboots htime hdecrypt, hclear.requestPdu pt hpt]

theorem sealScoped_response (hber : codec.EncodesBer) :
    sealScoped codec crypto user s atRequest (responseScoped s response) true = .ok
      ((responseMessage m s user atRequest response codec crypto).scopedData, atRequest.salt.1) := by
  obtain ⟨pt, hpt⟩ := hber.scopedPdu (responseScoped s response)
  unfold sealScoped
  rw [if_pos rfl, hpt, expect_some]
  refine bind_eq_ok_iff.2 ⟨pt, rfl, bind_eq_ok_iff.2 ⟨_, aesCfbEncrypt_eq crypto pt _ _ user.length_privKey _, ?_⟩⟩
  rw [responseMessage, encryptedFor, hpt]
  rfl

/-- The reply names the user that the request decodes to. -/
theorem replyUsm_request
    (hname : codec.decodeUsm (usmBytes (requestUsm m s user atDiscovery salt data codec crypto)) =
      some (requestUsm m s user atDiscovery salt data codec crypto)) :
    replyUsm codec (secured (requestMessage m s user atDiscovery salt data codec crypto)
      (requestUsm m s user atDiscovery salt data codec crypto)) s atRequest atRequest.salt.1 =
      unsignedUsm m s atRequest := by
  rw [replyUsm, secured, hname]
  rfl

/-- The agent answers the request with the response, encrypted and signed. -/
theorem handle_request (hber : codec.EncodesBer) (hinverts : crypto.Inverts)
    (huser : s.users.lookup m.userName = some user) (hid : s.engineId ≠ [])
    {values : Values} (hdispatch : dispatch values data = .ok (some response))
    (hclear : ClearExchange m s user atDiscovery atRequest salt data response codec crypto) {scopedBytes : Bytes}
    (hdata : scopedDataBytes codec (requestMessage m s user atDiscovery salt data codec crypto).scopedData =
      some scopedBytes) : ∃ replyBytes,
    scopedDataBytes codec (responseMessage m s user atRequest response codec crypto).scopedData = some replyBytes ∧
    handleV3Datagram codec crypto (wire (requestMessage m s user atDiscovery salt data codec crypto)
        (requestUsm m s user atDiscovery salt data codec crypto) scopedBytes) s atRequest values =
      .ok (some (wire (responseMessage m s user atRequest response codec crypto)
        (responseUsm m s user atRequest response codec crypto) replyBytes)) := by
  have hdecodes := hclear.request _ hdata
  have hfind : s.findUser (requestUsm m s user atDiscovery salt data codec crypto).userName = some user := by
    show s.users.lookup ((String.fromUTF8? ⟨(utf8 m.userName).toArray⟩).getD "") = _
    rw [fromUTF8?_utf8]
    exact huser
  have hverify := verifyHmac_signed hdata hclear.requestTag
  have hopen := openScoped_request hber hinverts hclear
  have husm : replyUsm codec _ s atRequest atRequest.salt.1 = unsignedUsm m s atRequest := replyUsm_request hdecodes.2
  have hseal : sealScoped codec crypto user s atRequest (responseScoped s response) true = .ok
      ((responseMessage m s user atRequest response codec crypto).scopedData, atRequest.salt.1) :=
    sealScoped_response hber
  have hreply := buildAuthenticatedReply_signed hber (secured (requestMessage m s user atDiscovery salt data codec crypto)
      (requestUsm m s user atDiscovery salt data codec crypto)) hseal rfl (husm ▸ hclear.replyPlace)
  rw [husm] at hreply
  have hne : (requestUsm m s user atDiscovery salt data codec crypto).authoritativeEngineId ≠ [] := hid
  refine ⟨_, rfl, ?_⟩
  rw [hdecodes.handleV3Datagram_eq, if_neg hne, authenticatedPath_eq_ok_some_iff]
  refine ⟨user, ⟨rfl, hfind, fun _ => hverify⟩, ?_⟩
  refine bind_eq_ok_iff.2 ⟨_, hopen, bind_eq_ok_iff.2 ⟨_, hdispatch, ?_⟩⟩
  have hpriv : ((3 : UInt8) &&& 0x02 != 0) = true := by decide
  show some <$> buildAuthenticatedReply codec crypto _ user s atRequest (responseScoped s response)
    ((3 : UInt8) &&& 0x02 != 0) = _
  rw [hpriv, hreply]
  rfl

theorem openReply_eq (hber : codec.EncodesBer) (hinverts : crypto.Inverts)
    (hclear : ClearExchange m s user atDiscovery atRequest salt data response codec crypto) {replyBytes : Bytes}
    (hdata : scopedDataBytes codec (responseMessage m s user atRequest response codec crypto).scopedData =
      some replyBytes) :
    openReply codec crypto (peerOf s user atDiscovery) (wire (responseMessage m s user atRequest response codec crypto)
      (responseUsm m s user atRequest response codec crypto) replyBytes) = .ok (some response) := by
  obtain ⟨pt, hpt⟩ := hber.scopedPdu (responseScoped s response)
  have hdecodes := hclear.reply _ hdata
  have hverify := verifyHmac_signed hdata hclear.replyTag
  have hopen := decrypt_encryptedFor s user hinverts hpt (engineTime atRequest) atRequest.salt
  unfold openReply
  rw [hdecodes.1]
  dsimp only
  rw [hdecodes.2]
  refine bind_eq_ok_iff.2 ⟨true, hverify, ?_⟩
  dsimp only [secured, responseMessage, responseUsm, signed, unsignedUsm, peerOf]
  rw [tryU32_toNat, tryU32_toNat]
  refine bind_eq_ok_iff.2 ⟨_, rfl, bind_eq_ok_iff.2 ⟨_, rfl, bind_eq_ok_iff.2 ⟨pt, hopen, ?_⟩⟩⟩
  rw [hclear.responsePdu pt hpt]
  rfl

end Exchange

/-- A manager with the passphrases of a registered user discovers the agent and gets, encrypted and verified, the
response that the agent makes of the values it has when the request arrives. -/
theorem authpriv_session (codec : V3Codec) (crypto : Crypto) (sha256 : Bytes → Bytes) (hber : codec.EncodesBer)
    (hinverts : crypto.Inverts) (m : Manager) (s₀ s : AgentState) (user : UsmUser)
    (hreg : s₀.registerUser sha256 m.userName m.authPass m.privPass = .ok s)
    (huser : s.users.lookup m.userName = some user) (hid : s₀.engineId ≠ []) (atDiscovery atRequest : Surroundings)
    (salt : Salt) (seen values : Values) (data : Pdus) (response : Pdu)
    (hdispatch : dispatch values data = .ok (some response))
    (hclear : ClearExchange m s user atDiscovery atRequest salt data response codec crypto) :
    m.ask codec crypto sha256 s atDiscovery atRequest seen values salt data = .ok (some response) := by
  obtain ⟨helloBytes, hhello⟩ := hber.scopedData (discoveryMessage m).scopedData
  obtain ⟨reportBytes, hreport⟩ := hber.scopedData (reportMessage m s).scopedData
  obtain ⟨requestBytes, hrequest, hmake⟩ : ∃ scopedBytes, scopedDataBytes codec
      (requestMessage m s user atDiscovery salt data codec crypto).scopedData = some scopedBytes ∧ _ :=
    makeAuthprivRequest_eq hber
  have hsid : s.engineId ≠ [] := (registerUser_cases hreg).1 ▸ hid
  obtain ⟨replyBytes, hreplyBytes, hreply⟩ := handle_request hber hinverts huser hsid hdispatch hclear hrequest
  obtain ⟨user', huser', hmeet⟩ := meet_report hreg hclear.report hreport
  obtain rfl : user' = user := Option.some.inj (huser'.symm.trans huser)
  have hreported := handle_discovery hber crypto m s atDiscovery seen hclear.hello hhello hreport
  refine bind_eq_ok_iff.2 ⟨_, makeDiscoveryRequest_eq hber m hhello, bind_eq_ok_iff.2 ⟨_, hreported, ?_⟩⟩
  refine bind_eq_ok_iff.2 ⟨_, hmeet, bind_eq_ok_iff.2 ⟨_, hmake, bind_eq_ok_iff.2 ⟨_, hreply, ?_⟩⟩⟩
  exact openReply_eq hber hinverts hclear hreplyBytes

end

/-! ### The gateway of the tests -/

def sessionManager : Manager :=
  { userName := "gateway"
    authPass := [0x61, 0x75, 0x74, 0x68, 0x70, 0x61, 0x73, 0x73, 0x31, 0x32, 0x33, 0x34]
    privPass := [0x70, 0x72, 0x69, 0x76, 0x70, 0x61, 0x73, 0x73, 0x35, 0x36, 0x37, 0x38]
    messageId := 7777, requestId := 7777 }

def sessionAuthKey : Bytes :=
  [0x8E, 0x6E, 0xA7, 0x56, 0x66, 0x51, 0xF7, 0xE0, 0xE7, 0x7D, 0x16, 0x6B, 0x00, 0x25, 0x7B, 0x29, 0x08, 0x71, 0x8B,
    0x3E, 0x79, 0xAD, 0x3F, 0x15, 0xF1, 0x44, 0x84, 0xE9, 0xA2, 0xF0, 0xBD, 0x34]

def sessionPrivKey : Bytes :=
  [0x72, 0xCB, 0x59, 0x06, 0xBE, 0x2B, 0x2D, 0x31, 0x8B, 0x44, 0x8D, 0x6D, 0x2D, 0xE0, 0x37, 0x35, 0x45, 0xBB, 0x26,
    0x1D, 0x6E, 0xAC, 0x70, 0x07, 0xAE, 0xA2, 0x72, 0xBC, 0xA8, 0xA4, 0xE9, 0xA9]

/-- The digests of the stretched passphrases. -/
def sessionAuthDigest : Bytes :=
  [0x86, 0x2F, 0x65, 0x78, 0x15, 0xB0, 0xC5, 0x5D, 0x62, 0x07, 0xBE, 0xFE, 0x8F, 0xEF, 0x0C, 0xAF, 0x7B, 0xC9, 0x0F,
    0x60, 0x96, 0x5A, 0xC2, 0x79, 0xD2, 0x41, 0xDE, 0x4C, 0x15, 0x50, 0x58, 0x08]

def sessionPrivDigest : Bytes :=
  [0x60, 0x06, 0x5B, 0xF5, 0xEE, 0xA4, 0x6E, 0x9D, 0x54, 0xAD, 0x02, 0x54, 0x0C, 0x45, 0x88, 0xAD, 0xF2, 0x05, 0x07,
    0x42, 0x88, 0x50, 0x24, 0x5B, 0x28, 0x02, 0x1E, 0xFB, 0x83, 0x8E, 0xB1, 0xB9]

/-- SHA-256 of the two stretched passphrases, and of the two localizations. -/
def sessionSha256 (bytes : Bytes) : Bytes :=
  if bytes.length = 1048576 ∧ bytes.head? = some 0x61 then sessionAuthDigest
  else if bytes.length = 1048576 ∧ bytes.head? = some 0x70 then sessionPrivDigest
  else if bytes.length = 77 ∧ bytes.head? = some 0x86 then sessionAuthKey
  else if bytes.length = 77 ∧ bytes.head? = some 0x60 then sessionPrivKey
  else List.replicate 32 0

def sessionUser : UsmUser := ⟨sessionAuthKey, sessionPrivKey.take privKeyLen, rfl⟩

def newAgent : AgentState := { engineId := mockEngineId, engineBoots := 1, users := ∅ }

def sessionAgent : AgentState := { newAgent with users := newAgent.users.insert "gateway" sessionUser }

def discoveredAt : Surroundings :=
  { elapsedSecs := 3, salt := ⟨[0x5A, 0x11, 0xC0, 0x3E, 0x77, 0x08, 0xD4, 0x62], rfl⟩ }

def askedAt : Surroundings :=
  { elapsedSecs := 5, salt := ⟨[0xB3, 0x05, 0xC8, 0x2F, 0x61, 0xDA, 0x14, 0x9E], rfl⟩ }

def sessionSalt : Salt := ⟨[0x4D, 0x1C, 0x77, 0xE2, 0x90, 0x3B, 0xA6, 0x58], rfl⟩

def sessionData : Pdus := .getRequest (getOne 7777 inputCurrent)

def sessionResponse : Pdu :=
  { requestId := 7777, errorStatus := 0, errorIndex := 0
    variableBindings := [{ name := inputCurrent, value := .value (.integer 1500) }] }

def sessionRequestPt : Bytes :=
  [0x30, 0x35, 0x04, 0x0D, 0x80, 0x00, 0x86, 0x9F, 0x05, 0x6D, 0x6F, 0x63, 0x6B, 0x00, 0x00, 0x00, 0x01, 0x04, 0x00,
    0xA0, 0x22, 0x02, 0x02, 0x1E, 0x61, 0x02, 0x01, 0x00, 0x02, 0x01, 0x00, 0x30, 0x16, 0x30, 0x14, 0x06, 0x10, 0x2B,
    0x06, 0x01, 0x04, 0x01, 0x8D, 0x36, 0x04, 0x01, 0x04, 0x03, 0x01, 0x03, 0x01, 0x01, 0x01, 0x05, 0x00]

def sessionResponsePt : Bytes :=
  [0x30, 0x37, 0x04, 0x0D, 0x80, 0x00, 0x86, 0x9F, 0x05, 0x6D, 0x6F, 0x63, 0x6B, 0x00, 0x00, 0x00, 0x01, 0x04, 0x00,
    0xA2, 0x24, 0x02, 0x02, 0x1E, 0x61, 0x02, 0x01, 0x00, 0x02, 0x01, 0x00, 0x30, 0x18, 0x30, 0x16, 0x06, 0x10, 0x2B,
    0x06, 0x01, 0x04, 0x01, 0x8D, 0x36, 0x04, 0x01, 0x04, 0x03, 0x01, 0x03, 0x01, 0x01, 0x01, 0x02, 0x02, 0x05, 0xDC]

def sessionScopedBytes (p : ScopedPdu) : Bytes :=
  if p = requestScoped sessionAgent sessionData then sessionRequestPt
  else if p = responseScoped sessionAgent sessionResponse then sessionResponsePt
  else if p = reportScoped sessionManager sessionAgent then
    [0x30, 0x30, 0x04, 0x0D, 0x80, 0x00, 0x86, 0x9F, 0x05, 0x6D, 0x6F, 0x63, 0x6B, 0x00, 0x00, 0x00, 0x01, 0x04, 0x00,
    0xA8, 0x1D, 0x02, 0x02, 0x1E, 0x61, 0x02, 0x01, 0x00, 0x02, 0x01, 0x00, 0x30, 0x11, 0x30, 0x0F, 0x06, 0x0A, 0x2B,
    0x06, 0x01, 0x06, 0x03, 0x0F, 0x01, 0x01, 0x04, 0x00, 0x02, 0x01, 0x01]
  else
    [0x30, 0x12, 0x04, 0x00, 0x04, 0x00, 0xA0, 0x0C, 0x02, 0x02, 0x1E, 0x61, 0x02, 0x01, 0x00, 0x02, 0x01, 0x00, 0x30,
    0x00]

def sessionRequestCt : Bytes :=
  [0xC4, 0x68, 0x4D, 0x4D, 0xF8, 0xBE, 0x42, 0x83, 0x6E, 0x96, 0x48, 0xF4, 0x5D, 0x83, 0x61, 0x42, 0x39, 0x56, 0x94,
    0xD7, 0x53, 0x3B, 0x33, 0x82, 0xD0, 0xFF, 0x67, 0x9B, 0x1D, 0x2E, 0xA8, 0x03, 0x47, 0x27, 0x8D, 0x1D, 0x15, 0x65,
    0xE0, 0xBA, 0x9F, 0x4A, 0x56, 0x65, 0x99, 0x3F, 0xA8, 0x7B, 0xA8, 0xC7, 0x64, 0x0B, 0x7D, 0x8A, 0x9B]

def sessionResponseCt : Bytes :=
  [0x9E, 0x4C, 0x5C, 0x42, 0xFD, 0x83, 0xF9, 0x30, 0xC6, 0x7C, 0xBF, 0xD4, 0xC1, 0x74, 0x65, 0x74, 0x76, 0x51, 0x99,
    0x01, 0xEB, 0xD9, 0x0D, 0xAB, 0x42, 0x92, 0x6B, 0x27, 0x39, 0x6A, 0x20, 0x13, 0xD3, 0x9F, 0x6E, 0x27, 0x82, 0xD9,
    0xA6, 0x55, 0x3F, 0xC3, 0xBC, 0x14, 0x7E, 0x96, 0xA5, 0x77, 0x46, 0x9E, 0x15, 0x55, 0x2C, 0x67, 0xD2, 0xA6, 0x2C]

def sessionRequest : Message := authprivMessage sessionManager sessionRequestCt

def sessionReply : Message :=
  { version := 3, globalData := managerHeader 7777 0x03, securityParameters := []
    scopedData := .encryptedPdu sessionResponseCt }

def sessionRequestUsm (tag : Bytes) : USMSecurityParameters :=
  { authprivUsm sessionManager (peerOf sessionAgent sessionUser discoveredAt) sessionSalt.1 with
    authenticationParameters := tag }

def sessionReplyUsm (tag : Bytes) : USMSecurityParameters :=
  { unsignedUsm sessionManager sessionAgent askedAt with authenticationParameters := tag }

def sessionRequestDigest : Digest :=
  ⟨[0x34, 0xC4, 0xDC, 0x9E, 0x2C, 0xA3, 0x36, 0xA1, 0x41, 0x36, 0xDF, 0x18, 0x92, 0x62, 0xC5, 0x5A, 0xB6, 0xC0, 0x44,
    0xC0, 0x0C, 0xB6, 0xD1, 0x94, 0xD3, 0x47, 0xEA, 0x9B, 0x14, 0x96, 0xCD, 0xA0], rfl⟩

def sessionReplyDigest : Digest :=
  ⟨[0x93, 0xAE, 0x0E, 0x8E, 0x0D, 0x95, 0x1F, 0xDA, 0xA5, 0x44, 0xF5, 0x29, 0xB8, 0xD1, 0xDA, 0x51, 0xAA, 0x5E, 0xA0,
    0x1E, 0x7D, 0xFA, 0xD8, 0x4A, 0xAC, 0xF1, 0x05, 0xE5, 0x44, 0x15, 0x29, 0xB8], rfl⟩

/-- The two MACs, and AES under the two IVs as far as it is known. -/
def sessionCrypto : Crypto where
  hmacSha256 _ m :=
    if m = wire sessionRequest (sessionRequestUsm zeroAuth) (octetString sessionRequestCt) then sessionRequestDigest.1
    else if m = wire sessionReply (sessionReplyUsm zeroAuth) (octetString sessionResponseCt) then sessionReplyDigest.1
    else List.replicate 32 0
  length_hmacSha256 _ m := by
    split
    · exact sessionRequestDigest.2
    · split
      · exact sessionReplyDigest.2
      · rfl
  cfbEncrypt _ iv text :=
    if iv = ivOf 1 3 sessionSalt then Equiv.swap sessionRequestPt sessionRequestCt text
    else if iv = ivOf 1 5 askedAt.salt then Equiv.swap sessionResponsePt sessionResponseCt text
    else text
  cfbDecrypt _ iv text :=
    if iv = ivOf 1 3 sessionSalt then Equiv.swap sessionRequestPt sessionRequestCt text
    else if iv = ivOf 1 5 askedAt.salt then Equiv.swap sessionResponsePt sessionResponseCt text
    else text

def sessionSent : List (Message × USMSecurityParameters) :=
  [(discoveryMessage sessionManager, discoveryUsm),
    (reportMessage sessionManager sessionAgent, reportUsm sessionAgent discoveredAt),
    (sessionRequest, sessionRequestUsm (sessionRequestDigest.1.take authTruncLen)),
    (sessionReply, sessionReplyUsm (sessionReplyDigest.1.take authTruncLen))]

def sessionDataBytes : ScopedPduData → Bytes
  | .cleartextPdu p => sessionScopedBytes p
  | .encryptedPdu ct => octetString ct

/-- A codec that decodes the four datagrams, and encodes in BER. -/
def sessionCodec : V3Codec where
  decodeMessage bytes :=
    (sessionSent.find? fun e => wire e.1 e.2 (sessionDataBytes e.1.scopedData) = bytes).map fun e => secured e.1 e.2
  decodeUsm bytes := (sessionSent.find? fun e => usmBytes e.2 = bytes).map Prod.snd
  decodeScoped bytes :=
    if bytes = sessionRequestPt then some (requestScoped sessionAgent sessionData)
    else if bytes = sessionResponsePt then some (responseScoped sessionAgent sessionResponse)
    else none
  encodeMessage m := some (messageBytes m (sessionDataBytes m.scopedData))
  encodeUsm u := some (usmBytes u)
  encodeScoped p := some (sessionScopedBytes p)

theorem sessionCodec_encodesBer : sessionCodec.EncodesBer where
  usm _ := rfl
  scopedPdu p := ⟨sessionScopedBytes p, rfl⟩
  message m bytes h := by
    obtain ⟨version, globalData, securityParameters, data⟩ := m
    cases data <;> cases h <;> rfl

theorem sessionCrypto_inverts : sessionCrypto.Inverts := by
  intro key iv text
  simp only [sessionCrypto]
  split
  · exact Equiv.swap_apply_self _ _ _
  · split
    · exact Equiv.swap_apply_self _ _ _
    · rfl

theorem sessionRequest_eq : requestMessage sessionManager sessionAgent sessionUser discoveredAt sessionSalt sessionData
    sessionCodec sessionCrypto = sessionRequest := by
  decide +kernel

theorem sessionRequestUsm_eq : requestUsm sessionManager sessionAgent sessionUser discoveredAt sessionSalt sessionData
    sessionCodec sessionCrypto = sessionRequestUsm (sessionRequestDigest.1.take authTruncLen) := by
  decide +kernel

theorem sessionReply_eq : responseMessage sessionManager sessionAgent sessionUser askedAt sessionResponse sessionCodec
    sessionCrypto = sessionReply := by
  decide +kernel

theorem sessionReplyUsm_eq : responseUsm sessionManager sessionAgent sessionUser askedAt sessionResponse sessionCodec
    sessionCrypto = sessionReplyUsm (sessionReplyDigest.1.take authTruncLen) := by
  decide +kernel

theorem sessionClear : ClearExchange sessionManager sessionAgent sessionUser discoveredAt askedAt sessionSalt sessionData
    sessionResponse sessionCodec sessionCrypto := by
  refine ⟨?_, ?_, ?_, ?_, ?_, ?_, ?_, ?_, ?_⟩
  · rintro _ ⟨⟩
    exact ⟨by decide +kernel, by decide +kernel⟩
  · rintro _ ⟨⟩
    exact ⟨by decide +kernel, by decide +kernel⟩
  · rw [sessionRequest_eq, sessionRequestUsm_eq]
    rintro _ ⟨⟩
    exact ⟨by decide +kernel, by decide +kernel⟩
  · rintro _ ⟨⟩
    decide +kernel
  · rw [sessionRequest_eq, sessionRequestUsm_eq]
    rintro _ ⟨⟩ before after hraw
    have hfound : findWindow
        (authNeedle (sessionRequestUsm (sessionRequestDigest.1.take authTruncLen)).authenticationParameters)
        (wire sessionRequest (sessionRequestUsm (sessionRequestDigest.1.take authTruncLen))
          (octetString sessionRequestCt)) =
        some (beforeAuth sessionRequest (sessionRequestUsm (sessionRequestDigest.1.take authTruncLen))
          (octetString sessionRequestCt)).length := by
      decide +kernel
    exact findWindow_min (authNeedle_ne_nil _) hraw hfound
  · rw [sessionReply_eq, sessionReplyUsm_eq]
    rintro _ ⟨⟩
    exact ⟨by decide +kernel, by decide +kernel⟩
  · rintro _ ⟨⟩
    decide +kernel
  · rw [sessionReply_eq]
    rintro _ ⟨⟩
    decide +kernel
  · rw [sessionReply_eq, sessionReplyUsm_eq]
    rintro _ ⟨⟩ before after hraw
    have hfound : findWindow
        (authNeedle (sessionReplyUsm (sessionReplyDigest.1.take authTruncLen)).authenticationParameters)
        (wire sessionReply (sessionReplyUsm (sessionReplyDigest.1.take authTruncLen))
          (octetString sessionResponseCt)) =
        some (beforeAuth sessionReply (sessionReplyUsm (sessionReplyDigest.1.take authTruncLen))
          (octetString sessionResponseCt)).length := by
      decide +kernel
    exact findWindow_min (authNeedle_ne_nil _) hraw hfound

/-- The stretched passphrase is told by its length and its first octet. -/
theorem stretched_head {password : Bytes} {first : UInt8} (hfirst : password.head? = some first) :
    ∃ fed : Bytes, stretchPassword password = .ok ⟨fed⟩ ∧ fed.length = 1048576 ∧ fed.head? = some first := by
  have hne : password ≠ [] := fun h => by rw [h] at hfirst; cases hfirst
  obtain ⟨s, hs, hstretched⟩ := stretchPassword_stretched hne
  have hlength : s.hasher.fed.length = 1048576 := hstretched.length_fed
  refine ⟨s.hasher.fed, hs, hlength, ?_⟩
  have hread := hstretched.fed 0 (by omega)
  rw [List.head?_eq_getElem?, hread, Nat.zero_add, Nat.zero_mod, ← List.head?_eq_getElem?, hfirst]

theorem sessionAgent_registered : newAgent.registerUser sessionSha256 "gateway" sessionManager.authPass
    sessionManager.privPass = .ok sessionAgent := by
  obtain ⟨authFed, hauth, hauthLength, hauthHead⟩ :=
    stretched_head (show sessionManager.authPass.head? = some 0x61 from rfl)
  obtain ⟨privFed, hpriv, hprivLength, hprivHead⟩ :=
    stretched_head (show sessionManager.privPass.head? = some 0x70 from rfl)
  have hauthDigest : sessionSha256 authFed = sessionAuthDigest := if_pos ⟨hauthLength, hauthHead⟩
  have hprivDigest : sessionSha256 privFed = sessionPrivDigest := by
    unfold sessionSha256
    rw [if_neg (by simp [hprivHead]), if_pos ⟨hprivLength, hprivHead⟩]
  have hauthKey : deriveLocalizedKey sessionSha256 sessionManager.authPass mockEngineId = .ok sessionAuthKey := by
    rw [deriveLocalizedKey_of_stretch hauth, hauthDigest]
    decide +kernel
  have hprivKey : deriveLocalizedKey sessionSha256 sessionManager.privPass mockEngineId = .ok sessionPrivKey := by
    rw [deriveLocalizedKey_of_stretch hpriv, hprivDigest]
    decide +kernel
  refine bind_eq_ok_iff.2 ⟨_, hauthKey, bind_eq_ok_iff.2 ⟨_, hprivKey, ?_⟩⟩
  rw [dif_pos (by decide)]
  rfl

/-- The round trip of the tests. -/
theorem authpriv_session_gateway : sessionManager.ask sessionCodec sessionCrypto sessionSha256 sessionAgent discoveredAt
    askedAt ∅ (initialValues ℚ) sessionSalt sessionData = .ok (some sessionResponse) := by
  have hdispatch : dispatch (initialValues ℚ) sessionData = .ok (some sessionResponse) := by decide +kernel
  exact authpriv_session _ _ _ sessionCodec_encodesBer sessionCrypto_inverts _ newAgent _ sessionUser
    sessionAgent_registered (Finmap.lookup_insert _) (by decide) _ _ _ _ _ _ _ hdispatch sessionClear

end EmsFixtures.Snmp
