import EmsFixtures.Snmp.Wire

/-!
# Signed replies

A reply is encoded with 24 zero octets for the tag, and the tag is copied into the first `04 18 00…00` of the encoding.
That is the tag's place unless an earlier field holds the same 26 octets; then the field is overwritten and the tag
stays zero.
-/

namespace EmsFixtures.Snmp

open Panics

section

variable [OidRule]

omit [OidRule] in
theorem copyFromSlice_needle {old tag l : Bytes} {pos : Nat} (hold : old.length = authTruncLen)
    (htag : tag.length = authTruncLen) (h : findWindow (authNeedle old) l = some pos) :
    ∃ pre post, l = pre ++ authNeedle old ++ post ∧ pre.length = pos ∧
      copyFromSlice l (pos + 2) authTruncLen tag = .ok (pre ++ authNeedle tag ++ post) := by
  obtain ⟨pre, post, rfl, rfl⟩ := findWindow_eq_append h
  refine ⟨pre, post, rfl, rfl, ?_⟩
  have := copyFromSlice_append (pre ++ [0x04, UInt8.ofNat authTruncLen]) old tag post (htag.trans hold.symm)
  rw [List.length_append, hold] at this
  simpa [authNeedle] using this

omit [OidRule] in
theorem length_zeroAuth : zeroAuth.length = authTruncLen := List.length_replicate

omit [OidRule] in
/-- The placeholder is found in an encoding that carries it: at its place, or wholly before it. -/
theorem findWindow_placeholder (pre post : Bytes) :
    ∃ pos, findWindow (authNeedle zeroAuth) (pre ++ authNeedle zeroAuth ++ post) = some pos ∧
      ((pos = pre.length ∧ ¬ authNeedle zeroAuth <:+: pre) ∨
        (pos + (authNeedle zeroAuth).length ≤ pre.length ∧ authNeedle zeroAuth <:+: pre)) :=
  findWindow_split (by decide) pre post

variable {codec : V3Codec}

def encodeWithUsm (codec : V3Codec) (response : Message) (u : USMSecurityParameters) : Option Bytes := do
  let securityParameters ← codec.encodeUsm u
  codec.encodeMessage { response with securityParameters }

theorem encodeWithUsm_eq (hber : codec.EncodesBer) {response : Message} {scopedBytes : Bytes}
    (h : scopedDataBytes codec response.scopedData = some scopedBytes) (u : USMSecurityParameters) :
    encodeWithUsm codec response u = some (wire response u scopedBytes) := by
  unfold encodeWithUsm
  rw [hber.usm]
  exact hber.message _ _ h

theorem returns_sealScoped (hber : codec.EncodesBer) (crypto : Crypto) (user : UsmUser) (s : AgentState)
    (env : Surroundings) (responseScoped : ScopedPdu) (encrypt : Bool) :
    ∃ scopedData privParams scopedBytes,
      sealScoped codec crypto user s env responseScoped encrypt = .ok (scopedData, privParams) ∧
        scopedDataBytes codec scopedData = some scopedBytes := by
  cases encrypt with
  | false =>
    obtain ⟨bytes, hbytes⟩ := hber.scopedPdu responseScoped
    exact ⟨_, _, bytes, rfl, hbytes⟩
  | true =>
    obtain ⟨pt, hpt⟩ := hber.scopedPdu responseScoped
    obtain ⟨⟨ct, privParams⟩, hct⟩ := returns_aesCfbEncrypt crypto pt s.engineBoots (engineTime env) user.length_privKey
      env.salt
    refine ⟨.encryptedPdu ct, privParams, _, ?_, rfl⟩
    unfold sealScoped
    rw [if_pos rfl, hpt, expect_some]
    exact bind_eq_ok_iff.2 ⟨pt, rfl, bind_eq_ok_iff.2 ⟨_, hct, rfl⟩⟩

/-- A reply is its encoding with the zero tag, and the tag copied into the first placeholder. -/
theorem buildAuthenticatedReply_eq_ok (hber : codec.EncodesBer) {crypto : Crypto} {request : Message} {user : UsmUser}
    {s : AgentState} {env : Surroundings} {responseScoped : ScopedPdu} {encrypt : Bool} {scopedData : ScopedPduData}
    {privParams scopedBytes bytes reply : Bytes} {pos : Nat}
    (hseal : sealScoped codec crypto user s env responseScoped encrypt = .ok (scopedData, privParams))
    (hdata : scopedDataBytes codec scopedData = some scopedBytes)
    (hbytes :
      wire (replyMessage request scopedData encrypt) (replyUsm codec request s env privParams) scopedBytes = bytes)
    (hpos : findWindow (authNeedle zeroAuth) bytes = some pos)
    (hcopy : copyFromSlice bytes (pos + 2) authTruncLen (authTag crypto user.authKey bytes) = .ok reply) :
    buildAuthenticatedReply codec crypto request user s env responseScoped encrypt = .ok reply := by
  subst hbytes
  exact bind_eq_ok_iff.2 ⟨_, hseal, bind_eq_ok_iff.2 ⟨_, expect_eq_ok_iff.2 (hber.usm _), bind_eq_ok_iff.2
    ⟨_, expect_eq_ok_iff.2 (hber.message _ _ hdata), bind_eq_ok_iff.2 ⟨_, hmacSign_eq .., bind_eq_ok_iff.2
      ⟨pos, expect_eq_ok_iff.2 hpos, hcopy⟩⟩⟩⟩⟩

/-- A tag copied into an encoding with a zero tag takes the place of a placeholder, the right one unless an earlier one
stands before it. -/
theorem splice_tag {m : Message} {u : USMSecurityParameters} {scopedBytes tag : Bytes}
    (hu : u.authenticationParameters = zeroAuth) (htag : tag.length = authTruncLen) :
    ∃ pos pre post, findWindow (authNeedle zeroAuth) (wire m u scopedBytes) = some pos ∧
      wire m u scopedBytes = pre ++ authNeedle zeroAuth ++ post ∧
      copyFromSlice (wire m u scopedBytes) (pos + 2) authTruncLen tag = .ok (pre ++ authNeedle tag ++ post) ∧
      ((pre.length = (beforeAuth m u scopedBytes).length ∧ ¬ authNeedle zeroAuth <:+: beforeAuth m u scopedBytes) ∨
        (pre.length + (authNeedle zeroAuth).length ≤ (beforeAuth m u scopedBytes).length ∧
          authNeedle zeroAuth <:+: beforeAuth m u scopedBytes)) := by
  have hwire := wire_eq m u scopedBytes (hu ▸ length_zeroAuth)
  rw [hu] at hwire
  obtain ⟨pos, hpos, hcase⟩ := findWindow_placeholder (beforeAuth m u scopedBytes) (afterAuth u scopedBytes)
  rw [← hwire] at hpos
  obtain ⟨pre, post, hsplit, hlen, hcopy⟩ := copyFromSlice_needle length_zeroAuth htag hpos
  exact ⟨pos, pre, post, hpos, hsplit, hcopy, hlen ▸ hcase⟩

/-- `reply` is the response carrying as its tag the HMAC of the same encoding with the tag's octets zero, which is what
a receiver checks. -/
def Signed (codec : V3Codec) (crypto : Crypto) (authKey : Bytes) (response : Message) (u : USMSecurityParameters)
    (reply : Bytes) : Prop :=
  ∃ tag zeroed, encodeWithUsm codec response { u with authenticationParameters := zeroAuth } = some zeroed ∧
    hmacSign crypto authKey zeroed = .ok tag ∧
    encodeWithUsm codec response { u with authenticationParameters := tag } = some reply

/-- A reply is built, and it is the signed response to the request. -/
def ReplySigned (codec : V3Codec) (crypto : Crypto) (request : Message) (user : UsmUser) (s : AgentState)
    (env : Surroundings) (responseScoped : ScopedPdu) (encrypt : Bool) : Prop :=
  ∃ scopedData privParams reply,
    sealScoped codec crypto user s env responseScoped encrypt = .ok (scopedData, privParams) ∧
    buildAuthenticatedReply codec crypto request user s env responseScoped encrypt = .ok reply ∧
    Signed codec crypto user.authKey (replyMessage request scopedData encrypt)
      (replyUsm codec request s env privParams) reply

/-- Nothing encoded before the tag holds the placeholder's octets, or the tag happens to be zero. -/
def PlaceholderFirst (codec : V3Codec) (crypto : Crypto) (request : Message) (user : UsmUser) (s : AgentState)
    (env : Surroundings) (responseScoped : ScopedPdu) (encrypt : Bool) : Prop :=
  ∃ scopedData privParams scopedBytes,
    sealScoped codec crypto user s env responseScoped encrypt = .ok (scopedData, privParams) ∧
    scopedDataBytes codec scopedData = some scopedBytes ∧
    (¬ authNeedle zeroAuth <:+:
        beforeAuth (replyMessage request scopedData encrypt) (replyUsm codec request s env privParams) scopedBytes ∨
      authTag crypto user.authKey
        (wire (replyMessage request scopedData encrypt) (replyUsm codec request s env privParams) scopedBytes) = zeroAuth)

omit [OidRule] in
private theorem authNeedle_inj {a b : Bytes} (h : authNeedle a = authNeedle b) : a = b := by
  unfold authNeedle at h
  exact (List.cons_eq_cons.1 (List.cons_eq_cons.1 h).2).2

omit [OidRule] in
private theorem length_authNeedle (a : Bytes) : (authNeedle a).length = a.length + 2 := rfl

/-- The tag copied in makes the encoding that carries it iff its place is the first placeholder, or it is zero. -/
theorem wire_setAuth_eq_iff {m : Message} {u : USMSecurityParameters} {scopedBytes tag pre post : Bytes}
    (hu : u.authenticationParameters = zeroAuth) (htag : tag.length = authTruncLen)
    (hsplit : wire m u scopedBytes = pre ++ authNeedle zeroAuth ++ post)
    (hcase : (pre.length = (beforeAuth m u scopedBytes).length ∧ ¬ authNeedle zeroAuth <:+: beforeAuth m u scopedBytes) ∨
      (pre.length + (authNeedle zeroAuth).length ≤ (beforeAuth m u scopedBytes).length ∧
        authNeedle zeroAuth <:+: beforeAuth m u scopedBytes)) :
    wire m { u with authenticationParameters := tag } scopedBytes = pre ++ authNeedle tag ++ post ↔
      ¬ authNeedle zeroAuth <:+: beforeAuth m u scopedBytes ∨ tag = zeroAuth := by
  have hzero := wire_eq m u scopedBytes (hu ▸ length_zeroAuth)
  rw [hu, hsplit] at hzero
  have htagged : wire m { u with authenticationParameters := tag } scopedBytes =
      beforeAuth m u scopedBytes ++ authNeedle tag ++ afterAuth u scopedBytes := by
    rw [wire_eq m _ scopedBytes htag, beforeAuth_setAuth m u scopedBytes (hu ▸ htag.trans length_zeroAuth.symm)]
    rfl
  rw [htagged]
  -- the tag stands in its own place, or in an earlier one
  rcases hcase with ⟨hlen, hnot⟩ | ⟨hle, hin⟩
  · refine iff_of_true ?_ (Or.inl hnot)
    rw [List.append_assoc, List.append_assoc] at hzero
    obtain ⟨hpre, hrest⟩ := List.append_inj hzero hlen
    rw [hpre, (List.append_inj hrest rfl).2]
  · rw [replace_eq_iff (by rw [length_authNeedle, length_authNeedle, htag, length_zeroAuth]) hzero hle]
    constructor
    · exact fun h => Or.inr (authNeedle_inj h)
    · intro h
      rcases h with hnot | rfl
      · exact absurd hin hnot
      · rfl

theorem signed_splice_iff (hber : codec.EncodesBer) (crypto : Crypto) (authKey : Bytes) (response : Message)
    (u : USMSecurityParameters) {scopedBytes : Bytes} (hdata : scopedDataBytes codec response.scopedData = some scopedBytes)
    (hauth : u.authenticationParameters = zeroAuth) :
    ∃ pos reply, findWindow (authNeedle zeroAuth) (wire response u scopedBytes) = some pos ∧
      copyFromSlice (wire response u scopedBytes) (pos + 2) authTruncLen
        (authTag crypto authKey (wire response u scopedBytes)) = .ok reply ∧
      (Signed codec crypto authKey response u reply ↔ ¬ authNeedle zeroAuth <:+: beforeAuth response u scopedBytes ∨
        authTag crypto authKey (wire response u scopedBytes) = zeroAuth) := by
  have htag := length_authTag crypto authKey (wire response u scopedBytes)
  obtain ⟨pos, pre, post, hpos, hsplit, hcopy, hcase⟩ := splice_tag hauth htag
  have hzero : { u with authenticationParameters := zeroAuth } = u := by rw [← hauth]
  refine ⟨pos, _, hpos, hcopy, ?_⟩
  rw [← wire_setAuth_eq_iff hauth htag hsplit hcase]
  unfold Signed
  simp only [encodeWithUsm_eq hber hdata, hzero, hmacSign_eq, Option.some.injEq, Except.ok.injEq]
  constructor
  · intro h
    obtain ⟨tag, zeroed, rfl, rfl, h⟩ := h
    exact h
  · exact fun h => ⟨_, _, rfl, rfl, h⟩

/-- A reply is always built: the placeholder is in its own encoding. -/
theorem returns_buildAuthenticatedReply (hber : codec.EncodesBer) (crypto : Crypto) (request : Message) (user : UsmUser)
    (s : AgentState) (env : Surroundings) (responseScoped : ScopedPdu) (encrypt : Bool) :
    Returns (buildAuthenticatedReply codec crypto request user s env responseScoped encrypt) := by
  obtain ⟨scopedData, privParams, scopedBytes, hseal, hbytes⟩ :=
    returns_sealScoped hber crypto user s env responseScoped encrypt
  obtain ⟨pos, reply, hpos, hcopy, -⟩ := signed_splice_iff hber crypto user.authKey
    (replyMessage request scopedData encrypt) (replyUsm codec request s env privParams) hbytes rfl
  exact ⟨reply, buildAuthenticatedReply_eq_ok hber hseal hbytes rfl hpos hcopy⟩

private theorem messageId_of_wire {m : Message} {u : USMSecurityParameters} {version : ℤ}
    {scopedBytes idContent afterId afterHeader : Bytes} (hlen : (wire m u scopedBytes).length < 256 ^ 126)
    (h : wire m u scopedBytes =
      Ber.seq (Ber.integer version ++ (Ber.seq (Ber.tlv 0x02 idContent ++ afterId) ++ afterHeader))) :
    Ber.integerContent m.globalData.messageId = idContent := by
  rw [← List.append_nil (wire m u scopedBytes), wire, messageBytes] at hlen h
  rw [← List.append_nil (Ber.seq (Ber.integer version ++ _))] at h
  have hmessage := (Ber.tlv_append_inj hlen h).2.1
  have hlen := (Ber.length_lt_of_tlv_append hlen).1
  rw [messageContent, List.append_assoc, List.append_assoc] at hmessage hlen
  have hheader := (Ber.tlv_append_inj hlen hmessage).2.2
  have hlen := (Ber.length_lt_of_tlv_append hlen).2
  have hid := (Ber.tlv_append_inj hlen hheader).2.1
  have hlen := (Ber.length_lt_of_tlv_append hlen).1
  rw [List.append_assoc, List.append_assoc] at hid hlen
  exact (Ber.tlv_append_inj hlen hid).2.1

private theorem messageId_of_encodeWithUsm (hber : codec.EncodesBer) {response : Message} {u : USMSecurityParameters}
    {bytes idContent afterId afterHeader : Bytes} {version : ℤ} (henc : encodeWithUsm codec response u = some bytes)
    (hlen : bytes.length < 256 ^ 126)
    (h : bytes = Ber.seq (Ber.integer version ++ (Ber.seq (Ber.tlv 0x02 idContent ++ afterId) ++ afterHeader))) :
    Ber.integerContent response.globalData.messageId = idContent := by
  obtain ⟨scopedBytes, hbytes⟩ := hber.scopedData response.scopedData
  rw [encodeWithUsm_eq hber hbytes] at henc
  cases henc
  exact messageId_of_wire hlen h

/-- Replies are signed responses iff the placeholder of the tag is the first of its kind in their encoding. -/
theorem reply_signed_iff (codec : V3Codec) (crypto : Crypto) (hber : codec.EncodesBer) (request : Message)
    (user : UsmUser) (s : AgentState) (env : Surroundings) (responseScoped : ScopedPdu) (encrypt : Bool) :
    ReplySigned codec crypto request user s env responseScoped encrypt ↔
      PlaceholderFirst codec crypto request user s env responseScoped encrypt := by
  obtain ⟨scopedData, privParams, scopedBytes, hseal, hbytes⟩ :=
    returns_sealScoped hber crypto user s env responseScoped encrypt
  have hdet : ∀ {scopedData' privParams'},
      sealScoped codec crypto user s env responseScoped encrypt = .ok (scopedData', privParams') →
        scopedData' = scopedData ∧ privParams' = privParams := by
    intro scopedData' privParams' h
    rw [hseal] at h
    cases h
    exact ⟨rfl, rfl⟩
  obtain ⟨pos, reply, hpos, hcopy, hiff⟩ := signed_splice_iff hber crypto user.authKey
    (replyMessage request scopedData encrypt) (replyUsm codec request s env privParams) hbytes rfl
  have hreply := buildAuthenticatedReply_eq_ok hber hseal hbytes rfl hpos hcopy
  constructor
  · intro h
    obtain ⟨scopedData', privParams', reply', hseal', hreply', hsigned⟩ := h
    obtain ⟨rfl, rfl⟩ := hdet hseal'
    rw [hreply] at hreply'
    cases hreply'
    exact ⟨_, _, scopedBytes, hseal, hbytes, hiff.1 hsigned⟩
  · intro h
    obtain ⟨scopedData', privParams', scopedBytes', hseal', hbytes', h⟩ := h
    obtain ⟨rfl, rfl⟩ := hdet hseal'
    rw [hbytes] at hbytes'
    cases hbytes'
    exact ⟨_, _, reply, hseal, hreply, hiff.2 h⟩

end

/-! ### A gateway and its agent -/

def mockEngineId : Bytes := [0x80, 0x00, 0x86, 0x9F, 5, 0x6D, 0x6F, 0x63, 0x6B, 0, 0, 0, 1]

def gatewayName : Bytes := [0x67, 0x61, 0x74, 0x65, 0x77, 0x61, 0x79]

def gatewayUser : UsmUser := ⟨List.replicate 32 0xA5, List.replicate 16 0x5A, rfl⟩

def mockAgent : AgentState :=
  { engineId := mockEngineId, engineBoots := 1, users := HashMap.ofList [("gateway", gatewayUser)] }

def atBoot : Surroundings := { elapsedSecs := 0, salt := ⟨List.replicate 8 0, rfl⟩ }

def currentRequest : ScopedPdu := { engineId := mockEngineId, name := [], data := .getRequest (getOne 7 inputCurrent) }

def currentResponse : ScopedPdu :=
  { engineId := mockEngineId, name := []
    data := .response { requestId := 7, errorStatus := 0, errorIndex := 0
                        variableBindings := [{ name := inputCurrent, value := .value (.integer 1500) }] } }

def mockScopedBytes (p : ScopedPdu) : Bytes :=
  if p = currentRequest then
    [0x30, 0x34, 0x04, 0x0D, 0x80, 0x00, 0x86, 0x9F, 0x05, 0x6D, 0x6F, 0x63, 0x6B, 0x00, 0x00, 0x00, 0x01, 0x04,
    0x00, 0xA0, 0x21, 0x02, 0x01, 0x07, 0x02, 0x01, 0x00, 0x02, 0x01, 0x00, 0x30, 0x16, 0x30, 0x14, 0x06, 0x10,
    0x2B, 0x06, 0x01, 0x04, 0x01, 0x8D, 0x36, 0x04, 0x01, 0x04, 0x03, 0x01, 0x03, 0x01, 0x01, 0x01, 0x05, 0x00]
  else if p = currentResponse then
    [0x30, 0x36, 0x04, 0x0D, 0x80, 0x00, 0x86, 0x9F, 0x05, 0x6D, 0x6F, 0x63, 0x6B, 0x00, 0x00, 0x00, 0x01, 0x04,
    0x00, 0xA2, 0x23, 0x02, 0x01, 0x07, 0x02, 0x01, 0x00, 0x02, 0x01, 0x00, 0x30, 0x18, 0x30, 0x16, 0x06, 0x10,
    0x2B, 0x06, 0x01, 0x04, 0x01, 0x8D, 0x36, 0x04, 0x01, 0x04, 0x03, 0x01, 0x03, 0x01, 0x01, 0x01, 0x02, 0x02,
    0x05, 0xDC]
  else []

def gatewayUsm (tag privParams : Bytes) : USMSecurityParameters :=
  { authoritativeEngineId := mockEngineId, authoritativeEngineBoots := 1, authoritativeEngineTime := 0
    userName := gatewayName, authenticationParameters := tag, privacyParameters := privParams }

def gatewayMessage (messageId : ℤ) (flags : UInt8) (u : USMSecurityParameters) (data : ScopedPduData) : Message :=
  { version := 3, globalData := { messageId, maxSize := 1500, flags := [flags], securityModel := 3 }
    securityParameters := usmBytes u, scopedData := data }

def mockBytes (m : Message) : Bytes :=
  messageBytes m (match m.scopedData with
    | .cleartextPdu p => mockScopedBytes p
    | .encryptedPdu ct => Ber.octetString ct)

/-- A codec that decodes one message with its security parameters, and encodes in BER. -/
def mockCodec (message : Message) (u : USMSecurityParameters) : V3Codec where
  decodeMessage bytes := if bytes = mockBytes message then some message else none
  decodeUsm bytes := if bytes = usmBytes u then some u else none
  decodeScoped _ := none
  encodeMessage m := some (mockBytes m)
  encodeUsm u := some (usmBytes u)
  encodeScoped p := some (mockScopedBytes p)

theorem mockCodec_encodesBer (message : Message) (u : USMSecurityParameters) : (mockCodec message u).EncodesBer where
  usm _ := rfl
  scopedPdu p := ⟨mockScopedBytes p, rfl⟩
  message m bytes h := by
    obtain ⟨version, globalData, securityParameters, data⟩ := m
    cases data <;> cases h <;> rfl

abbrev Digest := { bytes : Bytes // bytes.length = 32 }

def mockCrypto (digests : List (Bytes × Digest)) : Crypto where
  hmacSha256 key m :=
    if key = gatewayUser.authKey then ((digests.lookup m).getD ⟨List.replicate 32 0, rfl⟩).1 else List.replicate 32 0
  length_hmacSha256 key m := by
    split
    · exact ((digests.lookup m).getD _).2
    · rfl
  cfbDecrypt _ _ ciphertext := ciphertext
  cfbEncrypt _ _ plaintext := plaintext

def requestDigest : Digest :=
  ⟨[0x4A, 0xA1, 0xEB, 0x00, 0xE6, 0x0E, 0x1E, 0xF9, 0xD7, 0xA4, 0xA1, 0xBA, 0x61, 0xD0, 0x43, 0x6F, 0x82, 0x04,
    0xDE, 0x0A, 0x52, 0x3B, 0x8D, 0x74, 0xA4, 0x06, 0xE1, 0x77, 0xCE, 0xAA, 0x16, 0x4A], rfl⟩

def plainRequest : Message := gatewayMessage 1 0x01 (gatewayUsm zeroAuth []) (.cleartextPdu currentRequest)

def plainCrypto : Crypto := mockCrypto
  [(mockBytes plainRequest, requestDigest),
    (wire (replyMessage plainRequest (.cleartextPdu currentResponse) false)
      (replyUsm (mockCodec plainRequest (gatewayUsm zeroAuth [])) plainRequest mockAgent atBoot [])
      (mockScopedBytes currentResponse),
      ⟨[0x83, 0x40, 0xF0, 0x3A, 0x57, 0x6E, 0x2B, 0xBD, 0xE1, 0x40, 0xAA, 0x40, 0x4A, 0xA6, 0x7F, 0x81, 0x4A, 0x01,
        0x96, 0xF3, 0xDE, 0x70, 0x39, 0x26, 0xB3, 0xFB, 0x68, 0x2B, 0xBE, 0xC4, 0xBF, 0x26], rfl⟩)]

theorem reply_signed_iff_plain : ReplySigned (mockCodec plainRequest (gatewayUsm zeroAuth [])) plainCrypto plainRequest
    gatewayUser mockAgent atBoot currentResponse false :=
  (reply_signed_iff _ _ (mockCodec_encodesBer _ _) _ _ _ _ _ _).2
    ⟨.cleartextPdu currentResponse, [], mockScopedBytes currentResponse, rfl, rfl, Or.inl (by decide +kernel)⟩

/-- A request whose message id is encoded as `04 18 00…00`. -/
def placeholderRequest : Message :=
  gatewayMessage (0x0418 * 2 ^ 192) 0x01 (gatewayUsm zeroAuth []) (.cleartextPdu currentRequest)

def placeholderCrypto : Crypto := mockCrypto
  [(wire (replyMessage placeholderRequest (.cleartextPdu currentResponse) false)
      (replyUsm (mockCodec placeholderRequest (gatewayUsm zeroAuth [])) placeholderRequest mockAgent atBoot [])
      (mockScopedBytes currentResponse),
    ⟨[0xA2, 0x6C, 0x0B, 0xC0, 0xE8, 0xA9, 0xB0, 0x77, 0xF2, 0x36, 0x65, 0x61, 0x0E, 0x76, 0xCC, 0x81, 0x30, 0x65,
      0x2E, 0xEA, 0x22, 0x3A, 0xFC, 0xAF, 0x06, 0x22, 0xBA, 0x9D, 0x04, 0xAF, 0x76, 0x0F], rfl⟩)]

/-- The reply: the tag stands in the message id, and the tag's place is zero. -/
def placeholderReply : Bytes :=
  [0x30, 0x81, 0xA1, 0x02, 0x01, 0x03, 0x30, 0x26, 0x02, 0x1A, 0x04, 0x18, 0xA2, 0x6C, 0x0B, 0xC0, 0xE8, 0xA9,
  0xB0, 0x77, 0xF2, 0x36, 0x65, 0x61, 0x0E, 0x76, 0xCC, 0x81, 0x30, 0x65, 0x2E, 0xEA, 0x22, 0x3A, 0xFC, 0xAF,
  0x02, 0x02, 0x05, 0xDC, 0x04, 0x01, 0x01, 0x02, 0x01, 0x03, 0x04, 0x3C, 0x30, 0x3A, 0x04, 0x0D, 0x80, 0x00,
  0x86, 0x9F, 0x05, 0x6D, 0x6F, 0x63, 0x6B, 0x00, 0x00, 0x00, 0x01, 0x02, 0x01, 0x01, 0x02, 0x01, 0x00, 0x04,
  0x07, 0x67, 0x61, 0x74, 0x65, 0x77, 0x61, 0x79, 0x04, 0x18, 0x00, 0x00, 0x00, 0x00, 0x00, 0x00, 0x00, 0x00,
  0x00, 0x00, 0x00, 0x00, 0x00, 0x00, 0x00, 0x00, 0x00, 0x00, 0x00, 0x00, 0x00, 0x00, 0x00, 0x00, 0x04, 0x00,
  0x30, 0x36, 0x04, 0x0D, 0x80, 0x00, 0x86, 0x9F, 0x05, 0x6D, 0x6F, 0x63, 0x6B, 0x00, 0x00, 0x00, 0x01, 0x04,
  0x00, 0xA2, 0x23, 0x02, 0x01, 0x07, 0x02, 0x01, 0x00, 0x02, 0x01, 0x00, 0x30, 0x18, 0x30, 0x16, 0x06, 0x10,
  0x2B, 0x06, 0x01, 0x04, 0x01, 0x8D, 0x36, 0x04, 0x01, 0x04, 0x03, 0x01, 0x03, 0x01, 0x01, 0x01, 0x02, 0x02,
  0x05, 0xDC]

private theorem placeholderReply_shape : placeholderReply =
    Ber.seq (Ber.integer 3 ++ (Ber.seq (Ber.tlv 0x02 ((placeholderReply.drop 10).take 26) ++
      (placeholderReply.drop 36).take 10) ++ placeholderReply.drop 46)) := by
  decide +kernel

private theorem length_placeholderReply : placeholderReply.length < 256 ^ 126 := by
  rw [show placeholderReply.length = 164 by decide +kernel]
  norm_num

private theorem placeholderReply_messageId {codec : V3Codec} (hber : codec.EncodesBer) {response : Message}
    {u : USMSecurityParameters} (hid : response.globalData.messageId = placeholderRequest.globalData.messageId) :
    encodeWithUsm codec response u ≠ some placeholderReply := by
  intro henc
  have hcontent := messageId_of_encodeWithUsm hber henc length_placeholderReply placeholderReply_shape
  rw [hid] at hcontent
  exact absurd hcontent (by decide +kernel)

private theorem messageId_replyMessage (request : Message) (scopedData : ScopedPduData) (encrypt : Bool) :
    (replyMessage request scopedData encrypt).globalData.messageId = request.globalData.messageId := rfl

private theorem buildAuthenticatedReply_placeholder :
    buildAuthenticatedReply (mockCodec placeholderRequest (gatewayUsm zeroAuth [])) placeholderCrypto placeholderRequest
      gatewayUser mockAgent atBoot currentResponse false = .ok placeholderReply := by
  decide +kernel

/-- A reply that encodes no message with the message id of its request. -/
theorem message_id_overwritten : (mockCodec placeholderRequest (gatewayUsm zeroAuth [])).EncodesBer ∧
    buildAuthenticatedReply (mockCodec placeholderRequest (gatewayUsm zeroAuth [])) placeholderCrypto placeholderRequest
      gatewayUser mockAgent atBoot currentResponse false = .ok placeholderReply ∧
    (¬ ∃ response u, response.globalData.messageId = placeholderRequest.globalData.messageId ∧
      encodeWithUsm (mockCodec placeholderRequest (gatewayUsm zeroAuth [])) response u = some placeholderReply) ∧
    ¬ ReplySigned (mockCodec placeholderRequest (gatewayUsm zeroAuth [])) placeholderCrypto placeholderRequest
      gatewayUser mockAgent atBoot currentResponse false := by
  have hber := mockCodec_encodesBer placeholderRequest (gatewayUsm zeroAuth [])
  refine ⟨hber, buildAuthenticatedReply_placeholder, ?_, ?_⟩
  · intro h
    obtain ⟨response, u, hid, henc⟩ := h
    exact placeholderReply_messageId hber hid henc
  · intro h
    obtain ⟨scopedData, privParams, reply, -, hreply, tag, zeroed, -, -, henc⟩ := h
    rw [buildAuthenticatedReply_placeholder] at hreply
    rw [← Except.ok.inj hreply] at henc
    exact placeholderReply_messageId hber (messageId_replyMessage _ _ _) henc

end EmsFixtures.Snmp
