import EmsFixtures.Snmp.AuthGate
import EmsFixtures.Snmp.Serving

/-!
# Panics of the SNMPv3 handler

Slices and `expect`s of the handler are in range but for one: `build_iv` takes the first 8 octets of the privacy
parameters, and a packet may carry fewer.
-/

namespace EmsFixtures.Snmp

open Panics

section

variable [OidRule] {codec : V3Codec} {crypto : Crypto} {datagram : Bytes} {message : Message}
  {usmParams : USMSecurityParameters} {user : UsmUser} {s : AgentState} {env : Surroundings} {values : Values}

theorem returns_buildDiscoveryReport (hber : codec.EncodesBer) (request : Message) (requestUsm : USMSecurityParameters)
    (s : AgentState) (env : Surroundings) : Returns (buildDiscoveryReport codec request requestUsm s env) := by
  have hvalid : IsValidOid usmStatsUnknownEngineIds := Carried.valid (by decide)
  unfold buildDiscoveryReport
  refine returns_bind_iff.2 ⟨⟨_, hvalid⟩, expect_eq_ok_iff.2 (ObjectIdentifier.new_of_valid hvalid), ?_⟩
  refine returns_bind_iff.2 ⟨_, expect_eq_ok_iff.2 (hber.usm _), ?_⟩
  obtain ⟨scopedBytes, hbytes⟩ := hber.scopedData (.cleartextPdu
    { engineId := s.engineId, name := []
      data := .report { requestId := (extractRequestId request).getD 0, errorStatus := 0, errorIndex := 0
                        variableBindings := [{ name := ⟨_, hvalid⟩, value := .value (.integer 1) }] } })
  exact ⟨_, expect_eq_ok_iff.2 (hber.message _ _ hbytes)⟩

/-- Opening a scoped PDU panics exactly when it decrypts with a short salt. -/
theorem returns_openScoped_iff :
    Returns (openScoped codec crypto message usmParams user) ↔
      ∀ ct, message.scopedData = .encryptedPdu ct → message.wantPriv → 8 ≤ usmParams.privacyParameters.length := by
  unfold openScoped
  cases hdata : message.scopedData with
  | cleartextPdu p => simp
  | encryptedPdu ct =>
    by_cases hpriv : message.wantPriv = true
    · simp only [if_pos hpriv, bind_pure_comp, returns_map, returns_aesCfbDecrypt_iff user.length_privKey]
      exact ⟨fun h _ _ _ => h, fun h => h ct rfl hpriv⟩
    · simp [hpriv]

theorem returns_dispatch (hvalid : ∀ k ∈ values, IsValidOid k) (data : Pdus) : Returns (dispatch values data) := by
  cases data with
  | getRequest req => exact returns_map.2 (returns_buildResponse hvalid req false)
  | getNextRequest req => exact returns_map.2 (returns_buildResponse hvalid req true)
  | _ => exact returns_pure _

theorem returns_serveRequest_iff (hber : codec.EncodesBer) (hvalid : ∀ k ∈ values, IsValidOid k) :
    Returns (serveRequest codec crypto message usmParams user s env values) ↔
      Returns (openScoped codec crypto message usmParams user) := by
  unfold serveRequest
  rw [returns_bind_iff]
  constructor
  · intro h
    obtain ⟨o, ho, -⟩ := h
    exact ⟨o, ho⟩
  · intro h
    obtain ⟨o, ho⟩ := h
    refine ⟨o, ho, ?_⟩
    cases o with
    | none => exact returns_pure _
    | some scopedPdu =>
      obtain ⟨r, hr⟩ := returns_dispatch hvalid scopedPdu.data
      refine returns_bind_iff.2 ⟨r, hr, ?_⟩
      cases r with
      | none => exact returns_pure _
      | some responsePdu => exact returns_map.2 (returns_buildAuthenticatedReply hber ..)

/-- The path returns iff it serves without a panic whom the gate admits. -/
theorem returns_authenticatedPath_iff :
    Returns (authenticatedPath codec crypto datagram message usmParams s env values) ↔
      ∀ user, Admits crypto datagram message usmParams s user →
        Returns (serveRequest codec crypto message usmParams user s env values) := by
  rcases authenticatedPath_cases codec crypto datagram message usmParams s env values with
    ⟨user, huser, heq⟩ | ⟨hnone, heq⟩
  · rw [heq]
    constructor
    · intro h user' huser'
      rwa [huser.unique huser']
    · intro h
      exact h user huser
  · rw [heq]
    exact iff_of_true (returns_ok _) fun user huser => absurd huser (hnone user)

/-- The datagram reaches decryption with fewer than 8 octets of privacy parameters. -/
def ShortSalt (codec : V3Codec) (crypto : Crypto) (datagram : Bytes) (s : AgentState) : Prop :=
  ∃ message usmParams user ct, Decodes codec datagram message usmParams ∧ usmParams.authoritativeEngineId ≠ [] ∧
    Admits crypto datagram message usmParams s user ∧
    message.scopedData = .encryptedPdu ct ∧ message.wantPriv ∧ usmParams.privacyParameters.length < 8

/-- The handler returns on a datagram iff it does not decrypt with a short salt. -/
theorem handler_returns_iff (hber : codec.EncodesBer) (crypto : Crypto) (datagram : Bytes) (s : AgentState)
    (env : Surroundings) (hvalid : ∀ k ∈ values, IsValidOid k) :
    Returns (handleV3Datagram codec crypto datagram s env values) ↔ ¬ ShortSalt codec crypto datagram s := by
  by_cases h : ∃ message usmParams, Decodes codec datagram message usmParams
  swap
  · rw [handleV3Datagram_of_not_decodes fun message usmParams h' => h ⟨message, usmParams, h'⟩]
    refine iff_of_true (returns_ok _) ?_
    intro h
    obtain ⟨message, usmParams, user, ct, h', -⟩ := h
    exact h ⟨message, usmParams, h'⟩
  obtain ⟨message, usmParams, h⟩ := h
  rw [h.handleV3Datagram_eq]
  by_cases hne : usmParams.authoritativeEngineId = []
  · rw [if_pos hne]
    refine iff_of_true (returns_map.2 (returns_buildDiscoveryReport hber ..)) ?_
    intro h
    obtain ⟨message', usmParams', user, ct, h', hne', -⟩ := h
    obtain ⟨rfl, rfl⟩ := h.unique h'
    exact hne' hne
  · rw [if_neg hne, returns_authenticatedPath_iff]
    simp only [returns_serveRequest_iff hber hvalid, returns_openScoped_iff]
    constructor
    · rintro hlong ⟨message', usmParams', user, ct, h', -, huser, hdata, hpriv, hshort⟩
      obtain ⟨rfl, rfl⟩ := h.unique h'
      exact absurd (hlong user huser ct hdata hpriv) (by omega)
    · intro hnot user huser ct hdata hpriv
      by_contra hshort
      exact hnot ⟨message, usmParams, user, ct, h, hne, huser, hdata, hpriv, by omega⟩

end

theorem handler_returns_iff_signed :
    Returns (handleV3Datagram (mockCodec signedRequest signedUsm) plainCrypto (mockBytes signedRequest) mockAgent atBoot
      (initialValues ℚ)) :=
  (handler_returns_iff (mockCodec_encodesBer _ _) _ _ _ _ fun k hk => (initialValues_carried k hk).valid).2 <| by
    intro h
    obtain ⟨message, usmParams, user, ct, h, -, -, hdata, -⟩ := h
    obtain ⟨rfl, rfl⟩ := (mockCodec_decodes signedRequest signedUsm rfl).unique h
    cases hdata

/-- An encrypted PDU without a salt, its auth flag clear. -/
def saltlessUsm : USMSecurityParameters := gatewayUsm [] []

def saltlessRequest : Message := gatewayMessage 1 0x02 saltlessUsm (.encryptedPdu [0x00])

/-- It stops the handler, and anyone can send it. -/
theorem short_salt_panics :
    (mockCodec saltlessRequest saltlessUsm).EncodesBer ∧ (∀ k ∈ initialValues ℚ, IsValidOid k) ∧
    ShortSalt (mockCodec saltlessRequest saltlessUsm) plainCrypto (mockBytes saltlessRequest) mockAgent ∧
    handleV3Datagram (mockCodec saltlessRequest saltlessUsm) plainCrypto (mockBytes saltlessRequest) mockAgent atBoot
      (initialValues ℚ) = .error .sliceRange := by
  refine ⟨mockCodec_encodesBer _ _, fun k hk => (initialValues_carried k hk).valid, ⟨saltlessRequest, saltlessUsm,
    gatewayUser, [0x00], mockCodec_decodes _ _ rfl, by decide, ⟨by decide, by decide +kernel, nofun⟩, rfl, rfl,
    by decide⟩, by decide +kernel⟩

end EmsFixtures.Snmp
