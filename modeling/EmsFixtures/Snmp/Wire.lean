import EmsFixtures.Lib.Ber
import EmsFixtures.Snmp.V3

/-!
# SNMPv3 messages on the wire

The encoding of a message, cut at its `authentication_parameters`: what comes before them, their 26 octets, and what
comes after (`wire_eq`).  Before and after do not depend on the tag, only on its length.
-/

namespace EmsFixtures.Snmp

open Ber

variable [OidRule]

/-! ### The schema -/

def usmContentBefore (u : USMSecurityParameters) : Bytes :=
  octetString u.authoritativeEngineId ++ integer u.authoritativeEngineBoots ++ integer u.authoritativeEngineTime ++
    octetString u.userName

def usmContent (u : USMSecurityParameters) : Bytes :=
  usmContentBefore u ++ octetString u.authenticationParameters ++ octetString u.privacyParameters

def usmBytes (u : USMSecurityParameters) : Bytes := seq (usmContent u)

def headerBytes (h : HeaderData) : Bytes :=
  seq (integer h.messageId ++ integer h.maxSize ++ octetString h.flags ++ integer h.securityModel)

def messageContent (m : Message) (scopedBytes : Bytes) : Bytes :=
  integer m.version ++ headerBytes m.globalData ++ octetString m.securityParameters ++ scopedBytes

def messageBytes (m : Message) (scopedBytes : Bytes) : Bytes := seq (messageContent m scopedBytes)

def scopedDataBytes (codec : V3Codec) : ScopedPduData → Option Bytes
  | .cleartextPdu p => codec.encodeScoped p
  | .encryptedPdu ct => some (octetString ct)

/-- The encoder is total and writes BER in definite form. -/
structure V3Codec.EncodesBer (codec : V3Codec) : Prop where
  usm : ∀ u, codec.encodeUsm u = some (usmBytes u)
  scopedPdu : ∀ p, ∃ bytes, codec.encodeScoped p = some bytes
  message : ∀ m bytes, scopedDataBytes codec m.scopedData = some bytes →
    codec.encodeMessage m = some (messageBytes m bytes)

theorem V3Codec.EncodesBer.scopedData {codec : V3Codec} (hber : codec.EncodesBer) (data : ScopedPduData) :
    ∃ bytes, scopedDataBytes codec data = some bytes := by
  cases data with
  | cleartextPdu p => exact hber.scopedPdu p
  | encryptedPdu ct => exact ⟨_, rfl⟩

/-! ### Around the tag -/

def wire (m : Message) (u : USMSecurityParameters) (scopedBytes : Bytes) : Bytes :=
  messageBytes { m with securityParameters := usmBytes u } scopedBytes

/-- The octets up to the `authentication_parameters`. -/
def beforeAuth (m : Message) (u : USMSecurityParameters) (scopedBytes : Bytes) : Bytes :=
  [0x30] ++ lengthOctets (messageContent { m with securityParameters := usmBytes u } scopedBytes).length ++
    integer m.version ++ headerBytes m.globalData ++
    [0x04] ++ lengthOctets (usmBytes u).length ++ [0x30] ++ lengthOctets (usmContent u).length ++ usmContentBefore u

def afterAuth (u : USMSecurityParameters) (scopedBytes : Bytes) : Bytes :=
  octetString u.privacyParameters ++ scopedBytes

theorem wire_eq (m : Message) (u : USMSecurityParameters) (scopedBytes : Bytes)
    (h : u.authenticationParameters.length = authTruncLen) :
    wire m u scopedBytes =
      beforeAuth m u scopedBytes ++ authNeedle u.authenticationParameters ++ afterAuth u scopedBytes := by
  have hauth : octetString u.authenticationParameters = authNeedle u.authenticationParameters := by
    rw [octetString_eq, h]
    rfl
  -- the three lengths that count the tag are opaque; the contents they count are opened one after the other
  rw [beforeAuth, afterAuth, wire, messageBytes, seq_eq]
  generalize lengthOctets (messageContent { m with securityParameters := usmBytes u } scopedBytes).length = messageLength
  rw [messageContent, octetString_eq (usmBytes u)]
  generalize lengthOctets (usmBytes u).length = usmLength
  rw [usmBytes, seq_eq]
  generalize lengthOctets (usmContent u).length = contentLength
  rw [usmContent, hauth]
  simp only [List.append_assoc]

/-- A tag of the same length leaves what comes before it as it is. -/
theorem beforeAuth_setAuth (m : Message) (u : USMSecurityParameters) (scopedBytes : Bytes) {tag : Bytes}
    (h : tag.length = u.authenticationParameters.length) :
    beforeAuth m { u with authenticationParameters := tag } scopedBytes = beforeAuth m u scopedBytes := by
  have hcontent : (usmContent { u with authenticationParameters := tag }).length = (usmContent u).length := by
    simp only [usmContent, usmContentBefore, List.length_append, length_octetString, h]
  have husm : (usmBytes { u with authenticationParameters := tag }).length = (usmBytes u).length := by
    rw [usmBytes, usmBytes, length_seq, length_seq, hcontent]
  have hmessage : (messageContent { m with securityParameters := usmBytes { u with authenticationParameters := tag } }
      scopedBytes).length = (messageContent { m with securityParameters := usmBytes u } scopedBytes).length := by
    simp only [messageContent, List.length_append, length_octetString, husm]
  rw [beforeAuth, beforeAuth, hmessage, husm, hcontent]
  rfl

end EmsFixtures.Snmp
