import EmsFixtures.Snmp.SignedReply

/-!
# The version of a datagram

`main.rs` reads the version of a message off its first octets, before either decoder runs, and hands every version but
3 to the v2c handler.  The peek steps over the length of the SEQUENCE in each of its forms, but takes the INTEGER behind
it in the short form only: that is where it agrees with BER (`version_peek_iff`), and it is the form the encoders write
(`route_messageBytes`).
-/

namespace EmsFixtures.Snmp

open Ber

/-- Peek the SNMP version byte from a BER-encoded message. -/
def peekSnmpVersion (datagram : Bytes) : Option UInt8 :=
  if datagram[0]? ≠ some 0x30 then none
  else datagram[1]?.bind fun lenByte =>
    let headerLen := if lenByte < 0x80 then 2 else 2 + (lenByte &&& 0x7F).toNat
    if datagram[headerLen]? ≠ some 0x02 ∨ datagram[headerLen + 1]? ≠ some 0x01 then none
    else datagram[headerLen + 2]?

inductive Handler where
  | v2c
  | v3
  deriving DecidableEq

/-- Branch by SNMP version peeked from the BER header. -/
def route (datagram : Bytes) : Handler := if peekSnmpVersion datagram = some 3 then .v3 else .v2c

/-- What a datagram is answered with; without a registered user v3 is off. -/
def answerDatagram [OidRule] (v2c : V2cCodec) (v3 : V3Codec) (crypto : Crypto) (datagram : Bytes)
    (agentState : Option AgentState) (env : Surroundings) (values : Values) : Except Panic (Option Bytes) :=
  match route datagram, agentState with
  | .v3, some s => handleV3Datagram v3 crypto datagram s env values
  | .v3, none => pure none
  | .v2c, _ => handleDatagram v2c datagram values

/-! ### Behind the length of the SEQUENCE -/

/-- What the peek finds in the octets behind the length of the SEQUENCE. -/
def peekInteger (body : Bytes) : Option UInt8 :=
  if body[0]? ≠ some 0x02 ∨ body[1]? ≠ some 0x01 then none else body[2]?

/-- Every form of the length is stepped over. -/
theorem peekSnmpVersion_seq {octets : Bytes} (h : ConstructedLength octets) (body : Bytes) :
    peekSnmpVersion (0x30 :: octets ++ body) = peekInteger body := by
  obtain ⟨first, digits, rfl, hcount⟩ := h.eq_cons
  have hheader : (if first < 0x80 then 2 else 2 + (first &&& 0x7F).toNat) = (0x30 :: first :: digits).length := by
    rw [List.length_cons, List.length_cons, hcount]
    split <;> omega
  have hbody : ∀ i, (0x30 :: first :: digits ++ body)[(0x30 :: first :: digits).length + i]? = body[i]? := by
    intro i
    rw [List.getElem?_append_right (Nat.le_add_right _ _), Nat.add_sub_cancel_left]
  have hfirst : (0x30 :: first :: digits ++ body)[1]? = some first := rfl
  unfold peekSnmpVersion
  rw [if_neg (by simp), hfirst, Option.bind_some]
  simp only [hheader]
  rw [← Nat.add_zero (0x30 :: first :: digits).length, hbody 0, Nat.add_zero, hbody 1, hbody 2]
  rfl

theorem peekInteger_short (v : UInt8) (rest : Bytes) : peekInteger (0x02 :: 0x01 :: v :: rest) = some v := rfl

theorem peekInteger_long {digits : Bytes} (h : digits.length ≤ 126) (rest : Bytes) :
    peekInteger (0x02 :: (UInt8.ofNat (128 + digits.length) :: digits) ++ rest) = none := by
  have hsmall : 128 + digits.length < 256 := by omega
  have hne : UInt8.ofNat (128 + digits.length) ≠ 0x01 := by
    intro heq
    have hnat : (UInt8.ofNat (128 + digits.length)).toNat = 128 + digits.length := UInt8.toNat_ofNat_of_lt hsmall
    have hone : (0x01 : UInt8).toNat = 1 := rfl
    rw [heq, hone] at hnat
    omega
  unfold peekInteger
  rw [if_pos]
  right
  simpa using hne

/-! ### Versions -/

/-- A SEQUENCE whose length is written as `octets`, that begins with the INTEGER `v`, its length written as `count`. -/
def beginsWith (octets count : Bytes) (v : ℤ) (rest : Bytes) : Bytes :=
  0x30 :: octets ++ (0x02 :: count ++ integerContent v ++ rest)

/-- The peek finds the version iff the length of the INTEGER is in the short form. -/
theorem peek_beginsWith {octets count : Bytes} {v : ℤ} (hseq : ConstructedLength octets) (h₀ : 0 ≤ v) (h₁ : v ≤ 127)
    (hcount : LegalLength (integerContent v).length count) (rest : Bytes) :
    (count = [0x01] ∧ peekSnmpVersion (beginsWith octets count v rest) = some (UInt8.ofNat v.toNat)) ∨
      (count ≠ [0x01] ∧ peekSnmpVersion (beginsWith octets count v rest) = none) := by
  have hcontent := integerContent_of_lt h₀ (by omega : v < 128)
  rw [hcontent] at hcount
  rw [beginsWith, peekSnmpVersion_seq hseq, hcontent]
  rcases hcount.eq_one_iff with rfl | ⟨digits, rfl, hlen, hne⟩
  · exact Or.inl ⟨rfl, peekInteger_short _ rest⟩
  · right
    refine ⟨fun heq => hne (List.cons_eq_cons.1 heq).2, ?_⟩
    rw [List.append_assoc]
    exact peekInteger_long hlen _

theorem ofNat_toNat_eq_three {v : ℤ} (h₀ : 0 ≤ v) (h₁ : v ≤ 127) : UInt8.ofNat v.toNat = 3 ↔ v = 3 := by
  constructor
  · intro h
    have hsmall : v.toNat < 256 := by omega
    have hnat : (UInt8.ofNat v.toNat).toNat = v.toNat := UInt8.toNat_ofNat_of_lt hsmall
    have hthree : (3 : UInt8).toNat = 3 := rfl
    rw [h, hthree] at hnat
    omega
  · rintro rfl
    rfl

theorem route_eq_v3_iff {datagram : Bytes} : route datagram = .v3 ↔ peekSnmpVersion datagram = some 3 := by
  unfold route
  split
  · rename_i h
    exact iff_of_true rfl h
  · rename_i h
    exact iff_of_false (by decide) h

theorem route_beginsWith {octets count : Bytes} {v : ℤ} (hseq : ConstructedLength octets) (h₀ : 0 ≤ v) (h₁ : v ≤ 127)
    (hcount : LegalLength (integerContent v).length count) (rest : Bytes) :
    route (beginsWith octets count v rest) = .v3 ↔ v = 3 ∧ count = [0x01] := by
  rw [route_eq_v3_iff]
  rcases peek_beginsWith hseq h₀ h₁ hcount rest with ⟨hshort, hpeek⟩ | ⟨hlong, hpeek⟩
  · rw [hpeek, Option.some_inj, ofNat_toNat_eq_three h₀ h₁]
    exact (and_iff_left hshort).symm
  · rw [hpeek]
    exact iff_of_false (by simp) fun h => hlong h.2

/-- No other version reaches the v3 handler; and the peek returns the version, and v3 messages reach the v3 handler, iff
the length of the version is in the short form. -/
theorem version_peek_iff (octets count rest : Bytes) (v : ℤ) (hseq : ConstructedLength octets) (h₀ : 0 ≤ v)
    (h₁ : v ≤ 127) (hcount : LegalLength (integerContent v).length count) :
    (route (beginsWith octets count v rest) = .v3 → v = 3) ∧
      ((peekSnmpVersion (beginsWith octets count v rest) = some (UInt8.ofNat v.toNat) ∧
        (v = 3 → route (beginsWith octets count v rest) = .v3)) ↔ count = [0x01]) := by
  have hroute := route_beginsWith hseq h₀ h₁ hcount rest
  refine ⟨fun h => (hroute.1 h).1, ?_⟩
  rcases peek_beginsWith hseq h₀ h₁ hcount rest with ⟨hshort, hpeek⟩ | ⟨hlong, hpeek⟩
  · exact iff_of_true ⟨hpeek, fun hv => hroute.2 ⟨hv, hshort⟩⟩ hshort
  · refine iff_of_false (fun h => ?_) hlong
    rw [hpeek] at h
    cases h.1

/-- A message in the indefinite form, its version in the short one. -/
theorem version_peek_iff_indefinite : peekSnmpVersion (beginsWith [0x80] [0x01] 3 [0x00, 0x00]) = some 3 ∧
    route (beginsWith [0x80] [0x01] 3 [0x00, 0x00]) = .v3 := by
  have hcount : LegalLength (integerContent 3).length [0x01] := .short (by decide)
  have hpeek := (version_peek_iff [0x80] [0x01] [0x00, 0x00] 3 .indefinite (by norm_num) (by norm_num) hcount).2.2 rfl
  exact ⟨hpeek.1, hpeek.2 rfl⟩

/-- A v3 request whose version has its length in the long form, `02 81 01 03`. -/
def longFormRequest : Bytes :=
  let m := gatewayMessage 1 0x04 (gatewayUsm [] []) (.cleartextPdu currentRequest)
  seq (0x02 :: [0x81, 0x01] ++ integerContent 3 ++
    (headerBytes m.globalData ++ octetString m.securityParameters ++ mockScopedBytes currentRequest))

/-- It is BER, and goes to the v2c handler. -/
theorem long_form_version_missed : ∃ octets rest, ConstructedLength octets ∧
    LegalLength (integerContent 3).length [0x81, 0x01] ∧ longFormRequest = beginsWith octets [0x81, 0x01] 3 rest ∧
    peekSnmpVersion longFormRequest = none ∧ route longFormRequest = .v2c := by
  have hcount : LegalLength (integerContent 3).length [0x81, 0x01] :=
    .long [0x01] (List.cons_ne_nil _ _) (by decide) (by decide)
  have hnone : peekSnmpVersion longFormRequest = none := by decide +kernel
  refine ⟨_, _, .definite (legalLength_lengthOctets ?_), hcount, rfl, hnone, ?_⟩
  · decide +kernel
  · rw [route, hnone]
    rfl

/-- What the encoders write is routed by its version. -/
theorem route_messageBytes [OidRule] {m : Message} {scopedBytes : Bytes} (h₀ : 0 ≤ m.version) (h₁ : m.version ≤ 127)
    (hlen : (messageContent m scopedBytes).length < 256 ^ 126) :
    route (messageBytes m scopedBytes) = .v3 ↔ m.version = 3 := by
  have hcontent := integerContent_of_lt h₀ (by omega : m.version < 128)
  have hcount : lengthOctets (integerContent m.version).length = [0x01] := by
    rw [hcontent]
    rfl
  have hbytes : ∃ rest, messageBytes m scopedBytes =
      beginsWith (lengthOctets (messageContent m scopedBytes).length) [0x01] m.version rest := by
    refine ⟨headerBytes m.globalData ++ octetString m.securityParameters ++ scopedBytes, ?_⟩
    rw [messageBytes, seq_eq, beginsWith]
    generalize lengthOctets (messageContent m scopedBytes).length = octets
    rw [messageContent, integer, tlv, hcount]
    simp only [List.append_assoc, List.cons_append, List.nil_append]
  obtain ⟨rest, hbytes⟩ := hbytes
  have hlegal : LegalLength (integerContent m.version).length [0x01] := by
    rw [hcontent]
    exact .short (by norm_num)
  rw [hbytes, route_beginsWith (.definite (legalLength_lengthOctets hlen)) h₀ h₁ hlegal rest]
  exact and_iff_left rfl

/-- With a registered user a datagram is answered by the handler of its version, but for versions in the long form. -/
theorem answerDatagram_beginsWith [OidRule] {v2c : V2cCodec} {v3 : V3Codec} {crypto : Crypto} {s : AgentState}
    {env : Surroundings} {values : Values} {octets count : Bytes} {v : ℤ} (hseq : ConstructedLength octets) (h₀ : 0 ≤ v)
    (h₁ : v ≤ 127) (hcount : LegalLength (integerContent v).length count) (rest : Bytes) :
    answerDatagram v2c v3 crypto (beginsWith octets count v rest) (some s) env values =
      if v = 3 ∧ count = [0x01] then handleV3Datagram v3 crypto (beginsWith octets count v rest) s env values
      else handleDatagram v2c (beginsWith octets count v rest) values := by
  have hroute := route_beginsWith hseq h₀ h₁ hcount rest
  unfold answerDatagram
  cases hr : route (beginsWith octets count v rest) with
  | v3 => rw [if_pos (hroute.1 hr)]
  | v2c =>
    rw [if_neg]
    intro h
    rw [hroute.2 h] at hr
    cases hr

end EmsFixtures.Snmp
