import EmsFixtures.Bacnet.Responder

/-!
# Devices that hear one another

What a responder sends is an I-Am or a ComplexAck in a frame of the length it states, and no responder answers such a
frame, whatever it holds (`Reply.unanswered`).  So on a network of responders, where a frame may reach any of them any
number of times, only frames of clients are answered, each delivery once at most (`relays_unanswered`).
-/

namespace EmsFixtures.Bacnet

open Runs Panics

/-- What a device sends. -/
def Apdu.IsReply : Apdu → Prop
  | .unconfirmedRequest .iAm _ => True
  | .complexAck false false _ none none .readProperty _ => True
  | _ => False

variable {WhoIs : Type} {codec : Codec WhoIs}

/-- The codecs read what they wrote. -/
structure Codec.RoundTrips (codec : Codec WhoIs) : Prop where
  npdu : ∀ rest, codec.decodeNpdu (codec.newNpdu ++ rest) = .ok codec.newNpdu.length
  apdu : ∀ a : Apdu, a.IsReply → codec.decodeApdu (codec.encodeApdu a) = .ok a

/-- A frame a device sends. -/
structure Reply (codec : Codec WhoIs) (frame : Bytes) : Prop where
  wrapped : ∃ (apdu : Apdu) (function : UInt8), apdu.IsReply ∧ (function = 0x0A ∨ function = 0x0B) ∧
    frame = codec.wrapBvlc (codec.encodeApdu apdu) function

/-! ### Every answer is a reply -/

theorem reply_of_iamFrame {frame : Bytes} (h : codec.iamFrame = .ok frame) : Reply codec frame := by
  obtain ⟨svc, -, h⟩ := bind_eq_ok_iff.1 h
  cases h
  exact ⟨.unconfirmedRequest .iAm svc, 0x0B, trivial, Or.inr rfl, rfl⟩

theorem reply_of_answerReadProperty {invokeId : UInt8} {req : ReadPropertyRequest} {values : Values} {frame : Bytes}
    (h : codec.answerReadProperty invokeId req values = .ok (some frame)) : Reply codec frame := by
  unfold Codec.answerReadProperty at h
  split at h
  · cases h
  split at h
  · cases h
  · obtain ⟨svc, -, h⟩ := bind_eq_ok_iff.1 h
    cases h
    exact ⟨.complexAck false false invokeId none none .readProperty svc, 0x0A, trivial, Or.inl rfl, rfl⟩

theorem reply_of_dispatch {apduBytes : Bytes} {values : Values} {frame : Bytes}
    (h : codec.dispatch apduBytes values = .ok (some frame)) : Reply codec frame := by
  obtain ⟨apdu, -, h⟩ := bind_eq_ok_iff.1 h
  split at h
  · obtain ⟨req, -, h⟩ := bind_eq_ok_iff.1 h
    split at h
    · cases hiam : codec.iamFrame with
      | error e =>
        rw [hiam] at h
        cases h
      | ok reply =>
        rw [hiam] at h
        cases h
        exact reply_of_iamFrame hiam
    · cases h
  · obtain ⟨req, -, h⟩ := bind_eq_ok_iff.1 h
    exact reply_of_answerReadProperty h
  · cases h

theorem reply_of_handle {frame reply : Bytes} {values : Values}
    (h : codec.handle frame values = .ok (.ok (some reply))) : Reply codec reply := by
  unfold Codec.handle at h
  split at h
  swap
  · cases h
  split at h
  · cases h
  split at h
  · cases h
  split at h
  · cases h
  · rename_i npduLen _
    unfold sliceFrom at h
    split at h
    · exact reply_of_dispatch (Except.ok.inj h)
    · cases h

/-! ### No reply is answered -/

theorem dispatch_reply (hcodec : codec.RoundTrips) {apdu : Apdu} (h : apdu.IsReply) (values : Values) :
    codec.dispatch (codec.encodeApdu apdu) values = .ok none := by
  unfold Codec.dispatch
  rw [hcodec.apdu apdu h]
  match apdu, h with
  | .unconfirmedRequest .iAm _, _ => rfl
  | .complexAck false false _ none none .readProperty _, _ => rfl

theorem Reply.unanswered (hcodec : codec.RoundTrips) {frame : Bytes} (h : Reply codec frame) (values : Values) :
    codec.handle frame values = .ok (.ok none) := by
  obtain ⟨apdu, function, hreply, hfunction, rfl⟩ := h.wrapped
  have hcarries : Carries codec (codec.wrapBvlc (codec.encodeApdu apdu) function) (codec.encodeApdu apdu) := by
    rw [wrapBvlc_eq]
    exact ⟨function, _, _, _, _, rfl, hfunction, hcodec.npdu _, by simp, List.drop_left⟩
  rw [hcarries.handle, dispatch_reply hcodec hreply]

/-- The length a BVLC header states. -/
def statedLength : Bytes → ℕ
  | _ :: _ :: hi :: lo :: _ => hi.toNat * 256 + lo.toNat
  | _ => 0

/-- A reply states its length, as far as 16 bits go. -/
theorem Reply.statedLength {frame : Bytes} (h : Reply codec frame) :
    Bacnet.statedLength frame = frame.length % 65536 := by
  obtain ⟨apdu, function, -, -, rfl⟩ := h.wrapped
  rw [wrapBvlc_eq]
  generalize hpayload : codec.newNpdu ++ codec.encodeApdu apdu = payload
  have hlen : (0x81 :: function :: ((UInt16.ofNat (4 + payload.length)) >>> 8).toUInt8 ::
      ((UInt16.ofNat (4 + payload.length)) &&& 0xFF).toUInt8 :: payload).length = 4 + payload.length := by
    simp only [List.length_cons]
    omega
  rw [hlen]
  have hhi : ((UInt16.ofNat (4 + payload.length)) >>> 8).toUInt8.toNat = (4 + payload.length) % 65536 / 256 := by
    rw [UInt16.toNat_toUInt8, UInt16.toNat_shiftRight, UInt16.toNat_ofNat']
    show ((4 + payload.length) % 65536) >>> 8 % 256 = _
    rw [Nat.shiftRight_eq_div_pow]
    omega
  have hlo : ((UInt16.ofNat (4 + payload.length)) &&& 0xFF).toUInt8.toNat = (4 + payload.length) % 256 := by
    rw [UInt16.toNat_toUInt8, UInt16.toNat_and, UInt16.toNat_ofNat']
    show ((4 + payload.length) % 65536 &&& (2 ^ 8 - 1)) % 256 = _
    rw [Nat.and_two_pow_sub_one_eq_mod]
    omega
  show ((UInt16.ofNat (4 + payload.length)) >>> 8).toUInt8.toNat * 256 +
    ((UInt16.ofNat (4 + payload.length)) &&& 0xFF).toUInt8.toNat = _
  rw [hhi, hlo]
  omega

/-! ### The network -/

/-- The devices and the frames they have sent. -/
structure Network (n : ℕ) where
  devices : Fin n → Values
  sent : List Bytes

/-- A tick of a device, a frame of a client at a device or one of a device, with what `handle` returned for it. -/
inductive NetOp (n : ℕ) where
  | tick (i : Fin n)
  | client (i : Fin n) (frame : Bytes) (result : Except String (Option Bytes))
  | relay (i : Fin n) (frame : Bytes) (result : Except String (Option Bytes))

def sentBy : Except String (Option Bytes) → List Bytes
  | .ok (some reply) => [reply]
  | _ => []

/-- The frame an answered client gets. -/
def NetOp.answer {n : ℕ} : NetOp n → List Bytes
  | .client _ _ result => sentBy result
  | _ => []

namespace Network

variable {n : ℕ}

/-- A sent frame may be lost, duplicated and reach any device. -/
inductive Step (codec : Codec WhoIs) : Network n → NetOp n → Network n → Prop
  | tick {s : Network n} {i : Fin n} :
    Step codec s (.tick i) { s with devices := Function.update s.devices i (tick (s.devices i) strategies) }
  | client {s : Network n} {i : Fin n} {frame : Bytes} {result : Except String (Option Bytes)}
    (h : codec.handle frame (s.devices i) = .ok result) :
    Step codec s (.client i frame result) { s with sent := s.sent ++ sentBy result }
  | relay {s : Network n} {i : Fin n} {frame : Bytes} {result : Except String (Option Bytes)} (hframe : frame ∈ s.sent)
    (h : codec.handle frame (s.devices i) = .ok result) :
    Step codec s (.relay i frame result) { s with sent := s.sent ++ sentBy result }

/-- Everything sent is a reply. -/
def SendsReplies (codec : Codec WhoIs) (s : Network n) : Prop := ∀ frame ∈ s.sent, Reply codec frame

theorem reply_of_sentBy {frame : Bytes} {values : Values} {result : Except String (Option Bytes)}
    (h : codec.handle frame values = .ok result) : ∀ reply ∈ sentBy result, Reply codec reply := by
  intro reply hmem
  match result with
  | .ok (some r) =>
    obtain rfl := List.mem_singleton.1 hmem
    exact reply_of_handle h
  | .ok none => cases hmem
  | .error e => cases hmem

variable {s t : Network n} {o : NetOp n}

theorem SendsReplies.step (h : SendsReplies codec s) (hstep : Step codec s o t) : SendsReplies codec t := by
  cases hstep with
  | tick => exact h
  | client hhandle =>
    intro frame hframe
    rcases List.mem_append.1 hframe with hframe | hframe
    · exact h frame hframe
    · exact reply_of_sentBy hhandle frame hframe
  | relay hsent hhandle =>
    intro frame hframe
    rcases List.mem_append.1 hframe with hframe | hframe
    · exact h frame hframe
    · exact reply_of_sentBy hhandle frame hframe

/-- What a step sends is what it answers a client. -/
theorem sent_step (hcodec : codec.RoundTrips) (h : SendsReplies codec s) (hstep : Step codec s o t) :
    t.sent = s.sent ++ o.answer ∧ ∀ i frame result, o = .relay i frame result → result = .ok none := by
  cases hstep with
  | tick => exact ⟨(List.append_nil _).symm, fun _ _ _ ho => by cases ho⟩
  | client hhandle => exact ⟨rfl, fun _ _ _ ho => by cases ho⟩
  | @relay i frame result hsent hhandle =>
    have hnone : Except.ok (.ok none) = .ok result := ((h frame hsent).unanswered hcodec _).symm.trans hhandle
    obtain rfl := Except.ok.inj hnone
    refine ⟨rfl, fun _ _ _ ho => ?_⟩
    cases ho
    rfl

end Network

/-- In every run of a network of devices no device answers another: what has been sent are the answers clients got, in
their order, each stating its length and answered by no device. -/
theorem relays_unanswered (codec : Codec WhoIs) (hcodec : codec.RoundTrips) {n : ℕ} (s t : Network n)
    (hs : s.sent = []) (ops : List (NetOp n)) (h : Run (Network.Step codec) s ops t) :
    (∀ i frame result, .relay i frame result ∈ ops → result = .ok none) ∧ t.sent = ops.flatMap NetOp.answer ∧
    ∀ frame ∈ t.sent, statedLength frame = frame.length % 65536 ∧
      ∀ values, codec.handle frame values = .ok (.ok none) := by
  have hinvariant : Network.SendsReplies codec t ∧ (∀ i frame result, .relay i frame result ∈ ops → result = .ok none) ∧
      t.sent = ops.flatMap NetOp.answer := by
    induction ops using List.reverseRecOn generalizing t with
    | nil =>
      obtain rfl := run_nil_iff.1 h
      refine ⟨fun frame hframe => ?_, fun _ _ _ ho => (by cases ho), hs⟩
      rw [hs] at hframe
      cases hframe
    | append_singleton ops o ih =>
      obtain ⟨u, hu, hstep⟩ := run_concat_iff.1 h
      obtain ⟨hreplies, hrelays, hsent⟩ := ih u hu
      obtain ⟨hsent', hrelay⟩ := Network.sent_step hcodec hreplies hstep
      refine ⟨hreplies.step hstep, fun i frame result ho => ?_, ?_⟩
      · rcases List.mem_append.1 ho with ho | ho
        · exact hrelays i frame result ho
        · exact hrelay i frame result (List.mem_singleton.1 ho).symm
      · rw [hsent', hsent, List.flatMap_append, List.flatMap_singleton]
  obtain ⟨hreplies, hrelays, hsent⟩ := hinvariant
  refine ⟨hrelays, hsent, fun frame hframe => ?_⟩
  have hreply := hreplies frame hframe
  exact ⟨hreply.statedLength, hreply.unanswered hcodec⟩

/-! ### A discovery -/

theorem wireCodec_roundTrips : wireCodec.RoundTrips where
  npdu _ := rfl
  apdu a h := by
    match a, h with
    | .unconfirmedRequest .iAm _, _ => rfl
    | .complexAck false false _ none none .readProperty _, _ => rfl

/-- A global Who-Is. -/
def whoIs : Bytes := [0x81, 0x0B, 0x00, 0x08, 0x01, 0x00, 0x10, 0x08]

/-- The I-Am of device 11001. -/
def iAm : Bytes :=
  [0x81, 0x0B, 0x00, 0x15, 0x01, 0x00, 0x10, 0x00, 0xC4, 0x02, 0x00, 0x2A, 0xF9, 0x22, 0x05, 0xC4, 0x91, 0x03, 0x22, 0x01,
    0x04]

/-- Two devices, of which one answers a Who-Is and the other hears the answer. -/
theorem relays_unanswered_discovery : ∃ (s t : Network 2) (result : Except String (Option Bytes)),
    Run (Network.Step wireCodec) s [.client 0 whoIs (.ok (some iAm)), .relay 1 iAm result] t ∧ result = .ok none ∧
      t.sent = [iAm] := by
  let s : Network 2 := { devices := fun _ => seed strategies, sent := [] }
  have hanswer : wireCodec.handle whoIs (seed strategies) = .ok (.ok (some iAm)) := by decide +kernel
  have hheard : wireCodec.handle iAm (seed strategies) = .ok (.ok none) := by decide +kernel
  have hrun : Run (Network.Step wireCodec) s [.client 0 whoIs (.ok (some iAm)), .relay 1 iAm (.ok none)] _ :=
    Run.cons (.client hanswer) (Run.cons (.relay List.mem_cons_self hheard) (Run.nil _))
  obtain ⟨hrelays, hsent, -⟩ := relays_unanswered wireCodec wireCodec_roundTrips s _ rfl _ hrun
  exact ⟨s, _, _, hrun, hrelays 1 iAm _ (by simp), hsent⟩

end EmsFixtures.Bacnet
