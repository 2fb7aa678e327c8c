import EmsFixtures.Lib.Float32
import EmsFixtures.Lib.Maps
import EmsFixtures.Lib.Panic
import EmsFixtures.Lib.Runs

/-!
# The BACnet responder

`simulator.rs` and the responder of `main.rs`.  A frame is unwrapped (BVLC, NPDU, APDU), and a Who-Is or a ReadProperty
in it is answered from the value map, which the tick task moves along; everything else is dropped.  The codecs of
`bacnet_rs` are a parameter.
-/

namespace EmsFixtures.Bacnet

open HashMap Runs

abbrev Bytes := List UInt8

/-- Default device instance number reported by this mock. -/
def defaultDeviceInstance : UInt32 := 11001

/-! ### `simulator.rs` -/

/-- A sawtooth between `min` and `max`; all three are values of an `f32`. -/
structure SawStrategy where
  min : ℚ
  max : ℚ
  step : ℚ

/-- The present value of each instance. -/
abbrev Values := HashMap UInt32 ℚ

/-- The entries of a strategy map, in the order it yields them. -/
abbrev Strategies := List (UInt32 × SawStrategy)

/-- AI #1: supply water temp, 7..15 °C step 0.5. -/
def strategies : Strategies := [(1, { min := 7, max := 15, step := 1 / 2 })]

def seed (strategies : Strategies) : Values := ofList (strategies.map fun e => (e.1, e.2.min))

/-- `f32` addition, short of overflow. -/
def addF32 (x y : ℚ) : ℚ := Float32.rounded (x + y)

def SawStrategy.next (s : SawStrategy) (cur : ℚ) : ℚ :=
  if s.max < addF32 cur s.step then s.min else addF32 cur s.step

/-- Step every tracked object by its strategy's `step`; wrap to `min` on overshoot. -/
def tick (values : Values) (strategies : Strategies) : Values :=
  strategies.foldl (fun values e => values.insert e.1 (e.2.next ((values.lookup e.1).getD e.2.min))) values

/-! ### What `bacnet_rs` makes of bytes -/

inductive ObjectType where
  | analogInput
  | device
  | other (code : UInt16)
  deriving DecidableEq

structure ObjectIdentifier where
  objectType : ObjectType
  inst : UInt32
  deriving DecidableEq

inductive PropertyIdentifier where
  | presentValue
  | other (code : UInt32)
  deriving DecidableEq

inductive PropertyValue where
  | real (value : ℚ)

inductive Segmentation where
  | noSegmentation

structure IAmRequest where
  deviceIdentifier : ObjectIdentifier
  maxApduLengthAccepted : UInt32
  segmentationSupported : Segmentation
  vendorIdentifier : UInt32

structure ReadPropertyRequest where
  objectIdentifier : ObjectIdentifier
  propertyIdentifier : PropertyIdentifier
  deriving DecidableEq

structure ReadPropertyResponse where
  objectIdentifier : ObjectIdentifier
  propertyIdentifier : PropertyIdentifier
  propertyValues : List PropertyValue

inductive UnconfirmedServiceChoice where
  | iAm
  | whoIs
  | other (code : UInt8)

inductive ConfirmedServiceChoice where
  | readProperty
  | other (code : UInt8)

inductive Apdu where
  | unconfirmedRequest (serviceChoice : UnconfirmedServiceChoice) (serviceData : Bytes)
  | confirmedRequest (invokeId : UInt8) (serviceChoice : ConfirmedServiceChoice) (serviceData : Bytes)
  | complexAck (segmented moreFollows : Bool) (invokeId : UInt8) (sequenceNumber proposedWindowSize : Option UInt8)
    (serviceChoice : ConfirmedServiceChoice) (serviceData : Bytes)
  | other

/-- The codecs; an error is its debug text.  `newNpdu` is an NPDU that expects no reply. -/
structure Codec (WhoIs : Type) where
  decodeNpdu : Bytes → Except String ℕ
  newNpdu : Bytes
  decodeApdu : Bytes → Except String Apdu
  encodeApdu : Apdu → Bytes
  decodeWhoIs : Bytes → Except String WhoIs
  matchesInstance : WhoIs → UInt32 → Bool
  decodeReadProperty : Bytes → Except String ReadPropertyRequest
  encodeIAm : IAmRequest → Except String Bytes
  encodeReadPropertyResponse : ReadPropertyResponse → Except String Bytes

/-! ### `main.rs` -/

namespace Codec

variable {WhoIs : Type} (codec : Codec WhoIs)

/-- Wrap an APDU in NPDU + BVLC; `function` is `0x0A` for unicast or `0x0B` for broadcast. -/
def wrapBvlc (apdu : Bytes) (function : UInt8) : Bytes :=
  let payload := codec.newNpdu ++ apdu
  let out := [0x81, function, 0x00, 0x00] ++ payload
  let total := UInt16.ofNat out.length
  (out.set 2 (total >>> 8).toUInt8).set 3 (total &&& 0xFF).toUInt8

/-- Build the `I-Am` reply broadcast frame. -/
def iamFrame : Except String Bytes := do
  let deviceId := { objectType := .device, inst := defaultDeviceInstance }
  let svc ← (codec.encodeIAm
    { deviceIdentifier := deviceId, maxApduLengthAccepted := 1476, segmentationSupported := .noSegmentation
      vendorIdentifier := 260 }).mapError ("iam encode: " ++ ·)
  return codec.wrapBvlc (codec.encodeApdu (.unconfirmedRequest .iAm svc)) 0x0B

/-- A `ComplexAck` carrying the present value; any other object or property is dropped. -/
def answerReadProperty (invokeId : UInt8) (req : ReadPropertyRequest) (values : Values) :
    Except String (Option Bytes) :=
  if req.objectIdentifier.objectType ≠ .analogInput ∨ req.propertyIdentifier ≠ .presentValue then .ok none
  else match values.lookup req.objectIdentifier.inst with
    | none => .ok none
    | some v => do
      let svc ← (codec.encodeReadPropertyResponse
        { objectIdentifier := req.objectIdentifier, propertyIdentifier := req.propertyIdentifier
          propertyValues := [.real v] }).mapError ("rp resp encode: " ++ ·)
      return some (codec.wrapBvlc
        (codec.encodeApdu (.complexAck false false invokeId none none .readProperty svc)) 0x0A)

/-- What `handle` makes of the APDU. -/
def dispatch (apduBytes : Bytes) (values : Values) : Except String (Option Bytes) := do
  let apdu ← (codec.decodeApdu apduBytes).mapError ("apdu decode: " ++ ·)
  match apdu with
  | .unconfirmedRequest .whoIs serviceData =>
    let req ← (codec.decodeWhoIs serviceData).mapError ("who-is decode: " ++ ·)
    if codec.matchesInstance req defaultDeviceInstance then some <$> codec.iamFrame else return none
  | .confirmedRequest invokeId .readProperty serviceData =>
    let req ← (codec.decodeReadProperty serviceData).mapError ("rp decode: " ++ ·)
    codec.answerReadProperty invokeId req values
  | _ => return none

/-- Dispatch on the inbound frame; returns the reply bytes if any. -/
def handle (frame : Bytes) (values : Values) : Except Panic (Except String (Option Bytes)) :=
  match frame with
  | tag :: function :: _ :: _ :: npdu =>
    if tag ≠ 0x81 then .ok (.ok none)
    else if function ≠ 0x0A ∧ function ≠ 0x0B then .ok (.ok none)
    else match codec.decodeNpdu npdu with
      | .error e => .ok (.error ("npdu decode: " ++ e))
      | .ok npduLen => (fun apduBytes => codec.dispatch apduBytes values) <$> sliceFrom npdu npduLen
  | _ => .ok (.ok none)

end Codec

/-! ### The device -/

/-- A tick, or a frame with what `handle` returned for it. -/
inductive Op where
  | tick
  | frame (frame : Bytes) (result : Except String (Option Bytes))

def Op.isTick : Op → Bool
  | .tick => true
  | .frame .. => false

/-- The value map is shared by the tick task and the responder loop, which only reads it. -/
def Step {WhoIs : Type} (codec : Codec WhoIs) (values : Values) : Op → Values → Prop
  | .tick, t => tick values strategies = t
  | .frame frame result, t => codec.handle frame values = .ok result ∧ values = t

/-! ### Frames -/

section Frames

variable {WhoIs : Type} {codec : Codec WhoIs}

theorem wrapBvlc_eq (apdu : Bytes) (function : UInt8) : codec.wrapBvlc apdu function =
    0x81 :: function :: ((UInt16.ofNat (4 + (codec.newNpdu ++ apdu).length)) >>> 8).toUInt8 ::
      ((UInt16.ofNat (4 + (codec.newNpdu ++ apdu).length)) &&& 0xFF).toUInt8 :: (codec.newNpdu ++ apdu) := by
  have hlen : ([0x81, function, 0x00, 0x00] ++ (codec.newNpdu ++ apdu)).length = 4 + (codec.newNpdu ++ apdu).length :=
    List.length_append
  dsimp only [Codec.wrapBvlc]
  rw [hlen]
  rfl

/-- A BVLC frame whose NPDU ends where the APDU starts. -/
structure Carries (codec : Codec WhoIs) (frame apduBytes : Bytes) : Prop where
  carries : ∃ (function hi lo : UInt8) (npdu : Bytes) (npduLen : ℕ),
    frame = 0x81 :: function :: hi :: lo :: npdu ∧ (function = 0x0A ∨ function = 0x0B) ∧
    codec.decodeNpdu npdu = .ok npduLen ∧ npduLen ≤ npdu.length ∧ npdu.drop npduLen = apduBytes

theorem Carries.handle {frame apduBytes : Bytes} (h : Carries codec frame apduBytes) (values : Values) :
    codec.handle frame values = .ok (codec.dispatch apduBytes values) := by
  obtain ⟨function, hi, lo, npdu, npduLen, rfl, hfunction, hnpdu, hlen, rfl⟩ := h.carries
  have hknown : ¬ (function ≠ 0x0A ∧ function ≠ 0x0B) := by
    rcases hfunction with rfl | rfl <;> decide
  unfold Codec.handle
  dsimp only
  rw [if_neg (not_not.2 rfl), if_neg hknown, hnpdu]
  dsimp only
  rw [sliceFrom_of_le hlen]
  rfl

end Frames

/-! ### The services on the wire -/

section Wire

def bytesOf32 (n : UInt32) : Bytes := [(n >>> 24).toUInt8, (n >>> 16).toUInt8, (n >>> 8).toUInt8, n.toUInt8]

def objectTypeNumber : ObjectType → UInt32
  | .analogInput => 0
  | .device => 8
  | .other code => code.toUInt32

/-- Ten bits of type, 22 of instance. -/
def objectIdBytes (id : ObjectIdentifier) : Bytes := bytesOf32 ((objectTypeNumber id.objectType <<< 22) ||| id.inst)

/-- The object types and properties of this device. -/
def decodeReadWire : Bytes → Except String ReadPropertyRequest
  | [0x0C, 0x00, b, c, d, 0x19, property] =>
    .ok { objectIdentifier :=
            { objectType := .analogInput, inst := b.toUInt32 <<< 16 ||| c.toUInt32 <<< 8 ||| d.toUInt32 }
          propertyIdentifier := if property = 85 then .presentValue else .other property.toUInt32 }
  | _ => .error "DecodingFailed"

def propertyNumber : PropertyIdentifier → UInt8
  | .presentValue => 85
  | .other code => code.toUInt8

def valueBytes : PropertyValue → Bytes
  | .real value => 0x44 :: bytesOf32 (F64.f32Bits value)

def choiceByte : UnconfirmedServiceChoice → UInt8
  | .iAm => 0x00
  | .whoIs => 0x08
  | .other code => code

/-- BACnet's encoding of the frames this device and its clients exchange. -/
def wireCodec : Codec (Option (UInt32 × UInt32)) where
  decodeNpdu
    | 0x01 :: 0x00 :: _ | 0x01 :: 0x04 :: _ => .ok 2
    | _ => .error "InvalidNpdu"
  newNpdu := [0x01, 0x00]
  decodeApdu
    | 0x10 :: 0x00 :: data => .ok (.unconfirmedRequest .iAm data)
    | 0x10 :: 0x08 :: data => .ok (.unconfirmedRequest .whoIs data)
    | 0x00 :: _ :: invokeId :: 0x0C :: data => .ok (.confirmedRequest invokeId .readProperty data)
    | 0x30 :: invokeId :: 0x0C :: data => .ok (.complexAck false false invokeId none none .readProperty data)
    | _ => .ok .other
  encodeApdu
    | .unconfirmedRequest choice data => 0x10 :: choiceByte choice :: data
    | .confirmedRequest invokeId _ data => 0x00 :: 0x05 :: invokeId :: 0x0C :: data
    | .complexAck _ _ invokeId _ _ _ data => 0x30 :: invokeId :: 0x0C :: data
    | .other => []
  decodeWhoIs
    | [] => .ok none
    | [0x0A, a, b, 0x1A, c, d] =>
      .ok (some (a.toUInt32 <<< 8 ||| b.toUInt32, c.toUInt32 <<< 8 ||| d.toUInt32))
    | _ => .error "DecodingFailed"
  matchesInstance
    | none, _ => true
    | some (low, high), inst => low ≤ inst && inst ≤ high
  decodeReadProperty := decodeReadWire
  encodeIAm r :=
    let parts : List Bytes := [[0xC4], objectIdBytes r.deviceIdentifier,
      [0x22, (r.maxApduLengthAccepted >>> 8).toUInt8, r.maxApduLengthAccepted.toUInt8, 0x91, 0x03],
      [0x22, (r.vendorIdentifier >>> 8).toUInt8, r.vendorIdentifier.toUInt8]]
    .ok parts.flatten
  encodeReadPropertyResponse r :=
    let parts : List Bytes := [[0x0C], objectIdBytes r.objectIdentifier, [0x19, propertyNumber r.propertyIdentifier],
      [0x3E], r.propertyValues.flatMap valueBytes, [0x3F]]
    .ok parts.flatten

end Wire

end EmsFixtures.Bacnet
