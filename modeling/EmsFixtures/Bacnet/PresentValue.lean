import EmsFixtures.Bacnet.Responder
import EmsFixtures.Lib.Sawtooth

/-!
# What a ReadProperty is answered with

A tick moves every tracked instance along its sawtooth, in whatever order the strategy map yields them (`lookup_tick`).
The sums of the supply temperature's sawtooth are `f32`s, so after `n` ticks it is 7 °C and `n` modulo 17 half degrees,
and that is what a ReadProperty is answered with, however frames and ticks interleave (`present_value_served`).
-/

namespace EmsFixtures.Bacnet

open HashMap Runs

/-! ### Ticks -/

theorem lookup_tick {strategies : Strategies} (hnd : (strategies.map Prod.fst).Nodup) (values : Values) (k : UInt32) :
    (tick values strategies).lookup k = match lastIn strategies k with
      | some s => some (s.next ((values.lookup k).getD s.min))
      | none => values.lookup k := by
  induction strategies generalizing values with
  | nil => rfl
  | cons e strategies ih =>
    rw [List.map_cons, List.nodup_cons] at hnd
    obtain ⟨hnot, hnd⟩ := hnd
    show (tick (values.insert e.1 (e.2.next ((values.lookup e.1).getD e.2.min))) strategies).lookup k = _
    rw [ih hnd, lastIn]
    by_cases hk : e.1 = k
    · subst hk
      rw [lastIn_eq_none.2 hnot, Finmap.lookup_insert]
      simp
    · rw [Finmap.lookup_insert_of_ne _ (Ne.symm hk)]
      cases lastIn strategies k <;> simp [hk]

/-- The order of the strategy map does not matter. -/
theorem tick_perm {strategies strategies' : Strategies} (hnd : (strategies.map Prod.fst).Nodup)
    (hp : strategies.Perm strategies') (values : Values) : tick values strategies = tick values strategies' := by
  have hnd' : (strategies'.map Prod.fst).Nodup := (hp.map Prod.fst).nodup_iff.1 hnd
  have hlast : ∀ k, lastIn strategies k = lastIn strategies' k := by
    intro k
    ext s
    constructor
    · intro h
      exact lastIn_of_mem hnd' (hp.mem_iff.1 (lastIn_mem h))
    · intro h
      exact lastIn_of_mem hnd (hp.mem_iff.2 (lastIn_mem h))
  apply Finmap.ext_lookup
  intro k
  rw [lookup_tick hnd, lookup_tick hnd', hlast]

/-! ### The sawtooth -/

def SawStrategy.sawtooth (s : SawStrategy) : Sawtooth ℚ := { min := s.min, max := s.max, step := s.step }

/-- A sawtooth whose sums are `f32`s rises like one of numbers. -/
theorem SawStrategy.next_value (s : SawStrategy) {k : ℕ} (h : s.sawtooth.HasPeriod k)
    (hexact : ∀ j < k, Float32.rounded (s.min + (j + 1) • s.step) = s.min + (j + 1) • s.step) (n : ℕ) :
    s.next (s.sawtooth.value k n) = s.sawtooth.value k (n + 1) := by
  have hsum : addF32 (s.sawtooth.value k n) s.step = s.sawtooth.value k n + s.step := by
    have hrise : s.sawtooth.value k n + s.step = s.min + (n % k + 1) • s.step := by
      rw [Sawtooth.value, succ_nsmul, add_assoc]
      rfl
    rw [addF32, hrise, hexact _ (Nat.mod_lt n h.pos)]
  rw [← Sawtooth.next_value h, SawStrategy.next, hsum]
  rfl

def supplyTemp : SawStrategy := { min := 7, max := 15, step := 1 / 2 }

theorem supplyTemp_hasPeriod : supplyTemp.sawtooth.HasPeriod 17 :=
  ⟨by decide, by decide +kernel, by decide +kernel, by decide +kernel⟩

theorem supplyTemp_exact : ∀ j < 17, Float32.rounded (supplyTemp.min + (j + 1) • supplyTemp.step) =
    supplyTemp.min + (j + 1) • supplyTemp.step := by
  decide +kernel

/-- The supply temperature after `n` ticks. -/
def supplyTempAt (n : ℕ) : ℚ := supplyTemp.sawtooth.value 17 n

/-! ### Runs -/

variable {WhoIs : Type} {codec : Codec WhoIs}

/-- The map after `n` ticks. -/
def ShowsAt (n : ℕ) (values : Values) : Prop :=
  ∀ k, values.lookup k = if k = 1 then some (supplyTempAt n) else none

theorem showsAt_seed : ShowsAt 0 (seed strategies) := by
  intro k
  rw [seed, lookup_ofList]
  by_cases hk : k = 1
  · subst hk
    decide +kernel
  · simp [strategies, lastIn, hk, Ne.symm hk]

theorem ShowsAt.tick {n : ℕ} {values : Values} (h : ShowsAt n values) :
    ShowsAt (n + 1) (tick values strategies) := by
  intro k
  rw [lookup_tick (by simp [strategies]), h k]
  by_cases hk : k = 1
  · subst hk
    exact congrArg some (supplyTemp.next_value supplyTemp_hasPeriod supplyTemp_exact n)
  · simp [strategies, lastIn, hk, Ne.symm hk]

theorem showsAt_of_run {ops : List Op} {t : Values} (h : Run (Step codec) (seed strategies) ops t) :
    ShowsAt (ops.countP Op.isTick) t := by
  induction ops using List.reverseRecOn generalizing t with
  | nil =>
    obtain rfl := run_nil_iff.1 h
    exact showsAt_seed
  | append_singleton ops o ih =>
    obtain ⟨u, hu, hstep⟩ := run_concat_iff.1 h
    rw [List.countP_append]
    cases o with
    | tick =>
      obtain rfl : Bacnet.tick u strategies = t := hstep
      exact (ih hu).tick
    | frame frame result =>
      obtain ⟨-, rfl⟩ := hstep
      exact ih hu

/-! ### ReadProperty -/

/-- A frame that asks for a property. -/
structure Asks (codec : Codec WhoIs) (frame : Bytes) (invokeId : UInt8) (req : ReadPropertyRequest) : Prop where
  asks : ∃ apduBytes serviceData, Carries codec frame apduBytes ∧
    codec.decodeApdu apduBytes = .ok (.confirmedRequest invokeId .readProperty serviceData) ∧
    codec.decodeReadProperty serviceData = .ok req

theorem Asks.handle {frame : Bytes} {invokeId : UInt8} {req : ReadPropertyRequest} (h : Asks codec frame invokeId req)
    (values : Values) : codec.handle frame values = .ok (codec.answerReadProperty invokeId req values) := by
  obtain ⟨apduBytes, serviceData, hcarries, hapdu, hreq⟩ := h.asks
  rw [hcarries.handle, Codec.dispatch, hapdu]
  show Except.ok (((codec.decodeReadProperty serviceData).mapError _ >>= _) : Except String (Option Bytes)) = _
  rw [hreq]
  rfl

/-- The one property the device serves. -/
def presentTemp : ReadPropertyRequest :=
  { objectIdentifier := { objectType := .analogInput, inst := 1 }, propertyIdentifier := .presentValue }

/-- The ComplexAck of a value, or why it could not be encoded. -/
def ackFrame (codec : Codec WhoIs) (invokeId : UInt8) (req : ReadPropertyRequest) (value : ℚ) : Except String Bytes := do
  let svc ← (codec.encodeReadPropertyResponse
    { objectIdentifier := req.objectIdentifier, propertyIdentifier := req.propertyIdentifier
      propertyValues := [.real value] }).mapError ("rp resp encode: " ++ ·)
  return codec.wrapBvlc (codec.encodeApdu (.complexAck false false invokeId none none .readProperty svc)) 0x0A

theorem answerReadProperty_of_value {values : Values} {req : ReadPropertyRequest} {v : ℚ}
    (htype : req.objectIdentifier.objectType = .analogInput) (hproperty : req.propertyIdentifier = .presentValue)
    (hv : values.lookup req.objectIdentifier.inst = some v) (invokeId : UInt8) :
    codec.answerReadProperty invokeId req values = some <$> ackFrame codec invokeId req v := by
  have hserved : ¬ (req.objectIdentifier.objectType ≠ .analogInput ∨ req.propertyIdentifier ≠ .presentValue) := by
    simp [htype, hproperty]
  unfold Codec.answerReadProperty ackFrame
  rw [if_neg hserved, hv]
  dsimp only
  generalize codec.encodeReadPropertyResponse _ = encoded
  cases encoded <;> rfl

theorem answerReadProperty_eq {n : ℕ} {values : Values} (h : ShowsAt n values) (invokeId : UInt8)
    (req : ReadPropertyRequest) : codec.answerReadProperty invokeId req values =
      if req = presentTemp then some <$> ackFrame codec invokeId req (supplyTempAt n) else .ok none := by
  by_cases hreq : req = presentTemp
  · subst hreq
    rw [if_pos rfl]
    exact answerReadProperty_of_value rfl rfl (h 1) invokeId
  · rw [if_neg hreq]
    unfold Codec.answerReadProperty
    split
    · rfl
    · rename_i hserved
      -- analog input and present value, so another instance
      have hinst : req.objectIdentifier.inst ≠ 1 := by
        intro hinst
        obtain ⟨⟨objectType, inst⟩, propertyIdentifier⟩ := req
        obtain ⟨rfl, rfl⟩ : objectType = .analogInput ∧ propertyIdentifier = .presentValue := by simpa using hserved
        obtain rfl : inst = 1 := hinst
        exact hreq rfl
      rw [h, if_neg hinst]

/-- However ticks and frames interleave, a ReadProperty is answered with the supply temperature after the ticks so far
if it asks for that, and dropped if it asks for anything else. -/
theorem present_value_served (codec : Codec WhoIs) (ops : List Op) (t : Values)
    (h : Run (Step codec) (seed strategies) ops t) (before after : List Op) (frame : Bytes)
    (result : Except String (Option Bytes)) (hops : ops = before ++ .frame frame result :: after) (invokeId : UInt8)
    (req : ReadPropertyRequest) (hasks : Asks codec frame invokeId req) :
    result = if req = presentTemp then some <$> ackFrame codec invokeId req (7 + (before.countP Op.isTick % 17 : ℕ) / 2)
      else .ok none := by
  subst hops
  obtain ⟨u, hu, hrest⟩ := run_append_iff.1 h
  obtain ⟨v, ⟨hresult, -⟩, -⟩ := run_cons_iff.1 hrest
  have hvalue : supplyTempAt (before.countP Op.isTick) = 7 + (before.countP Op.isTick % 17 : ℕ) / 2 := by
    show (7 : ℚ) + (before.countP Op.isTick % 17) • (1 / 2 : ℚ) = _
    rw [nsmul_eq_mul]
    ring
  rw [hasks.handle, answerReadProperty_eq (showsAt_of_run hu), hvalue] at hresult
  exact (Except.ok.inj hresult).symm

/-- A ReadProperty of AI 1 with invoke id 1. -/
def readTemp : Bytes :=
  [0x81, 0x0A, 0x00, 0x11, 0x01, 0x04, 0x00, 0x05, 0x01, 0x0C, 0x0C, 0x00, 0x00, 0x00, 0x01, 0x19, 85]

/-- The ComplexAck of 7.5. -/
def tempReply : Bytes :=
  [0x81, 0x0A, 0x00, 0x17, 0x01, 0x00, 0x30, 0x01, 0x0C, 0x0C, 0x00, 0x00, 0x00, 0x01, 0x19, 85, 0x3E, 0x44, 0x40, 0xF0,
    0x00, 0x00, 0x3F]

theorem readTemp_asks : Asks wireCodec readTemp 1 presentTemp :=
  ⟨_, _, ⟨0x0A, 0x00, 0x11, _, 2, rfl, Or.inl rfl, rfl, by decide, rfl⟩, rfl, rfl⟩

/-- The temperature after one tick. -/
theorem present_value_served_one_tick : ∃ t, Run (Step wireCodec) (seed strategies)
    [.tick, .frame readTemp (.ok (some tempReply))] t := by
  have hrun : Run (Step wireCodec) (seed strategies) [.tick, .frame readTemp _] (tick (seed strategies) strategies) :=
    Run.cons rfl (Run.cons ⟨readTemp_asks.handle _, rfl⟩ (Run.nil _))
  have hresult := present_value_served wireCodec _ _ hrun [.tick] [] readTemp _ rfl 1 presentTemp readTemp_asks
  have hreply : ackFrame wireCodec 1 presentTemp (7 + ([Op.tick].countP Op.isTick % 17 : ℕ) / 2) = .ok tempReply := by
    decide +kernel
  rw [hresult, if_pos rfl, hreply] at hrun
  exact ⟨_, hrun⟩

end EmsFixtures.Bacnet
