import EmsFixtures.Modbus.Poi
import EmsFixtures.Redfish.GpuChassis
import EmsFixtures.Snmp.Readings

/-!
# What a cap does downstream

A GPU node's draw, the PDU that follows it and the site's POI meter, compared for two runs of the fixtures of which one
has lower caps.  Every stage is monotone up to the PDU's milliamps, which are the hundredths of an amp times ten in
`i64`.  Those pass the end of the range at `i64::MAX / 10` hundredths, and a meter that has passed it once reads negative
(`capping_lowers_meters`).
-/

namespace EmsFixtures

open HashMap Redfish Snmp Modbus

/-- The draw `node_power` reads from a chassis Power. -/
def nodePower {F : Type} [F64 F] (body : Json F) : Option F :=
  (body.pointer "/PowerControl/0/PowerConsumedWatts").bind Json.asF64

/-! ### The node -/

/-- The same demand under a cap that is no higher. -/
def CappedBelow (g h : Gpu ℚ) : Prop := g.demandW = h.demandW ∧ g.setPointW ≤ h.setPointW

theorem powerW_mono {g h : Gpu ℚ} (hcap : CappedBelow g h) : g.powerW ≤ h.powerW := by
  rw [powerW_rat, powerW_rat, hcap.1]
  exact min_le_min_left h.demandW hcap.2

theorem sum_powerW_mono {gpus gpus' : List (Gpu ℚ)} (hcap : List.Forall₂ CappedBelow gpus gpus') :
    (gpus.map Gpu.powerW).sum ≤ (gpus'.map Gpu.powerW).sum := by
  induction hcap with
  | nil => simp
  | cons h _ ih =>
    simp only [List.map_cons, List.sum_cons]
    exact add_le_add (powerW_mono h) ih

theorem nodePower_mono (c : GpuChassis ℚ) {gpus gpus' : List (Gpu ℚ)} (hcap : List.Forall₂ CappedBelow gpus gpus') :
    ∃ w w', nodePower (powerJson c gpus) = some w ∧ nodePower (powerJson c gpus') = some w' ∧ w ≤ w' := by
  refine ⟨_, _, consumedWatts_powerJson c gpus, consumedWatts_powerJson c gpus', ?_⟩
  have := sum_powerW_mono hcap
  linarith

/-! ### The PDU -/

theorem powerOf_mono {load : PduLoad ℚ} (hnodes : 0 ≤ load.nodes) (hshare : 0 < load.share) {a b : ℚ} (hab : a ≤ b) :
    powerOf load a ≤ powerOf load b := by
  have := mul_le_mul_of_nonneg_left hab hnodes
  unfold powerOf
  apply div_le_div_of_nonneg_right _ hshare.le
  linarith

/-- The current of a phase at `decivolts` in whole hundredths of an amp, as far as `i64` goes. -/
def centiamps (load : PduLoad ℚ) (nodeW : ℚ) (decivolts : ℤ) : ℤ :=
  let hundredths := (load.nodes * nodeW + load.baseW) / load.share / 3 / (decivolts / 10) * 100
  max (-2 ^ 63) (min (F64.roundHalfAway hundredths) (2 ^ 63 - 1))

theorem toInt_currentAt (load : PduLoad ℚ) (nodeW : ℚ) (decivolts : Int64) :
    (currentAt (powerOf load nodeW) decivolts).toInt = centiamps load nodeW decivolts.toInt :=
  F64.toInt_toI64_round _

theorem centiamps_mono {load : PduLoad ℚ} (hnodes : 0 ≤ load.nodes) (hshare : 0 < load.share) {a b : ℚ} (hab : a ≤ b)
    {decivolts : ℤ} (hv : 0 < decivolts) : centiamps load a decivolts ≤ centiamps load b decivolts := by
  have hpower := powerOf_mono hnodes hshare hab
  have hvolts : (0 : ℚ) < decivolts / 10 := by
    have : (0 : ℚ) < decivolts := by exact_mod_cast hv
    positivity
  have hround : F64.roundHalfAway (powerOf load a / 3 / (decivolts / 10) * 100) ≤
      F64.roundHalfAway (powerOf load b / 3 / (decivolts / 10) * 100) := by
    apply F64.roundHalfAway_mono
    gcongr
  unfold powerOf at hround
  dsimp only [centiamps]
  omega

/-- How often ten times a current passes the end of `i64`. -/
def laps (current : ℤ) : ℤ := (10 * current + 2 ^ 63) / 2 ^ 64

theorem toInt_mul_ten (current : Int64) :
    (current * 10).toInt = 10 * current.toInt - 2 ^ 64 * laps current.toInt := by
  have hten : (10 : Int64).toInt = 10 := rfl
  rw [Int64.toInt_mul, hten, Int.bmod_def, laps]
  split <;> omega

/-- Between the draws `a` and `b` the milliamps of each phase rise by a whole range for every time they wrap. -/
def RisesPastWraps (load : PduLoad ℚ) (values : Values) (a b : ℚ) : Prop :=
  ∀ phase ∈ phases,
    let low := centiamps load a (phaseVoltage values phase).toInt
    let high := centiamps load b (phaseVoltage values phase).toInt
    2 ^ 64 * (laps high - laps low) ≤ 10 * (high - low)

/-- The draw keeps the current of a phase at `decivolts` within `limit` hundredths of an amp, once rounded. -/
def CurrentWithin (limit : ℤ) (load : PduLoad ℚ) (nodeW : ℚ) (decivolts : ℤ) : Prop :=
  |1000 * (load.nodes * nodeW + load.baseW)| < 3 * load.share * decivolts * (limit + 1 / 2)

instance (limit : ℤ) (load : PduLoad ℚ) (nodeW : ℚ) (decivolts : ℤ) :
    Decidable (CurrentWithin limit load nodeW decivolts) := inferInstanceAs (Decidable (_ < _))

private theorem abs_roundHalfAway_le_iff {limit : ℤ} (hl : 0 ≤ limit) (x : ℚ) :
    |F64.roundHalfAway x| ≤ limit ↔ |x| < limit + 1 / 2 := by
  have hbelow : ∀ x : ℚ, F64.roundHalfAway x ≤ limit ↔ x < limit + 1 / 2 := by
    intro x
    rw [← not_lt, ← Int.add_one_le_iff, F64.le_roundHalfAway_iff (by omega), not_le]
    push_cast
    constructor <;> intro h <;> linarith
  rw [abs_le', ← F64.roundHalfAway_neg, hbelow, hbelow, abs_lt, and_comm, neg_lt]

theorem currentWithin_iff {load : PduLoad ℚ} (hshare : 0 < load.share) {limit decivolts : ℤ} (hl : 0 ≤ limit)
    (hl' : limit < 2 ^ 63 - 1) (hv : 0 < decivolts) {nodeW : ℚ} :
    CurrentWithin limit load nodeW decivolts ↔ |centiamps load nodeW decivolts| ≤ limit := by
  have hvolts : (0 : ℚ) < decivolts := by exact_mod_cast hv
  have hscale : 0 < 3 * load.share * (decivolts : ℚ) := by positivity
  have hcurrent : (load.nodes * nodeW + load.baseW) / load.share / 3 / (decivolts / 10) * 100 =
      1000 * (load.nodes * nodeW + load.baseW) / (3 * load.share * decivolts) := by
    field_simp
    ring
  have hround : CurrentWithin limit load nodeW decivolts ↔
      |F64.roundHalfAway ((load.nodes * nodeW + load.baseW) / load.share / 3 / (decivolts / 10) * 100)| ≤ limit := by
    rw [abs_roundHalfAway_le_iff hl, hcurrent, abs_div, abs_of_pos hscale, div_lt_iff₀' hscale]
    rfl
  rw [hround]
  dsimp only [centiamps]
  simp only [abs_le]
  omega

/-- The milliamps of a phase stay in `i64`. -/
def MilliampsFit (load : PduLoad ℚ) (nodeW : ℚ) (decivolts : ℤ) : Prop :=
  CurrentWithin 922337203685477580 load nodeW decivolts

instance (load : PduLoad ℚ) (nodeW : ℚ) (decivolts : ℤ) : Decidable (MilliampsFit load nodeW decivolts) :=
  inferInstanceAs (Decidable (CurrentWithin ..))

theorem milliampsFit_iff {load : PduLoad ℚ} (hshare : 0 < load.share) {decivolts : ℤ} (hv : 0 < decivolts) {nodeW : ℚ} :
    MilliampsFit load nodeW decivolts ↔ laps (centiamps load nodeW decivolts) = 0 := by
  rw [MilliampsFit, currentWithin_iff hshare (by norm_num) (by norm_num) hv, abs_le, laps]
  omega

/-- No OID of `low` is above that of `high`. -/
def ReadsBelow (low high : Values) : Prop :=
  ∀ oid v w, low.lookup oid = some v → high.lookup oid = some w → v.toInt ≤ w.toInt

theorem keys_readings (load : PduLoad ℚ) (values : Values) (a b : ℚ) :
    (readings load a values).keys = (readings load b values).keys := by
  ext oid
  rw [Finmap.mem_keys, Finmap.mem_keys, mem_readings_iff, mem_readings_iff]

theorem toInt_pole (load : PduLoad ℚ) (nodeW : ℚ) (decivolts : Int64) :
    (currentAt (powerOf load nodeW) decivolts * 10).toInt =
      10 * centiamps load nodeW decivolts.toInt - 2 ^ 64 * laps (centiamps load nodeW decivolts.toInt) := by
  rw [toInt_mul_ten, toInt_currentAt]

/-- Only the milliamps can fall as the node's draw rises, where they wrap. -/
theorem readsBelow_iff {load : PduLoad ℚ} (hnodes : 0 ≤ load.nodes) (hshare : 0 < load.share) {values : Values}
    (hvolts : ∀ phase ∈ phases, 0 < (phaseVoltage values phase).toInt) {a b : ℚ} (hab : a ≤ b) :
    ReadsBelow (readings load a values) (readings load b values) ↔ RisesPastWraps load values a b := by
  have hpower := F64.toI64_round_mono (powerOf_mono hnodes hshare hab)
  constructor
  · intro h phase hp
    have hpole := h (pole phase rmsCurrent) _ _ (lookup_readings_pole hp) (lookup_readings_pole hp)
    rw [toInt_pole, toInt_pole] at hpole
    dsimp only
    omega
  · intro h oid v w hv hw
    have hkey : oid ∈ readingKeys := by
      have hmem : oid ∈ readings load a values := Finmap.mem_iff.2 ⟨v, hv⟩
      exact mem_readings_iff.1 hmem
    rcases mem_readingKeys.1 hkey with rfl | rfl | ⟨phase, hp, rfl | rfl⟩
    · rw [lookup_readings_power] at hv hw
      cases hv
      cases hw
      exact hpower
    · rw [lookup_readings_inlet] at hv hw
      cases hv
      cases hw
      exact hpower
    · rw [lookup_readings_current hp] at hv hw
      cases hv
      cases hw
      rw [toInt_currentAt, toInt_currentAt]
      exact centiamps_mono hnodes hshare hab (hvolts phase hp)
    · rw [lookup_readings_pole hp] at hv hw
      cases hv
      cases hw
      have hwrap := h phase hp
      rw [toInt_pole, toInt_pole]
      dsimp only at hwrap
      omega

/-- Currents whose milliamps do not wrap rise. -/
theorem risesPastWraps_of_fit {load : PduLoad ℚ} (hnodes : 0 ≤ load.nodes) (hshare : 0 < load.share) {values : Values}
    (hvolts : ∀ phase ∈ phases, 0 < (phaseVoltage values phase).toInt) {a b : ℚ} (hab : a ≤ b)
    (hfit : ∀ phase ∈ phases, MilliampsFit load a (phaseVoltage values phase).toInt ∧
      MilliampsFit load b (phaseVoltage values phase).toInt) : RisesPastWraps load values a b := by
  intro phase hp
  obtain ⟨ha, hb⟩ := hfit phase hp
  have hmono := centiamps_mono hnodes hshare hab (hvolts phase hp)
  rw [milliampsFit_iff hshare (hvolts phase hp)] at ha hb
  dsimp only
  omega

/-- A current that has passed the end of `i64` once wraps below every one that is not negative. -/
theorem not_risesPastWraps {load : PduLoad ℚ} (hnodes : 0 ≤ load.nodes) (hshare : 0 < load.share) {values : Values}
    {phase : UInt32} (hp : phase ∈ phases) (hv : 0 < (phaseVoltage values phase).toInt) {a b : ℚ} (hab : a ≤ b)
    (hpos : 0 ≤ load.nodes * a + load.baseW) (ha : MilliampsFit load a (phaseVoltage values phase).toInt)
    (hb : ¬ MilliampsFit load b (phaseVoltage values phase).toInt)
    (honce : CurrentWithin (2 * 922337203685477580) load b (phaseVoltage values phase).toInt) :
    ¬ RisesPastWraps load values a b := by
  intro h
  have hrise := h phase hp
  have hlow : 0 ≤ centiamps load a (phaseVoltage values phase).toInt := by
    have hnonneg := F64.roundHalfAway_nonneg (x := (load.nodes * a + load.baseW) / load.share / 3 /
      ((phaseVoltage values phase).toInt / 10) * 100) (by positivity)
    dsimp only [centiamps]
    omega
  have hmono := centiamps_mono hnodes hshare hab hv
  rw [milliampsFit_iff hshare hv] at ha hb
  rw [currentWithin_iff hshare (by norm_num) (by norm_num) hv, abs_le] at honce
  dsimp only at hrise
  unfold laps at *
  omega

/-! ### The site -/

theorem siteLoad_mono (fixedW : ℚ) {compute : ComputeLoad ℚ} (hnodes : 0 ≤ compute.nodes) {a b : ℚ} (hab : a ≤ b) :
    siteLoad fixedW (some (compute, a)) ≤ siteLoad fixedW (some (compute, b)) := by
  have := mul_le_mul_of_nonneg_left hab hnodes
  show fixedW + compute.nodes * a ≤ fixedW + compute.nodes * b
  linarith

theorem poiActivePowerW_mono {low high : ℚ} (h : low ≤ high) (rackPowersW : List ℚ) :
    poiActivePowerW low rackPowersW ≤ poiActivePowerW high rackPowersW := by
  unfold poiActivePowerW
  linarith

/-! ### The chain -/

/-- No meter downstream of the GPUs reads more under the lower caps, and none downstream of a node at the lower draw. -/
structure LowersMeters (c : GpuChassis ℚ) (capped gpus : List (Gpu ℚ)) (load : PduLoad ℚ) (values : Values) (a b : ℚ)
    (fixedW : ℚ) (compute : ComputeLoad ℚ) (rackPowersW : List ℚ) : Prop where
  node : ∃ w w', nodePower (powerJson c capped) = some w ∧ nodePower (powerJson c gpus) = some w' ∧ w ≤ w'
  pdu : ReadsBelow (readings load a values) (readings load b values)
  keys : (readings load a values).keys = (readings load b values).keys
  site : siteLoad fixedW (some (compute, a)) ≤ siteLoad fixedW (some (compute, b))
  poi : poiActivePowerW (siteLoad fixedW (some (compute, a))) rackPowersW ≤
    poiActivePowerW (siteLoad fixedW (some (compute, b))) rackPowersW

/-- A cap lowers every meter downstream as long as the PDU's milliamps stay in `i64` at both draws.  It raises one where
they do at the lower draw, which is not negative, and have passed the end once at the higher. -/
theorem capping_lowers_meters (c : GpuChassis ℚ) (capped gpus : List (Gpu ℚ))
    (hcap : List.Forall₂ CappedBelow capped gpus) (load : PduLoad ℚ) (hnodes : 0 ≤ load.nodes) (hshare : 0 < load.share)
    (values : Values) (hvolts : ∀ phase ∈ phases, 0 < (phaseVoltage values phase).toInt) (a b : ℚ) (hab : a ≤ b)
    (fixedW : ℚ) (compute : ComputeLoad ℚ) (hcompute : 0 ≤ compute.nodes) (rackPowersW : List ℚ) :
    ((∀ phase ∈ phases, MilliampsFit load a (phaseVoltage values phase).toInt ∧
        MilliampsFit load b (phaseVoltage values phase).toInt) →
      LowersMeters c capped gpus load values a b fixedW compute rackPowersW) ∧
    ∀ phase ∈ phases, 0 ≤ load.nodes * a + load.baseW → MilliampsFit load a (phaseVoltage values phase).toInt →
      ¬ MilliampsFit load b (phaseVoltage values phase).toInt →
      CurrentWithin (2 * 922337203685477580) load b (phaseVoltage values phase).toInt →
      ¬ LowersMeters c capped gpus load values a b fixedW compute rackPowersW := by
  have hpdu := readsBelow_iff hnodes hshare hvolts hab
  have hsite := siteLoad_mono fixedW hcompute hab
  constructor
  · intro hfit
    exact
      { node := nodePower_mono c hcap
        pdu := hpdu.2 (risesPastWraps_of_fit hnodes hshare hvolts hab hfit)
        keys := keys_readings load values a b
        site := hsite
        poi := poiActivePowerW_mono hsite rackPowersW }
  · intro phase hp hpos ha hb honce h
    exact not_risesPastWraps hnodes hshare hp (hvolts phase hp) hab hpos ha hb honce (hpdu.1 h.pdu)

/-- A GPU capped to 700 W beside one that is not. -/
def cappedGpu (watts : ℚ) : Gpu ℚ := { demandW := 1000, setPointW := watts, maxClockMhz := 1980 }

/-- One GPU of the node is capped from 1000 W to 700 W. -/
theorem capping_lowers_meters_container : LowersMeters GpuChassis.defaults [cappedGpu 700, cappedGpu 1000]
    [cappedGpu 1000, cappedGpu 1000] PduLoad.defaults (initialValues ℚ) 4200 4500 1000 { nodes := 1 } [500, -200] := by
  refine (capping_lowers_meters GpuChassis.defaults _ _ ?_ PduLoad.defaults ?_ ?_ (initialValues ℚ) ?_ 4200 4500
    ?_ 1000 { nodes := 1 } ?_ [500, -200]).1 ?_
  · exact .cons ⟨rfl, by decide +kernel⟩ (.cons ⟨rfl, le_refl _⟩ .nil)
  · decide +kernel
  · decide +kernel
  · exact List.forall_iff_forall_mem.1 (by decide +kernel)
  · norm_num
  · norm_num
  · exact List.forall_iff_forall_mem.1 (by decide +kernel)

/-- At a draw of 4e18 W the milliamps of L1 have wrapped to less than at 10.5 kW. -/
theorem capping_raises_wrapped_milliamps : ∃ (load : PduLoad ℚ) (a b : ℚ) (v w : Int64), load = PduLoad.defaults ∧
    a = 10500 ∧ b = 4000000000000000000 ∧
    (readings load a (initialValues ℚ)).lookup (pole 1 rmsCurrent) = some v ∧
    (readings load b (initialValues ℚ)).lookup (pole 1 rmsCurrent) = some w ∧ w.toInt < 0 ∧ 0 < v.toInt ∧
    ¬ ReadsBelow (readings load a (initialValues ℚ)) (readings load b (initialValues ℚ)) := by
  have hp : (1 : UInt32) ∈ phases := by simp [phases]
  refine ⟨_, _, _, _, _, rfl, rfl, rfl, lookup_readings_pole hp, lookup_readings_pole hp, ?_, ?_, fun h => ?_⟩
  · decide +kernel
  · decide +kernel
  · have hle := h _ _ _ (lookup_readings_pole hp) (lookup_readings_pole hp)
    revert hle
    decide +kernel

end EmsFixtures
