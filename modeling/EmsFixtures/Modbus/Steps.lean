import EmsFixtures.Modbus.ExactRack

/-!
# Many steps of one rack

A rack is a battery with the register map its last step left.  Between two steps anyone may write the map and drive
registers, so a step is labelled with the map, the driven set and the time it is called with (`Call`); a rack left
alone is stepped on the map it has written (`Battery.run`).

What a step publishes is a list of entries, `Battery.image`.  Which addresses it names depends on the driven set only,
so the image of a later step covers that of an earlier one (`insertAll_image`).
-/

namespace EmsFixtures.Modbus

open HashMap Panics

/-- What `Battery::step` is called with. -/
structure Call where
  holding : Registers
  driven : Finset UInt16
  dt : Duration

/-- A battery and the register map as its last step left it. -/
structure Rack (F : Type) where
  battery : Battery F
  holding : Registers

section Runs

variable {F : Type} [F64 F]

def Rack.Step (r : Rack F) (c : Call) (r' : Rack F) : Prop :=
  r.battery.step c.holding c.driven c.dt = .ok (r'.battery, r'.holding)

theorem Rack.step_det (r : Rack F) (c : Call) (r₁ r₂ : Rack F) (h₁ : r.Step c r₁) (h₂ : r.Step c r₂) : r₁ = r₂ := by
  have h := Except.ok.inj (h₁.symm.trans h₂)
  obtain ⟨b₁, m₁⟩ := r₁
  obtain ⟨b₂, m₂⟩ := r₂
  cases h
  rfl

/-- One step after the other, each with its driven set and its time. -/
def Battery.run (b : Battery F) (holding : Registers) :
    List (Finset UInt16 × Duration) → Except Panic (Battery F × Registers)
  | [] => .ok (b, holding)
  | tick :: ticks => do
    let (b, holding) ← b.step holding tick.1 tick.2
    b.run holding ticks

theorem Battery.run_cons {b b' : Battery F} {holding holding' : Registers} {tick : Finset UInt16 × Duration}
    (h : b.step holding tick.1 tick.2 = .ok (b', holding')) (ticks : List (Finset UInt16 × Duration)) :
    b.run holding (tick :: ticks) = b'.run holding' ticks := by
  rw [Battery.run, h]
  rfl

end Runs

/-! ### Writes as lists of entries -/

/-- What `put` writes. -/
def wordEntry (driven : Finset UInt16) (addr value : UInt16) : List (UInt16 × UInt16) :=
  if addr ∈ driven then [] else [(addr, value)]

/-- What `putI32` writes. -/
def pairEntries (driven : Finset UInt16) (addr : UInt16) (value : Int32) : List (UInt16 × UInt16) :=
  if addr ∈ driven ∨ addr + 1 ∈ driven then []
  else [(addr, Words.high value.toUInt32), (addr + 1, Words.low value.toUInt32)]

theorem put_eq_insertAll (holding : Registers) (driven : Finset UInt16) (addr value : UInt16) :
    put holding driven addr value = holding.insertAll (wordEntry driven addr value) := by
  unfold put wordEntry
  split <;> rfl

theorem putI32_eq_insertAll (holding : Registers) (driven : Finset UInt16) (addr : UInt16) (value : Int32) :
    putI32 holding driven addr value = holding.insertAll (pairEntries driven addr value) := by
  unfold putI32 pairEntries
  split <;> rfl

theorem keys_wordEntry (driven : Finset UInt16) (addr value value' : UInt16) :
    (wordEntry driven addr value).map Prod.fst = (wordEntry driven addr value').map Prod.fst := by
  unfold wordEntry
  split <;> rfl

theorem keys_pairEntries (driven : Finset UInt16) (addr : UInt16) (value value' : Int32) :
    (pairEntries driven addr value).map Prod.fst = (pairEntries driven addr value').map Prod.fst := by
  unfold pairEntries
  split <;> rfl

theorem keys_wordEntry_sublist (driven : Finset UInt16) (addr value : UInt16) :
    ((wordEntry driven addr value).map Prod.fst).Sublist [addr] := by
  unfold wordEntry
  split
  · exact List.nil_sublist _
  · exact List.Sublist.refl _

theorem keys_pairEntries_sublist (driven : Finset UInt16) (addr : UInt16) (value : Int32) :
    ((pairEntries driven addr value).map Prod.fst).Sublist [addr, addr + 1] := by
  unfold pairEntries
  split
  · exact List.nil_sublist _
  · exact List.Sublist.refl _

theorem mem_wordEntry {driven : Finset UInt16} {addr value : UInt16} {e : UInt16 × UInt16}
    (h : e ∈ wordEntry driven addr value) : e = (addr, value) := by
  unfold wordEntry at h
  split at h
  · cases h
  · exact List.mem_singleton.1 h

theorem mem_pairEntries {driven : Finset UInt16} {addr : UInt16} {value : Int32} {e : UInt16 × UInt16}
    (h : e ∈ pairEntries driven addr value) :
    e = (addr, Words.high value.toUInt32) ∨ e = (addr + 1, Words.low value.toUInt32) := by
  unfold pairEntries at h
  split at h
  · cases h
  · simpa using h

/-! ### The image of a step -/

namespace Battery

variable {b b' : Battery ℚ}

/-- What a battery that has just delivered `power` publishes. -/
def image (b : Battery ℚ) (driven : Finset UInt16) (power : ℚ) : List (UInt16 × UInt16) :=
  wordEntry driven soc (roundU16 (b.socPercent * 10)) ++ pairEntries driven activePower (roundI32 power) ++
    pairEntries driven energyDischarged (roundI32 b.energyDischargedWh) ++
    pairEntries driven maxCharge (roundI32 (chargeLimit b.config.powerLimitW b.socPercent)) ++
    pairEntries driven maxDischarge (roundI32 (dischargeLimit b.config.powerLimitW b.socPercent)) ++
    wordEntry driven operatingState (stateOf power)

theorem publish_image (holding : Registers) (driven : Finset UInt16) (power : ℚ) :
    b.publish holding driven power = .ok (holding.insertAll (b.image driven power)) := by
  rw [publish_rat]
  simp only [put_eq_insertAll, putI32_eq_insertAll, image, insertAll_append]

theorem keys_image (b b' : Battery ℚ) (driven : Finset UInt16) (power power' : ℚ) :
    (b.image driven power).map Prod.fst = (b'.image driven power').map Prod.fst := by
  simp only [image, List.map_append]
  rw [keys_wordEntry driven soc _ (roundU16 (b'.socPercent * 10)), keys_pairEntries driven activePower _ (roundI32 power'),
    keys_pairEntries driven energyDischarged _ (roundI32 b'.energyDischargedWh),
    keys_pairEntries driven maxCharge _ (roundI32 (chargeLimit b'.config.powerLimitW b'.socPercent)),
    keys_pairEntries driven maxDischarge _ (roundI32 (dischargeLimit b'.config.powerLimitW b'.socPercent)),
    keys_wordEntry driven operatingState _ (stateOf power')]

/-- No image names an address twice. -/
theorem keys_image_nodup (b : Battery ℚ) (driven : Finset UInt16) (power : ℚ) :
    ((b.image driven power).map Prod.fst).Nodup := by
  have hword := keys_wordEntry_sublist driven
  have hpair := keys_pairEntries_sublist driven
  have hall : ([soc] ++ [activePower, activePower + 1] ++ [energyDischarged, energyDischarged + 1] ++
      [maxCharge, maxCharge + 1] ++ [maxDischarge, maxDischarge + 1] ++ [operatingState]).Nodup := by decide
  apply List.Nodup.sublist _ hall
  simp only [image, List.map_append]
  exact (((((hword _ _).append (hpair _ _)).append (hpair _ _)).append (hpair _ _)).append (hpair _ _)).append (hword _ _)

/-- What a step publishes stands in the map it leaves. -/
theorem lookup_publish {holding holding' : Registers} {driven : Finset UInt16} {power : ℚ} {a w : UInt16}
    (h : b.publish holding driven power = .ok holding') (ha : (a, w) ∈ b.image driven power) :
    holding'.lookup a = some w := by
  rw [publish_image] at h
  cases h
  rw [lookup_insertAll, lastIn_of_mem (keys_image_nodup b driven power) ha, Option.some_or]

/-- An undriven pair of the image stands there as its two words. -/
theorem lookup_publish_pair {holding holding' : Registers} {driven : Finset UInt16} {power : ℚ} {addr : UInt16}
    {value : Int32} (h : b.publish holding driven power = .ok holding')
    (himage : pairEntries driven addr value ⊆ b.image driven power) (hd : addr ∉ driven) (hd' : addr + 1 ∉ driven) :
    holding'.lookup addr = some (Words.high value.toUInt32) ∧
      holding'.lookup (addr + 1) = some (Words.low value.toUInt32) := by
  have hpair : pairEntries driven addr value =
      [(addr, Words.high value.toUInt32), (addr + 1, Words.low value.toUInt32)] := if_neg (by simp [hd, hd'])
  rw [hpair] at himage
  exact ⟨lookup_publish h (himage List.mem_cons_self), lookup_publish h (himage (by simp))⟩

/-- Of two images for one driven set the later covers the earlier. -/
theorem insertAll_image (holding : Registers) (b b' : Battery ℚ) (driven : Finset UInt16) (power power' : ℚ) :
    (holding.insertAll (b.image driven power)).insertAll (b'.image driven power') =
      holding.insertAll (b'.image driven power') := by
  apply insertAll_insertAll
  intro k hk
  rwa [keys_image b b' driven power power'] at hk

/-- No image names a setpoint register. -/
theorem setpointOf_insertAll_image (holding : Registers) (b : Battery ℚ) (driven : Finset UInt16) (power : ℚ) :
    setpointOf (holding.insertAll (b.image driven power)) = setpointOf holding := by
  have hapart : ∀ p ∈ [activePower, energyDischarged, maxCharge, maxDischarge],
      SameOrApart setpoint p ∧ setpoint ≠ p := List.forall_iff_forall_mem.1 (by decide)
  have hread : readI32 (holding.insertAll (b.image driven power)) setpoint = readI32 holding setpoint := by
    simp only [image, insertAll_append, ← put_eq_insertAll, ← putI32_eq_insertAll]
    rw [readI32_put (by decide) (by decide), readI32_putI32_of_ne (hapart _ (by simp)).1 (hapart _ (by simp)).2,
      readI32_putI32_of_ne (hapart _ (by simp)).1 (hapart _ (by simp)).2,
      readI32_putI32_of_ne (hapart _ (by simp)).1 (hapart _ (by simp)).2,
      readI32_putI32_of_ne (hapart _ (by simp)).1 (hapart _ (by simp)).2, readI32_put (by decide) (by decide)]
  rw [setpointOf, hread, setpointOf]

end Battery

end EmsFixtures.Modbus
