import EmsFixtures.Modbus.Poi
import EmsFixtures.Modbus.Steps

/-!
# A rack's power at the POI meter

The rack writes its power as two words and the POI meter, another process, joins the two words it reads.  Both follow
one word order and one reinterpretation of the sign, so an int32 put into an undriven pair is read back by either
decoder, for every int32 and every map (`register_codec_agrees`), and the meter sums what the racks publish
(`readRackPower_publish`).
-/

namespace EmsFixtures.Modbus

open HashMap

variable {F : Type} [F64 F]

/-- The meter joins the words of an int32 to that int32. -/
theorem readRackPower_words (v : Int32) :
    readRackPower (some [Words.high v.toUInt32, Words.low v.toUInt32]) = some (F64.lit v.toInt : F) := by
  have hjoin : (Words.join (Words.high v.toUInt32) (Words.low v.toUInt32)).toInt32 = v := by
    rw [Words.join_high_low]
    exact Int32.toInt32_toUInt32 v
  show some (F64.lit (Words.join (Words.high v.toUInt32) (Words.low v.toUInt32)).toInt32.toInt : F) = _
  rw [hjoin]

theorem readPair_of_lookup {h : MeterHandler} {a high low : UInt16} (hhigh : h.holding.lookup a = some high)
    (hlow : h.holding.lookup (a + 1) = some low) : h.readPair a = some [high, low] := by
  unfold MeterHandler.readPair MeterHandler.readHoldingRegister
  rw [hhigh, hlow]

/-- What one process puts into an undriven pair the other reads, and no other address changes; a pair with a driven
word is left alone, with the whole map.  At the last address the second word is that of address 0. -/
theorem register_codec_agrees (holding : Registers) (driven : Finset UInt16) (a : UInt16) (v : Int32) :
    (a ∉ driven → a + 1 ∉ driven →
      readI32 (putI32 holding driven a v) a = v ∧
      (∃ high low, (putI32 holding driven a v).lookup a = some high ∧
        (putI32 holding driven a v).lookup (a + 1) = some low ∧
        readRackPower (some [high, low]) = some (F64.lit v.toInt : F)) ∧
      ∀ b, b ≠ a → b ≠ a + 1 → (putI32 holding driven a v).lookup b = holding.lookup b) ∧
    (a ∈ driven ∨ a + 1 ∈ driven → putI32 holding driven a v = holding) := by
  refine ⟨fun h h' => ?_, putI32_of_driven⟩
  have hwords := lookup_putI32 holding v h h'
  exact ⟨readI32_putI32 h h', ⟨_, _, hwords.1, hwords.2, readRackPower_words v⟩,
    fun b hb hb' => lookup_putI32_of_ne hb hb'⟩

/-- A rack that takes 3 MW from the grid, and one whose low word is driven. -/
theorem register_codec_agrees_charging : readI32 (putI32 ∅ {setpoint} activePower (-3000000)) activePower = -3000000 ∧
    putI32 (ofList [(activePower, 7)]) {activePower + 1} activePower (-3000000) = ofList [(activePower, 7)] := by
  have hput := (register_codec_agrees (F := ℚ) ∅ {setpoint} activePower (-3000000)).1 (by decide) (by decide)
  have hdriven := (register_codec_agrees (F := ℚ) (ofList [(activePower, 7)]) {activePower + 1} activePower
    (-3000000)).2 (by decide)
  exact ⟨hput.1, hdriven⟩

/-- The meter reads what the rack published: its power in whole watts. -/
theorem readRackPower_publish {b : Battery ℚ} {holding : Registers} {h : MeterHandler} {power : ℚ}
    (hpub : b.publish holding h.driven power = .ok h.holding) (hd : activePower ∉ h.driven)
    (hd' : activePower + 1 ∉ h.driven) :
    readRackPower (h.readPair rackActivePower) = some ((roundI32 power).toInt : ℚ) := by
  have himage : pairEntries h.driven activePower (roundI32 power) ⊆ b.image h.driven power :=
    fun e he => by simp [Battery.image, he]
  have hwords := Battery.lookup_publish_pair hpub himage hd hd'
  have hanswer : h.readPair rackActivePower = some _ := readPair_of_lookup hwords.1 hwords.2
  rw [hanswer]
  exact readRackPower_words (roundI32 power)

end EmsFixtures.Modbus
