import EmsFixtures.Modbus.Server

/-!
# Driven registers survive

Every background writer (`Battery::step`, `Simulator::tick`, `write_poi_power`) leaves driven addresses alone and an
int32 or float32 pair alone as soon as one of its words is driven; every external write drives what it writes.  So
each operation is a step of a map with driven keys (`Driven.Writes`), and a driven register holds the last accepted
external write to it after any run.
-/

namespace EmsFixtures.Modbus

open HashMap Panics Runs Driven

/-! ### Background writers leave driven addresses alone -/

/-- `holding'` holds what `holding` does at every driven address. -/
def KeepsDriven (driven : Finset UInt16) (holding holding' : Registers) : Prop :=
  ∀ a ∈ driven, holding'.lookup a = holding.lookup a

theorem KeepsDriven.trans {driven : Finset UInt16} {h₁ h₂ h₃ : Registers} (h : KeepsDriven driven h₁ h₂)
    (h' : KeepsDriven driven h₂ h₃) : KeepsDriven driven h₁ h₃ := fun a ha => (h' a ha).trans (h a ha)

theorem keepsDriven_put (holding : Registers) (driven : Finset UInt16) (addr value : UInt16) :
    KeepsDriven driven holding (put holding driven addr value) := by
  intro a ha
  by_cases h : a = addr
  · subst h; rw [put_of_driven ha]
  · exact lookup_put_of_ne h

theorem keepsDriven_putI32 (holding : Registers) (driven : Finset UInt16) (addr : UInt16) (value : Int32) :
    KeepsDriven driven holding (putI32 holding driven addr value) := by
  intro a ha
  by_cases h : a = addr
  · subst h; rw [putI32_of_driven (Or.inl ha)]
  · by_cases h' : a = addr + 1
    · subst h'; rw [putI32_of_driven (Or.inr ha)]
    · exact lookup_putI32_of_ne h h'

/-! ### Pairs with a driven word -/

/-- The pairs `step`, `tick` and `write_poi_power` write, by the address of the high word. -/
def pairs : List UInt16 := [activePower, energyDischarged, maxCharge, maxDischarge, 3206, poiActivePower]

/-- Neither word of the pair at `p` changes. -/
def KeepsPair (p : UInt16) (holding holding' : Registers) : Prop :=
  holding'.lookup p = holding.lookup p ∧ holding'.lookup (p + 1) = holding.lookup (p + 1)

theorem KeepsPair.refl (p : UInt16) (holding : Registers) : KeepsPair p holding holding := ⟨rfl, rfl⟩

theorem KeepsPair.trans {p : UInt16} {h₁ h₂ h₃ : Registers} (h : KeepsPair p h₁ h₂) (h' : KeepsPair p h₂ h₃) :
    KeepsPair p h₁ h₃ := ⟨h'.1.trans h.1, h'.2.trans h.2⟩

theorem keepsPair_put {holding : Registers} {driven : Finset UInt16} {p addr value : UInt16} (h : p ≠ addr)
    (h' : p + 1 ≠ addr) : KeepsPair p holding (put holding driven addr value) :=
  ⟨lookup_put_of_ne h, lookup_put_of_ne h'⟩

theorem keepsPair_putI32 {holding : Registers} {driven : Finset UInt16} {p addr : UInt16} {value : Int32}
    (hd : p ∈ driven ∨ p + 1 ∈ driven) (h : SameOrApart p addr) :
    KeepsPair p holding (putI32 holding driven addr value) := by
  rcases h with rfl | ⟨h₁, h₂, h₃, h₄⟩
  · rw [putI32_of_driven hd]; exact KeepsPair.refl ..
  · exact ⟨lookup_putI32_of_ne h₁ h₂, lookup_putI32_of_ne h₃ h₄⟩

/-! ### The three background writers -/

section Background

variable {F : Type} [F64 F] {b b' : Battery F} {holding holding' : Registers} {driven : Finset UInt16}

theorem Battery.step_keepsDriven {dt : Duration} (h : b.step holding driven dt = .ok (b', holding')) :
    KeepsDriven driven holding holding' := by
  obtain ⟨_, power, -, -, -, hpub⟩ := Battery.step_eq_ok_iff.1 h
  obtain ⟨charge, discharge, -, rfl⟩ := Battery.publish_eq_ok_iff.1 hpub
  exact (keepsDriven_put _ _ _ _).trans <| (keepsDriven_putI32 _ _ _ _).trans <|
    (keepsDriven_putI32 _ _ _ _).trans <| (keepsDriven_putI32 _ _ _ _).trans <|
    (keepsDriven_putI32 _ _ _ _).trans <| keepsDriven_put _ _ _ _

theorem Battery.step_keepsPair {dt : Duration} (h : b.step holding driven dt = .ok (b', holding')) {p : UInt16}
    (hp : p ∈ pairs) (hd : p ∈ driven ∨ p + 1 ∈ driven) : KeepsPair p holding holding' := by
  have hsoc : ∀ p ∈ pairs, p ≠ soc ∧ p + 1 ≠ soc ∧ p ≠ operatingState ∧ p + 1 ≠ operatingState :=
    List.forall_iff_forall_mem.1 (by decide)
  have hpair : ∀ p ∈ pairs, SameOrApart p activePower ∧ SameOrApart p energyDischarged ∧
      SameOrApart p maxCharge ∧ SameOrApart p maxDischarge :=
    List.forall_iff_forall_mem.1 (by decide)
  obtain ⟨s₁, s₂, s₃, s₄⟩ := hsoc p hp
  obtain ⟨p₁, p₂, p₃, p₄⟩ := hpair p hp
  obtain ⟨_, power, -, -, -, hpub⟩ := Battery.step_eq_ok_iff.1 h
  obtain ⟨charge, discharge, -, rfl⟩ := Battery.publish_eq_ok_iff.1 hpub
  exact (keepsPair_put s₁ s₂).trans <| (keepsPair_putI32 hd p₁).trans <| (keepsPair_putI32 hd p₂).trans <|
    (keepsPair_putI32 hd p₃).trans <| (keepsPair_putI32 hd p₄).trans <| keepsPair_put s₃ s₄

theorem tick_eq_putI32 (holding : Registers) (driven : Finset UInt16) :
    ∃ value, Simulator.tick holding driven = putI32 holding driven 3206 value :=
  ⟨UInt32.toInt32 _, rfl⟩

theorem writePoiPower_eq_putI32 (holding : Registers) (driven : Finset UInt16) (pW : F) :
    writePoiPower holding driven pW = putI32 holding driven poiActivePower (F64.toF32Bits pW).toInt32 := rfl

/-- A background operation: one that is no external write. -/
def Op.Background : Op F → Prop
  | .step _ | .tick | .poi _ => True
  | .put _ | .writeSingle .. | .writeMultiple _ => False

/-- A background operation changes the register map only, leaving driven addresses and half-driven pairs alone. -/
theorem Server.background_keeps {s t : Server F} {o : Op F} (ho : o.Background) (h : s.Step o t) :
    t.meter = { s.meter with holding := t.meter.holding } ∧
      KeepsDriven s.meter.driven s.meter.holding t.meter.holding ∧
      ∀ p ∈ pairs, p ∈ s.meter.driven ∨ p + 1 ∈ s.meter.driven → KeepsPair p s.meter.holding t.meter.holding := by
  have hpair : ∀ p ∈ pairs, SameOrApart p 3206 ∧ SameOrApart p poiActivePower :=
    List.forall_iff_forall_mem.1 (by decide)
  cases o with
  | put registers => exact ho.elim
  | writeSingle index value => exact ho.elim
  | writeMultiple values => exact ho.elim
  | step dt =>
    obtain ⟨hb, hm⟩ := step_step_iff.1 h
    exact ⟨hm, Battery.step_keepsDriven hb, fun p hp hd => Battery.step_keepsPair hb hp hd⟩
  | tick =>
    cases h
    obtain ⟨value, hv⟩ := tick_eq_putI32 s.meter.holding s.meter.driven
    refine ⟨rfl, ?_, fun p hp hd => ?_⟩
    · simp only [hv]; exact keepsDriven_putI32 _ _ _ _
    · simp only [hv]; exact keepsPair_putI32 hd (hpair p hp).1
  | poi pW =>
    cases h
    refine ⟨rfl, ?_, fun p hp hd => ?_⟩
    · simp only [writePoiPower_eq_putI32]; exact keepsDriven_putI32 _ _ _ _
    · simp only [writePoiPower_eq_putI32]; exact keepsPair_putI32 hd (hpair p hp).2

end Background

/-! ### External writes -/

def Server.store {F : Type} (s : Server F) : Store UInt16 UInt16 := ⟨s.meter.holding, s.meter.driven⟩

theorem MeterHandler.foldl_drive (h : MeterHandler) (l : List (UInt16 × UInt16)) :
    l.foldl (fun h r => h.drive r.1 r.2) h =
      { h with holding := h.holding.insertAll l, driven := h.driven ∪ (l.map Prod.fst).toFinset } := by
  induction l generalizing h with
  | nil => simp [HashMap.insertAll]
  | cons r l ih =>
    rw [List.foldl_cons, ih]
    simp only [drive, List.map_cons, List.toFinset_cons, Finset.insert_union, Finset.union_insert]
    rfl

/-- An external write is accepted in full or, on a read-only handler, changes nothing. -/
theorem Server.external_writes {F : Type} [F64 F] {s t : Server F} {o : Op F} (ho : ¬ o.Background)
    (h : s.Step o t) :
    t = { s with meter := { s.meter with
      holding := s.meter.holding.insertAll (o.external s.meter.writable)
      driven := s.meter.driven ∪ ((o.external s.meter.writable).map Prod.fst).toFinset } } := by
  cases o with
  | put registers =>
    cases h
    rw [MeterHandler.applyWrites, MeterHandler.foldl_drive]
    rfl
  | writeSingle index value =>
    cases h
    unfold MeterHandler.writeSingleRegister Op.external
    split
    · rw [← MeterHandler.foldl_drive]; rfl
    · simp [HashMap.insertAll]
  | writeMultiple values =>
    cases h
    unfold MeterHandler.writeMultipleRegisters Op.external
    split
    · rw [MeterHandler.foldl_drive]
    · simp [HashMap.insertAll]
  | step dt => exact absurd trivial ho
  | tick => exact absurd trivial ho
  | poi pW => exact absurd trivial ho

section Runs

variable {F : Type} [F64 F]

theorem Server.step_writable {s t : Server F} {o : Op F} (h : s.Step o t) :
    t.meter.writable = s.meter.writable := by
  by_cases ho : o.Background
  · rw [(Server.background_keeps ho h).1]
  · rw [Server.external_writes ho h]

theorem Server.step_writes {s t : Server F} {o : Op F} (h : s.Step o t) :
    Writes s.store (o.external s.meter.writable) t.store := by
  by_cases ho : o.Background
  · obtain ⟨hm, hk, -⟩ := Server.background_keeps ho h
    have hext : o.external s.meter.writable = [] := by cases o <;> first | rfl | exact ho.elim
    have hd : t.meter.driven = s.meter.driven := by rw [hm]
    rw [hext]
    exact ⟨by simp [Server.store, hd], fun k hk' => hk k (hd ▸ hk')⟩
  · rw [Server.external_writes ho h]
    exact ⟨rfl, fun k _ => lookup_insertAll _ _ k⟩

theorem Server.along_writes {s : Server F} {ops : List (Op F)} {w : Bool} (hw : s.meter.writable = w) :
    Along Server.Step (fun s o t => Writes s.store (o.external w) t.store) s ops := by
  induction ops generalizing s with
  | nil => trivial
  | cons o ops ih =>
    intro t h
    refine ⟨hw ▸ Server.step_writes h, ih ?_⟩
    rw [Server.step_writable h, hw]

/-- Driven registers are present and hold the last external write to them. -/
theorem Server.driven_agree {holding input : Registers} {writable : Bool} {battery : Battery F} {ops : List (Op F)}
    {s : Server F} (h : Run Server.Step (Server.start holding input writable battery) ops s) :
    Agrees s.store (lastWrite (Op.external writable) ops) := by
  have hagree : Agrees s.store fun k => (lastWrite (Op.external writable) ops k).or none :=
    agrees_of_run Server.store (fun _ => none) h
      (fun k hk => by simp [Server.store, Server.start, MeterHandler.new] at hk) (Server.along_writes rfl)
  simpa using hagree

/-- After any run of external writes and background operations, driven registers read as last written, the next
background operation leaves every pair with a driven word alone, and a refused protocol write changes nothing. -/
theorem driven_registers_survive (holding input : Registers) (writable : Bool) (battery : Battery F)
    (ops : List (Op F)) (s : Server F) (h : Run Server.Step (Server.start holding input writable battery) ops s) :
    (∀ a ∈ s.meter.driven, a ∈ s.meter.holding ∧
      ∃ v, lastWrite (Op.external writable) ops a = some v ∧ s.meter.readHoldingRegister a = .ok v) ∧
    (∀ o t, o.Background → s.Step o t → ∀ p ∈ pairs, p ∈ s.meter.driven ∨ p + 1 ∈ s.meter.driven →
      KeepsPair p s.meter.holding t.meter.holding) ∧
    (writable = false →
      (∀ index value, s.meter.writeSingleRegister index value = (s.meter, .error .illegalFunction)) ∧
      ∀ values, s.meter.writeMultipleRegisters values = (s.meter, .error .illegalFunction)) := by
  have hgate : s.meter.writable = writable :=
    h.invariant (I := fun s => s.meter.writable = writable) (fun s o t hs ht => (Server.step_writable ht).trans hs) rfl
  refine ⟨fun a ha => ?_, fun o t ho ht => (Server.background_keeps ho ht).2.2, fun hw => ?_⟩
  · obtain ⟨v, hv, hs⟩ := Server.driven_agree h a ha
    refine ⟨mem_of_lookup hs, v, hv, ?_⟩
    unfold MeterHandler.readHoldingRegister
    simp only [Server.store] at hs
    rw [hs]
  · rw [hw] at hgate
    simp [MeterHandler.writeSingleRegister, MeterHandler.writeMultipleRegisters, hgate]

end Runs

/-- A register of the sawtooth pair driven to `0x1234` on a read-only meter survives the tick. -/
theorem driven_registers_survive_tick : ∃ s : Server ℚ,
    Run Server.Step (Server.start (HashMap.ofList [(3206, 15), (3207, 16960)]) ∅ false (Battery.rack 1 60))
      [.put [(3206, 0x1234)], .tick] s ∧ s.meter.readHoldingRegister 3206 = .ok 0x1234 := by
  obtain ⟨s, hs, hd⟩ : ∃ s : Server ℚ,
      Run Server.Step (Server.start (HashMap.ofList [(3206, 15), (3207, 16960)]) ∅ false (Battery.rack 1 60))
        [.put [(3206, 0x1234)], .tick] s ∧ s.meter.driven = {3206} :=
    ⟨_, Run.cons rfl (Run.cons rfl (Run.nil _)), rfl⟩
  obtain ⟨-, v, hv, hread⟩ := (driven_registers_survive _ _ _ _ _ s hs).1 3206 (by rw [hd]; decide)
  obtain rfl : (0x1234 : UInt16) = v := Option.some.inj hv
  exact ⟨s, hs, hread⟩

end EmsFixtures.Modbus
