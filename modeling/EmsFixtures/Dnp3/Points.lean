import EmsFixtures.Lib.Driven
import EmsFixtures.Lib.F64

/-!
# DNP3 points driven over HTTP

`sel351.rs` and `control.rs` of the outstation, over the point database of the protocol's crate.  Whichever of the two
adds a point fixes the variation it is read in: `seed` a float, a PUT of an absent index a 32-bit integer.  A driven
point reads back as written iff it was seeded or the value is such an integer (`points_read_back_iff`).
-/

namespace EmsFixtures.Dnp3

open HashMap Driven

/-! ### The database -/

inductive StaticAnalogInputVariation where
  | group30Var1
  | group30Var5
  deriving DecidableEq

inductive EventAnalogInputVariation where
  | group32Var1
  | group32Var5

inductive StaticBinaryInputVariation where
  | group1Var2

inductive EventBinaryInputVariation where
  | group2Var1

inductive EventClass where
  | class1

inductive UpdateOptions where
  | default
  | detectEvent

inductive Flags where
  | online

/-- `Time::Synchronized`, in milliseconds since the epoch. -/
structure Time where
  millis : UInt64

structure AnalogInputConfig (F : Type) where
  sVar : StaticAnalogInputVariation
  eVar : EventAnalogInputVariation
  deadband : F

structure BinaryInputConfig where
  sVar : StaticBinaryInputVariation
  eVar : EventBinaryInputVariation

/-- `AnalogInput` and `BinaryInput`. -/
structure Sample (V : Type) where
  value : V
  flags : Flags
  time : Time

/-- The operations of the crate's database; those that change it also say whether they did. -/
structure Database (F D : Type) where
  new : D
  addAnalog : D → UInt16 → Option EventClass → AnalogInputConfig F → D × Bool
  updateAnalog : D → UInt16 → Sample F → UpdateOptions → D × Bool
  addBinary : D → UInt16 → Option EventClass → BinaryInputConfig → D × Bool
  updateBinary : D → UInt16 → Sample Bool → UpdateOptions → D × Bool
  /-- A static read of an analog input in its default variation. -/
  readAnalog : D → UInt16 → Option F

section

variable {F D : Type} [F64 F]

/-! ### `sel351.rs` -/

/-- Analog inputs: point index, value in the relay's primary units. -/
def analogs : List (UInt16 × F) :=
  [(0, F64.lit (85 / 10)), (2, F64.lit (87 / 10)), (4, F64.lit (84 / 10)), (8, F64.lit (797 / 100)),
    (10, F64.lit (795 / 100)), (12, F64.lit (799 / 100))]

/-- Binary inputs: point index, set. -/
def binaries : List (UInt16 × Bool) := [(0, true), (9, false), (15, false), (24, true), (25, true)]

/-- How `seed` configures an analog input. -/
def seeded : AnalogInputConfig F := { sVar := .group30Var5, eVar := .group32Var5, deadband := F64.lit 0 }

def seedAnalog (db : Database F D) (d : D) (point : UInt16 × F) : D :=
  let d := (db.addAnalog d point.1 (some .class1) seeded).1
  (db.updateAnalog d point.1 { value := point.2, flags := .online, time := ⟨0⟩ } .default).1

def seedBinary (db : Database F D) (d : D) (point : UInt16 × Bool) : D :=
  let d := (db.addBinary d point.1 (some .class1) { sVar := .group1Var2, eVar := .group2Var1 }).1
  (db.updateBinary d point.1 { value := point.2, flags := .online, time := ⟨0⟩ } .default).1

/-- Seed every SEL-351 point with its static value. -/
def seed (db : Database F D) (d : D) : D := binaries.foldl (seedBinary db) (analogs.foldl (seedAnalog db) d)

/-! ### `control.rs` -/

/-- A `PUT /points`: the entries of its body in the order its hash map yields them, and the time read for each. -/
structure SetPoints (F : Type) where
  analogInputs : List (UInt16 × F)
  currentTime : UInt16 → Time

/-- How a PUT configures an index it does not find. -/
def onDemand : AnalogInputConfig F := { sVar := .group30Var1, eVar := .group32Var1, deadband := F64.lit 0 }

def putPoint (db : Database F D) (currentTime : UInt16 → Time) (d : D) (point : UInt16 × F) : D :=
  let sample : Sample F := { value := point.2, flags := .online, time := currentTime point.1 }
  let (d, updated) := db.updateAnalog d point.1 sample .detectEvent
  if updated then d
  else
    let d := (db.addAnalog d point.1 (some .class1) onDemand).1
    (db.updateAnalog d point.1 sample .detectEvent).1

/-- Apply a batch write in one transaction; seed unknown indices on demand. -/
def putPoints (db : Database F D) (d : D) (body : SetPoints F) : D :=
  body.analogInputs.foldl (putPoint db body.currentTime) d

end

/-! ### What the crate documents -/

/-- An analog input of the database. -/
structure Point where
  config : AnalogInputConfig ℚ
  value : ℚ

/-- A 32-bit float: 24 significant bits and an exponent in range. -/
def IsF32 (x : ℚ) : Prop := ∃ m e : ℤ, |m| < 2 ^ 24 ∧ -149 ≤ e ∧ e ≤ 104 ∧ x = m * 2 ^ e

/-- A 32-bit signed integer. -/
def IsI32 (x : ℚ) : Prop := ∃ n : ℤ, -2 ^ 31 ≤ n ∧ n < 2 ^ 31 ∧ x = n

/-- The crate's database, seen as the points in it; it serves them through `asF32` and `asI32`. -/
structure Documented {D : Type} (db : Database ℚ D) (points : D → UInt16 → Option Point) (asF32 : ℚ → ℚ)
    (asI32 : ℚ → Int32) : Prop where
  new : ∀ j, points db.new j = none
  add : ∀ d i cls config, points d i = none → ∃ value, ∀ j,
    points (db.addAnalog d i cls config).1 j = if j = i then some { config, value } else points d j
  update_absent : ∀ d i sample options, points d i = none →
    (db.updateAnalog d i sample options).2 = false ∧ ∀ j, points (db.updateAnalog d i sample options).1 j = points d j
  update_present : ∀ d i sample options p, points d i = some p → (db.updateAnalog d i sample options).2 = true ∧
    ∀ j, points (db.updateAnalog d i sample options).1 j =
      if j = i then some { p with value := sample.value } else points d j
  addBinary : ∀ d i cls config j, points (db.addBinary d i cls config).1 j = points d j
  updateBinary : ∀ d i sample options j, points (db.updateBinary d i sample options).1 j = points d j
  read : ∀ d i, db.readAnalog d i = (points d i).map fun p => match p.config.sVar with
    | .group30Var1 => ((asI32 p.value).toInt : ℚ)
    | .group30Var5 => asF32 p.value
  asF32 : ∀ x, IsF32 x → asF32 x = x
  asI32 : ∀ x, IsI32 x → ((asI32 x).toInt : ℚ) = x

section

variable {D : Type} {db : Database ℚ D} {points : D → UInt16 → Option Point} {asF32 : ℚ → ℚ} {asI32 : ℚ → Int32}

/-- An update of a point that has just been added. -/
private theorem points_add_update (h : Documented db points asF32 asI32) {d : D} {i : UInt16}
    (hnone : points d i = none) (cls : Option EventClass) (config : AnalogInputConfig ℚ) (sample : Sample ℚ)
    (options : UpdateOptions) (j : UInt16) :
    points (db.updateAnalog (db.addAnalog d i cls config).1 i sample options).1 j =
      if j = i then some { config, value := sample.value } else points d j := by
  obtain ⟨value, hadd⟩ := h.add d i cls config hnone
  have hi : points (db.addAnalog d i cls config).1 i = some { config, value } := by rw [hadd i, if_pos rfl]
  rw [(h.update_present _ i sample options _ hi).2 j, hadd j]
  by_cases hj : j = i
  · rw [if_pos hj, if_pos hj]
  · rw [if_neg hj, if_neg hj, if_neg hj]

/-! ### Seeding -/

theorem points_seedAnalogs (h : Documented db points asF32 asI32) {l : List (UInt16 × ℚ)} {d : D}
    (hnd : (l.map Prod.fst).Nodup) (hnone : ∀ i ∈ l.map Prod.fst, points d i = none) (j : UInt16) :
    points (l.foldl (seedAnalog db) d) j =
      ((lastIn l j).map fun value => { config := seeded, value }).or (points d j) := by
  induction l generalizing d with
  | nil => rfl
  | cons e l ih =>
    rw [List.map_cons, List.nodup_cons] at hnd
    have hfirst : points d e.1 = none := hnone e.1 (by simp)
    have hseed : ∀ i, points (seedAnalog db d e) i =
        if i = e.1 then some { config := seeded, value := e.2 } else points d i :=
      points_add_update h hfirst _ _ _ _
    have hrest : ∀ i ∈ l.map Prod.fst, points (seedAnalog db d e) i = none := by
      intro i hi
      have hne : i ≠ e.1 := fun heq => hnd.1 (heq ▸ hi)
      rw [hseed, if_neg hne]
      exact hnone i (List.mem_cons_of_mem _ hi)
    rw [List.foldl_cons, ih hnd.2 hrest, hseed, lastIn]
    by_cases hj : j = e.1
    · subst hj
      cases lastIn l e.1 <;> simp
    · cases lastIn l j <;> simp [hj, Ne.symm hj]

theorem points_seedBinaries (h : Documented db points asF32 asI32) (l : List (UInt16 × Bool)) (d : D) (j : UInt16) :
    points (l.foldl (seedBinary db) d) j = points d j := by
  induction l generalizing d with
  | nil => rfl
  | cons e l ih =>
    rw [List.foldl_cons, ih]
    unfold seedBinary
    rw [h.updateBinary, h.addBinary]

theorem points_seed (h : Documented db points asF32 asI32) (j : UInt16) : points (seed db db.new) j =
    (lastIn analogs j).map fun value => { config := seeded, value } := by
  have hnd : ((analogs : List (UInt16 × ℚ)).map Prod.fst).Nodup := by
    show [0, 2, 4, 8, 10, (12 : UInt16)].Nodup
    decide
  unfold seed
  rw [points_seedBinaries h, points_seedAnalogs h hnd fun i _ => h.new i, h.new, Option.or_none]

/-! ### Driving -/

/-- The configuration a point has once it has been driven. -/
def drivenConfig (p : Option Point) : AnalogInputConfig ℚ := (p.map Point.config).getD onDemand

theorem points_putPoint (h : Documented db points asF32 asI32) (currentTime : UInt16 → Time) (d : D)
    (e : UInt16 × ℚ) (j : UInt16) : points (putPoint db currentTime d e) j =
      if j = e.1 then some { config := drivenConfig (points d e.1), value := e.2 } else points d j := by
  unfold putPoint
  cases hp : points d e.1 with
  | none =>
    obtain ⟨hfalse, hsame⟩ := h.update_absent d e.1 { value := e.2, flags := .online, time := currentTime e.1 }
      .detectEvent hp
    dsimp only
    rw [hfalse, if_neg Bool.false_ne_true]
    rw [points_add_update h ((hsame e.1).trans hp), hsame j]
    rfl
  | some p =>
    obtain ⟨htrue, hput⟩ := h.update_present d e.1 { value := e.2, flags := .online, time := currentTime e.1 }
      .detectEvent p hp
    dsimp only
    rw [htrue, if_pos rfl, hput j]
    rfl

theorem drivenConfig_driven (p : Option Point) (value : ℚ) :
    drivenConfig (some { config := drivenConfig p, value }) = drivenConfig p := rfl

theorem points_putPoints (h : Documented db points asF32 asI32) (body : SetPoints ℚ) (d : D) (j : UInt16) :
    points (putPoints db d body) j = ((lastIn body.analogInputs j).map fun value =>
      { config := drivenConfig (points d j), value }).or (points d j) := by
  unfold putPoints
  generalize body.analogInputs = l
  induction l generalizing d with
  | nil => rfl
  | cons e l ih =>
    rw [List.foldl_cons, ih, points_putPoint h, lastIn]
    by_cases hj : j = e.1
    · subst hj
      rw [if_pos rfl, drivenConfig_driven]
      cases lastIn l e.1 <;> simp
    · rw [if_neg hj]
      cases lastIn l j <;> simp [Ne.symm hj]

/-- After a run of requests a driven point holds the last value, under the configuration of whoever added it. -/
theorem points_run (h : Documented db points asF32 asI32) (requests : List (SetPoints ℚ)) (d : D) (j : UInt16) :
    points (requests.foldl (putPoints db) d) j = ((lastWrite SetPoints.analogInputs requests j).map fun value =>
      { config := drivenConfig (points d j), value }).or (points d j) := by
  induction requests generalizing d with
  | nil => rfl
  | cons r requests ih =>
    rw [List.foldl_cons, ih, points_putPoints h, lastWrite]
    cases lastWrite SetPoints.analogInputs requests j <;> cases lastIn r.analogInputs j <;> simp [drivenConfig_driven]

/-- The last value written to an index, by a PUT or by the seed. -/
def lastWritten (requests : List (SetPoints ℚ)) (index : UInt16) : Option ℚ :=
  (lastWrite SetPoints.analogInputs requests index).or (lastIn analogs index)

/-- A point holds the last value written to it, in a float variation if it was seeded and an integer one if not. -/
theorem points_after (h : Documented db points asF32 asI32) {requests : List (SetPoints ℚ)} {index : UInt16} {value : ℚ}
    (hlast : lastWritten requests index = some value) :
    points (requests.foldl (putPoints db) (seed db db.new)) index =
      some { config := if index ∈ (analogs : List (UInt16 × ℚ)).map Prod.fst then seeded else onDemand, value } := by
  unfold lastWritten at hlast
  rw [points_run h, points_seed h]
  split
  · rename_i hseeded
    obtain ⟨v, hv⟩ := Option.isSome_iff_exists.1 (lastIn_isSome.2 hseeded)
    rw [hv] at hlast ⊢
    cases hw : lastWrite SetPoints.analogInputs requests index with
    | none =>
      rw [hw] at hlast
      cases hlast
      rfl
    | some w =>
      rw [hw] at hlast
      cases hlast
      rfl
  · rename_i hseeded
    rw [lastIn_eq_none.2 hseeded, Option.or_none] at hlast
    rw [lastIn_eq_none.2 hseeded, hlast]
    rfl

/-- What the last write left at an index reads back iff the point was seeded or the value is a 32-bit integer. -/
theorem points_read_back_iff (h : Documented db points asF32 asI32) (requests : List (SetPoints ℚ)) (index : UInt16)
    (value : ℚ) (hlast : lastWritten requests index = some value) (hf32 : IsF32 value) :
    db.readAnalog (requests.foldl (putPoints db) (seed db db.new)) index = some value ↔
      index ∈ (analogs : List (UInt16 × ℚ)).map Prod.fst ∨ IsI32 value := by
  rw [h.read, points_after h hlast, Option.map_some]
  by_cases hseeded : index ∈ (analogs : List (UInt16 × ℚ)).map Prod.fst
  · rw [if_pos hseeded]
    have hread := h.asF32 value hf32
    exact ⟨fun _ => Or.inl hseeded, fun _ => congrArg some hread⟩
  · rw [if_neg hseeded]
    constructor
    · intro hread
      have hint : (((asI32 value).toInt : ℤ) : ℚ) = value := Option.some.inj hread
      have hlow := (asI32 value).le_toInt
      have hhigh := (asI32 value).toInt_lt
      exact Or.inr ⟨(asI32 value).toInt, hlow, hhigh, hint.symm⟩
    · intro hint
      exact congrArg some (h.asI32 value (hint.resolve_left hseeded))

end

/-! ### A database in memory -/

structure Memory where
  analogs : UInt16 → Option Point
  binaries : UInt16 → Option (BinaryInputConfig × Bool)

/-- The value served for a 32-bit float is the point's own. -/
def memory : Database ℚ Memory where
  new := { analogs := fun _ => none, binaries := fun _ => none }
  addAnalog d i _ config := match d.analogs i with
    | none => ({ d with analogs := Function.update d.analogs i (some { config, value := 0 }) }, true)
    | some _ => (d, false)
  updateAnalog d i sample _ := match d.analogs i with
    | none => (d, false)
    | some p => ({ d with analogs := Function.update d.analogs i (some { p with value := sample.value }) }, true)
  addBinary d i _ config := match d.binaries i with
    | none => ({ d with binaries := Function.update d.binaries i (some (config, false)) }, true)
    | some _ => (d, false)
  updateBinary d i sample _ := match d.binaries i with
    | none => (d, false)
    | some p => ({ d with binaries := Function.update d.binaries i (some (p.1, sample.value)) }, true)
  readAnalog d i := (d.analogs i).map fun p => match p.config.sVar with
    | .group30Var1 => ((F64.toI32 p.value).toInt : ℚ)
    | .group30Var5 => p.value

theorem memory_documented : Documented memory Memory.analogs id F64.toI32 where
  new _ := rfl
  add d i cls config hnone := by
    refine ⟨0, fun j => ?_⟩
    dsimp only [memory]
    rw [hnone]
    exact Function.update_apply ..
  update_absent d i sample options hnone := by
    dsimp only [memory]
    rw [hnone]
    exact ⟨rfl, fun _ => rfl⟩
  update_present d i sample options p hp := by
    dsimp only [memory]
    rw [hp]
    exact ⟨rfl, fun j => Function.update_apply ..⟩
  addBinary d i cls config j := by
    dsimp only [memory]
    split <;> rfl
  updateBinary d i sample options j := by
    dsimp only [memory]
    split <;> rfl
  read _ _ := rfl
  asF32 _ _ := rfl
  asI32 x hx := by
    obtain ⟨n, hlow, hhigh, rfl⟩ := hx
    rw [F64.toInt_toI32_intCast hlow hhigh]

/-- A point outside the relay's map, driven to five million. -/
theorem points_read_back_whole : memory.readAnalog
    ([{ analogInputs := [(1, 5000000)], currentTime := fun _ => ⟨0⟩ }].foldl (putPoints memory)
      (seed memory memory.new)) 1 = some 5000000 := by
  refine (points_read_back_iff memory_documented _ 1 5000000 rfl ?_).2 (Or.inr ?_)
  · exact ⟨5000000, 0, by norm_num, by norm_num, by norm_num, by norm_num⟩
  · exact ⟨5000000, by norm_num, by norm_num, by norm_num⟩

/-- A point outside the relay's map is driven to 0.5 and reads 0. -/
theorem half_reads_zero : ∃ requests : List (SetPoints ℚ),
    requests.map SetPoints.analogInputs = [[(1, 1 / 2)]] ∧ Documented memory Memory.analogs id F64.toI32 ∧
    lastWritten requests 1 = some (1 / 2) ∧ IsF32 (1 / 2) ∧
    memory.readAnalog (requests.foldl (putPoints memory) (seed memory memory.new)) 1 = some 0 := by
  refine ⟨[{ analogInputs := [(1, 1 / 2)], currentTime := fun _ => ⟨0⟩ }], rfl, memory_documented, rfl, ?_, ?_⟩
  · exact ⟨1, -1, by norm_num, by norm_num, by norm_num, by norm_num⟩
  · decide +kernel

end EmsFixtures.Dnp3
