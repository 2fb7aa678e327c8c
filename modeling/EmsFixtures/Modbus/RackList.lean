import EmsFixtures.Lib.Decimal
import EmsFixtures.Lib.EnvVars
import EmsFixtures.Lib.Panic
import EmsFixtures.Lib.Split
import EmsFixtures.Modbus.Poi

/-!
# The racks behind a POI meter

What `spawn_from_env` reads before it starts the loop.  `POI_BESS_RACKS` lists racks as `host:port` between commas, with
any padding and any number of blank entries; the host ends at the last colon.  It is accepted iff every entry that is
not blank names a rack, and the first that does not is the one complained about (`rack_list_iff`).
-/

namespace EmsFixtures.Modbus

open Decimal Panics Split

/-! ### `poi.rs` -/

/-- Unicode White_Space, which `str::trim` trims. -/
def isWhiteSpace (c : Char) : Bool :=
  let n := c.toNat
  (9 ≤ n && n ≤ 13) || n == 0x20 || n == 0x85 || n == 0xA0 || n == 0x1680 || (0x2000 ≤ n && n ≤ 0x200A) ||
    n == 0x2028 || n == 0x2029 || n == 0x202F || n == 0x205F || n == 0x3000

/-- Parse `host:port`. -/
def parseHostPort (s : List Char) : Except String (String × UInt16) :=
  match rsplitOnce ':' s with
  | none => .error ("POI_BESS_RACKS entry needs host:port, got " ++ String.ofList s)
  | some (host, port) => match parseU16 port with
    | none => .error ("bad port in POI_BESS_RACKS entry " ++ String.ofList s)
    | some port => .ok (String.ofList host, port)

def parseRacks (raw : String) : Except String (List (String × UInt16)) :=
  ((raw.toList.splitOn ',').filter fun s => !(trim isWhiteSpace s).isEmpty).mapM fun s =>
    parseHostPort (trim isWhiteSpace s)

/-- What `spawn_from_env` has read when it starts the loop. -/
structure PoiEnv (F : Type) where
  fixedLoad : F
  racks : List (String × UInt16)
  compute : Option (ComputeLoad F × String)

section FromEnv

variable {F : Type} [F64 F] (parse : String → Option F) (env : EnvVars)

def envNumber (name : String) (default : F) : Except String F :=
  (envF64 parse env name default).mapError fun e => e.name ++ " is not a number: " ++ e.raw

/-- `SITE_COMPUTE_URL` + `SITE_COMPUTE_NODES` (default 1), or `none` when compute isn't modeled. -/
def ComputeLoad.fromEnv : Except String (Option (ComputeLoad F × String)) :=
  match env "SITE_COMPUTE_URL" with
  | none => .ok none
  | some url => do
    let nodes ← envNumber parse env "SITE_COMPUTE_NODES" (F64.lit 1)
    return some ({ nodes }, url)

def PoiEnv.fromEnv : Except String (PoiEnv F) := do
  let fixedLoad ← envNumber parse env "SITE_LOAD_W" (F64.lit 0)
  let racks ← parseRacks ((env "POI_BESS_RACKS").getD "")
  let compute ← ComputeLoad.fromEnv parse env
  return { fixedLoad, racks, compute }

/-- What the loop is given: a channel for each rack. -/
def PoiEnv.config {F : Type} (e : PoiEnv F) : PoiConfig F :=
  { fixedLoad := e.fixedLoad, channels := e.racks.length, compute := e.compute.map Prod.fst }

end FromEnv

/-! ### Entries -/

/-- The entries that are not blank, trimmed. -/
def rackEntries (raw : String) : List (List Char) :=
  ((raw.toList.splitOn ',').map (trim isWhiteSpace)).filter (· ≠ [])

/-- The entry is the rack's host, a colon and a numeral of its port. -/
def Names (entry : List Char) (rack : String × UInt16) : Prop :=
  ∃ port, entry = rack.1.toList ++ ':' :: port ∧ Writes port rack.2.toUInt32

/-- What is said of an entry that names no rack. -/
def complaint (entry : List Char) : String :=
  if ':' ∈ entry then "bad port in POI_BESS_RACKS entry " ++ String.ofList entry
  else "POI_BESS_RACKS entry needs host:port, got " ++ String.ofList entry

/-- A numeral has no colon in it. -/
theorem colon_not_mem_of_writes {port : List Char} {n : UInt32} (h : Writes port n) : ':' ∉ port := by
  obtain ⟨digits, hnumeral, -, h⟩ := h
  have hdigits : ':' ∉ digits := fun hmem => absurd (hnumeral.2 _ hmem) (by decide)
  rcases h with rfl | rfl
  · exact hdigits
  · simpa using hdigits

theorem parseHostPort_eq_ok_iff {entry : List Char} {rack : String × UInt16} :
    parseHostPort entry = .ok rack ↔ Names entry rack := by
  unfold parseHostPort
  constructor
  · intro h
    split at h
    · cases h
    · rename_i host port hsplit
      split at h
      · cases h
      · rename_i p hport
        cases h
        obtain ⟨hentry, -⟩ := rsplitOnce_eq_some_iff.1 hsplit
        exact ⟨port, by rw [hentry, String.toList_ofList], parseU16_eq_some_iff.1 hport⟩
  · rintro ⟨port, rfl, hport⟩
    rw [rsplitOnce_append (colon_not_mem_of_writes hport)]
    dsimp only
    rw [parseU16_eq_some_iff.2 hport, String.ofList_toList]

theorem parseHostPort_eq_error_iff {entry : List Char} {msg : String} :
    parseHostPort entry = .error msg ↔ (∀ rack, ¬ Names entry rack) ∧ complaint entry = msg := by
  have hok : ∀ rack, Names entry rack → parseHostPort entry = .ok rack := fun _ => parseHostPort_eq_ok_iff.2
  have herror : (∃ rack, parseHostPort entry = .ok rack) ∨ parseHostPort entry = .error (complaint entry) := by
    unfold parseHostPort complaint
    split
    · rename_i hsplit
      rw [if_neg (rsplitOnce_eq_none_iff.1 hsplit)]
      exact Or.inr rfl
    · rename_i host port hsplit
      obtain ⟨hentry, -⟩ := rsplitOnce_eq_some_iff.1 hsplit
      split
      · rw [if_pos (by rw [hentry]; simp)]
        exact Or.inr rfl
      · exact Or.inl ⟨_, rfl⟩
  rcases herror with ⟨rack, h⟩ | h
  · rw [h]
    exact iff_of_false (by simp) fun hnone => hnone.1 rack (parseHostPort_eq_ok_iff.1 h)
  · rw [h, Except.error.injEq]
    refine ⟨fun heq => ⟨fun rack hnames => ?_, heq⟩, fun h => h.2⟩
    rw [hok rack hnames] at h
    cases h

/-! ### The list -/

theorem parseRacks_eq (raw : String) : parseRacks raw = (rackEntries raw).mapM parseHostPort := by
  unfold parseRacks rackEntries
  generalize raw.toList.splitOn ',' = segments
  induction segments with
  | nil => rfl
  | cons s segments ih =>
    by_cases hs : trim isWhiteSpace s = []
    · simpa [hs] using ih
    · simp only [List.map_cons, List.filter_cons, hs, ne_eq, not_false_eq_true, decide_true, if_true,
        List.isEmpty_eq_false_iff.2 hs, Bool.not_false, List.mapM_cons]
      rw [ih]

/-- An entry as it may stand in the variable: a rack, or nothing, in some padding. -/
structure Entry where
  left : List Char
  rack : Option (String × UInt16)
  right : List Char

def Entry.text (e : Entry) : List Char :=
  e.left ++ (e.rack.elim [] fun rack => rack.1.toList ++ ':' :: Nat.toDigits 10 rack.2.toNat) ++ e.right

/-- The padding is blank; the host has no comma and does not begin with a blank. -/
structure Entry.Written (e : Entry) : Prop where
  left : ∀ c ∈ e.left, isWhiteSpace c
  right : ∀ c ∈ e.right, isWhiteSpace c
  comma : ∀ rack ∈ e.rack, ',' ∉ rack.1.toList
  bare : ∀ rack ∈ e.rack, ∀ c ∈ rack.1.toList.head?, ¬ isWhiteSpace c

def listOf (entries : List Entry) : String := String.ofList ([','].intercalate (entries.map Entry.text))

theorem digits_of_port (port : UInt16) : ∀ c ∈ Nat.toDigits 10 port.toNat, c.isDigit :=
  (Decimal.isNumeral_toDigits _).2

theorem not_isWhiteSpace_of_isDigit {c : Char} (h : c.isDigit) : ¬ isWhiteSpace c := by
  have hrange := Decimal.toNat_of_isDigit h
  unfold isWhiteSpace
  simp
  omega

theorem Entry.Written.comma_not_mem {e : Entry} (h : e.Written) : ',' ∉ e.text := by
  have hblank : ∀ l : List Char, (∀ c ∈ l, isWhiteSpace c) → ',' ∉ l := by
    intro l hl hmem
    exact absurd (hl _ hmem) (by decide)
  unfold Entry.text
  simp only [List.mem_append, not_or]
  refine ⟨⟨hblank _ h.left, ?_⟩, hblank _ h.right⟩
  cases hrack : e.rack with
  | none => simp
  | some rack =>
    have hhost := h.comma rack hrack
    have hport : ',' ∉ Nat.toDigits 10 rack.2.toNat := fun hmem => absurd (digits_of_port _ _ hmem) (by decide)
    simpa [hhost] using hport

theorem Entry.Written.trim_text {e : Entry} (h : e.Written) :
    trim isWhiteSpace e.text = e.rack.elim [] fun rack => rack.1.toList ++ ':' :: Nat.toDigits 10 rack.2.toNat := by
  refine trim_of_bare ?_ h.left h.right
  cases hrack : e.rack with
  | none => exact ⟨by simp, by simp⟩
  | some rack =>
    constructor
    · intro c hc
      cases hhost : rack.1.toList with
      | nil =>
        obtain rfl : ':' = c := by simpa [hhost] using hc
        decide
      | cons d host =>
        obtain rfl : d = c := by simpa [hhost] using hc
        exact h.bare rack hrack d (by rw [hhost]; rfl)
    · intro c hc
      have hne : Nat.toDigits 10 rack.2.toNat ≠ [] := Nat.toDigits_ne_nil
      have hlast : c ∈ (Nat.toDigits 10 rack.2.toNat).getLast? := by
        simpa [List.getLast?_append, List.getLast?_cons, List.getLast?_eq_some_getLast hne] using hc
      exact not_isWhiteSpace_of_isDigit (digits_of_port _ _ (List.mem_of_getLast? hlast))

theorem names_written (rack : String × UInt16) :
    Names (rack.1.toList ++ ':' :: Nat.toDigits 10 rack.2.toNat) rack := by
  refine ⟨_, rfl, ?_⟩
  have hnat : rack.2.toNat = rack.2.toUInt32.toNat := (UInt16.toNat_toUInt32 _).symm
  rw [hnat]
  exact writes_toDigits _

/-- The racks of a written list, in order. -/
theorem names_listOf {entries : List Entry} (h : ∀ e ∈ entries, e.Written) :
    List.Forall₂ Names (rackEntries (listOf entries)) (entries.filterMap Entry.rack) := by
  have hentries : ∀ segments : List (List Char), segments = entries.map Entry.text →
      List.Forall₂ Names ((segments.map (trim isWhiteSpace)).filter (· ≠ [])) (entries.filterMap Entry.rack) := by
    rintro segments rfl
    induction entries with
    | nil => exact .nil
    | cons e entries ih =>
      have he := (h e List.mem_cons_self).trim_text
      have hrest := ih fun e he => h e (List.mem_cons_of_mem _ he)
      rw [List.map_cons, List.map_cons, List.filter_cons, he]
      cases hrack : e.rack with
      | none =>
        rw [List.filterMap_cons_none hrack]
        simpa using hrest
      | some rack =>
        rw [List.filterMap_cons_some hrack]
        simpa using List.Forall₂.cons (names_written rack) hrest
  cases entries with
  | nil => exact .nil
  | cons e entries =>
    refine hentries _ ?_
    unfold listOf
    rw [String.toList_ofList]
    refine List.splitOn_intercalate ',' ?_ (by simp)
    intro segment hmem
    obtain ⟨e, he, rfl⟩ := List.mem_map.1 hmem
    exact (h e he).comma_not_mem

/-- A list is accepted iff every entry that is not blank names a rack, and these are the racks; the first that does not
is complained about; and a list of racks that is written out, padded and with blank entries between, is read back. -/
theorem rack_list_iff (raw : String) (entries : List Entry) (hwritten : ∀ e ∈ entries, e.Written) :
    (∀ racks, parseRacks raw = .ok racks ↔ List.Forall₂ Names (rackEntries raw) racks) ∧
    (∀ msg, parseRacks raw = .error msg ↔ ∃ good bad rest, rackEntries raw = good ++ bad :: rest ∧
      (∀ entry ∈ good, ∃ rack, Names entry rack) ∧ (∀ rack, ¬ Names bad rack) ∧ complaint bad = msg) ∧
    parseRacks (listOf entries) = .ok (entries.filterMap Entry.rack) := by
  have hok : ∀ raw racks, parseRacks raw = .ok racks ↔ List.Forall₂ Names (rackEntries raw) racks := by
    intro raw racks
    rw [parseRacks_eq, mapM_eq_ok_iff]
    simp only [parseHostPort_eq_ok_iff]
  refine ⟨hok raw, fun msg => ?_, (hok _ _).2 (names_listOf hwritten)⟩
  rw [parseRacks_eq, mapM_eq_error_iff]
  simp only [parseHostPort_eq_ok_iff, parseHostPort_eq_error_iff]

/-- Two racks with a blank entry between; the second host has colons of its own. -/
def twoRacks : List Entry :=
  [{ left := [], rack := some ("bess-1", 502), right := [' '] }, { left := [' '], rack := none, right := [] },
    { left := ['\t'], rack := some ("fd00::2", 1502), right := [] }]

theorem rack_list_iff_two : listOf twoRacks = "bess-1:502 , ,\tfd00::2:1502" ∧
    parseRacks "bess-1:502 , ,\tfd00::2:1502" = .ok [("bess-1", 502), ("fd00::2", 1502)] := by
  have hlist : listOf twoRacks = "bess-1:502 , ,\tfd00::2:1502" := by decide +kernel
  have hblank : ∀ c, isWhiteSpace c → ∀ d ∈ [c], isWhiteSpace d := by
    intro c hc d hd
    exact List.mem_singleton.1 hd ▸ hc
  have hwritten : ∀ e ∈ twoRacks, e.Written := by
    intro e he
    simp only [twoRacks, List.mem_cons, List.not_mem_nil, or_false] at he
    rcases he with rfl | rfl | rfl
    · exact ⟨by simp, hblank ' ' rfl, by rintro _ ⟨⟩; decide, by rintro _ ⟨⟩ c ⟨⟩; decide⟩
    · exact ⟨hblank ' ' rfl, by simp, by rintro _ ⟨⟩, by rintro _ ⟨⟩⟩
    · exact ⟨hblank '\t' rfl, by simp, by rintro _ ⟨⟩; decide, by rintro _ ⟨⟩ c ⟨⟩; decide⟩
  have hread := (rack_list_iff "" twoRacks hwritten).2.2
  rw [hlist] at hread
  exact ⟨hlist, hread⟩

/-- The channels of an accepted environment are one for each entry that is not blank. -/
theorem channels_fromEnv {F : Type} [F64 F] {parse : String → Option F} {env : EnvVars} {e : PoiEnv F}
    (h : PoiEnv.fromEnv parse env = .ok e) :
    e.config.channels = (rackEntries ((env "POI_BESS_RACKS").getD "")).length := by
  obtain ⟨fixedLoad, -, h⟩ := bind_eq_ok_iff.1 h
  obtain ⟨racks, hracks, h⟩ := bind_eq_ok_iff.1 h
  obtain ⟨compute, -, h⟩ := bind_eq_ok_iff.1 h
  cases h
  rw [parseRacks_eq, mapM_eq_ok_iff] at hracks
  exact hracks.length_eq.symm

end EmsFixtures.Modbus
