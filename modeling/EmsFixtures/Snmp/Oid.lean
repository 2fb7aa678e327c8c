import Mathlib.Data.Finset.Sort
import Mathlib.Data.List.Lex
import EmsFixtures.Lib.Maps

/-!
# Object identifiers

An OID is a list of 32-bit arcs in lexicographic order, so a prefix comes before its extensions.  The value map may
hold any such list; `ObjectIdentifier` is one that the SNMP library accepts.  Which these are is the library's rule
(`OidRule`), of which is known that it takes whatever BER can carry.  `nextOid` is the selection a GetNextRequest makes:
the least key above the requested OID (`nextOid_eq_some_iff`).
-/

namespace EmsFixtures.Snmp

instance linearOrderUInt32 : LinearOrder UInt32 where
  le_refl := UInt32.le_refl
  le_trans _ _ _ := UInt32.le_trans
  le_antisymm _ _ := UInt32.le_antisymm
  le_total := UInt32.le_total
  lt_iff_le_not_ge x y := by
    simp only [UInt32.lt_iff_toNat_lt, UInt32.le_iff_toNat_le]
    omega
  toDecidableLE := inferInstance

abbrev Oid := List UInt32

abbrev Values := HashMap Oid Int64

/-- The OIDs that BER can carry.  The first two arcs are one number `40 * first + second`, read back by what it is
below. -/
def Carried : Oid → Prop
  | first :: second :: _ => first ≤ 2 ∧ (first < 2 → second < 40) ∧ (first = 2 → second.toNat + 80 < 2 ^ 32)
  | _ => False

instance : (oid : Oid) → Decidable (Carried oid)
  | [] => isFalse id
  | [_] => isFalse id
  | _ :: _ :: _ => inferInstanceAs (Decidable (_ ∧ _))

/-- Which OIDs `ObjectIdentifier::new` accepts; it accepts those that are decoded. -/
class OidRule where
  Accepts : Oid → Prop
  decidable : DecidablePred Accepts
  accepts_of_carried {oid : Oid} : Carried oid → Accepts oid

/-- At least two arcs, the first at most 2. -/
def TwoArcs (oid : Oid) : Prop := 2 ≤ oid.length ∧ ∀ first ∈ oid.head?, first ≤ 2

-- looks at the first arc; a search over all arcs would never end
instance : (oid : Oid) → Decidable (TwoArcs oid)
  | [] => isFalse (by simp [TwoArcs])
  | first :: rest => decidable_of_iff (1 ≤ rest.length ∧ first ≤ 2) (by simp [TwoArcs])

instance twoArcs : OidRule where
  Accepts := TwoArcs
  decidable := inferInstance
  accepts_of_carried {oid} h := by
    match oid, h with
    | first :: second :: rest, h => exact ⟨by simp, by simpa using h.1⟩

section

variable [OidRule]

def IsValidOid (oid : Oid) : Prop := OidRule.Accepts oid

instance (oid : Oid) : Decidable (IsValidOid oid) := OidRule.decidable oid

theorem Carried.valid {oid : Oid} (h : Carried oid) : IsValidOid oid := OidRule.accepts_of_carried h

structure ObjectIdentifier where
  arcs : Oid
  valid : IsValidOid arcs
  deriving DecidableEq

namespace ObjectIdentifier

def new (oid : Oid) : Option ObjectIdentifier := if h : IsValidOid oid then some ⟨oid, h⟩ else none

theorem new_of_valid {oid : Oid} (h : IsValidOid oid) : new oid = some ⟨oid, h⟩ := dif_pos h

theorem new_of_not_valid {oid : Oid} (h : ¬ IsValidOid oid) : new oid = none := dif_neg h

@[simp] theorem new_arcs (o : ObjectIdentifier) : new o.arcs = some o := new_of_valid o.valid

end ObjectIdentifier

end

/-- The first of the sorted keys above `reqOid`. -/
def nextOid (values : Values) (reqOid : Oid) : Option Oid :=
  ((values.keys.filter (reqOid < ·)).sort).head?

private theorem head?_sort_eq_some_iff {α : Type*} [LinearOrder α] {s : Finset α} {a : α} :
    s.sort.head? = some a ↔ a ∈ s ∧ ∀ b ∈ s, a ≤ b := by
  have hsorted := s.pairwise_sort (· ≤ ·)
  have hmem : ∀ b, b ∈ s.sort ↔ b ∈ s := fun b => Finset.mem_sort _
  cases hl : s.sort with
  | nil =>
    simp only [List.head?_nil, reduceCtorEq, false_iff, not_and]
    intro ha
    have := (hmem a).2 ha
    rw [hl] at this
    cases this
  | cons x l =>
    rw [hl] at hsorted hmem
    simp only [List.head?_cons, Option.some.injEq]
    constructor
    · rintro rfl
      refine ⟨(hmem x).1 (List.mem_cons_self ..), fun b hb => ?_⟩
      rcases List.mem_cons.1 ((hmem b).2 hb) with rfl | hb
      · exact le_rfl
      · exact List.rel_of_pairwise_cons hsorted hb
    · intro h
      obtain ⟨ha, hle⟩ := h
      rcases List.mem_cons.1 ((hmem a).2 ha) with rfl | ha'
      · rfl
      · exact le_antisymm (List.rel_of_pairwise_cons hsorted ha') (hle x ((hmem x).1 (List.mem_cons_self ..)))

theorem nextOid_eq_some_iff {values : Values} {reqOid next : Oid} :
    nextOid values reqOid = some next ↔
      next ∈ values ∧ reqOid < next ∧ ∀ k ∈ values, reqOid < k → next ≤ k := by
  unfold nextOid
  rw [head?_sort_eq_some_iff]
  simp only [Finset.mem_filter, Finmap.mem_keys, and_imp, and_assoc]

theorem nextOid_eq_none_iff {values : Values} {reqOid : Oid} :
    nextOid values reqOid = none ↔ ∀ k ∈ values, ¬ reqOid < k := by
  unfold nextOid
  rw [List.head?_eq_none_iff, ← List.length_eq_zero_iff, Finset.length_sort, Finset.card_eq_zero,
    Finset.filter_eq_empty_iff]
  simp only [Finmap.mem_keys]

end EmsFixtures.Snmp
