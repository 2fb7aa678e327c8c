import Mathlib.Data.Finmap

/-!
# Hash maps

`std::collections::HashMap` is a finite map (`Finmap`); a `HashSet` is a `Finset`.  The iteration order of a hash
map, which a program can observe, is a list of its entries.

* `extend`: the entries of another map, which win;
* `insertAll`: the entries of a list, inserted one after the other, so the last one for a key wins (`lastIn`).  The
  order of the entries plays no part where no key has two values (`insertAll_perm`).
-/

namespace EmsFixtures

/-- `HashMap<K, V>`. -/
abbrev HashMap (K V : Type) := Finmap fun _ : K => V

namespace HashMap

variable {K V : Type} [DecidableEq K]

/-- `HashMap::from([...])`: of two entries for one key the later wins. -/
def ofList (l : List (K × V)) : HashMap K V := l.foldl (fun m e => m.insert e.1 e.2) ∅

/-- `map.extend(other)`. -/
def extend (m n : HashMap K V) : HashMap K V := n ∪ m

def insertAll (m : HashMap K V) (l : List (K × V)) : HashMap K V := l.foldl (fun m e => m.insert e.1 e.2) m

/-- `if let Some(v) = value { map.insert(k, v) }`. -/
def insertSome (m : HashMap K V) (k : K) : Option V → HashMap K V
  | some v => m.insert k v
  | none => m

/-- The value of the last entry of `l` for the key `k`. -/
def lastIn : List (K × V) → K → Option V
  | [], _ => none
  | e :: l, k => (lastIn l k).or (if e.1 = k then some e.2 else none)

theorem lookup_insert_eq (m : HashMap K V) (k k' : K) (v : V) :
    (m.insert k v).lookup k' = if k' = k then some v else m.lookup k' := by
  by_cases h : k' = k
  · subst h; simp
  · simp [h, Finmap.lookup_insert_of_ne]

theorem lookup_extend (m n : HashMap K V) (k : K) : (m.extend n).lookup k = (n.lookup k).or (m.lookup k) := by
  unfold extend
  by_cases h : k ∈ n
  · rw [Finmap.lookup_union_left h]
    obtain ⟨v, hv⟩ := Finmap.mem_iff.1 h
    simp [hv]
  · rw [Finmap.lookup_union_right h, Finmap.lookup_eq_none.2 h, Option.none_or]

@[simp] theorem mem_extend {m n : HashMap K V} {k : K} : k ∈ m.extend n ↔ k ∈ m ∨ k ∈ n := by
  unfold extend
  rw [Finmap.mem_union, or_comm]

theorem lookup_insertAll (m : HashMap K V) (l : List (K × V)) (k : K) :
    (m.insertAll l).lookup k = (lastIn l k).or (m.lookup k) := by
  induction l generalizing m with
  | nil => rfl
  | cons e l ih =>
    show (insertAll (m.insert e.1 e.2) l).lookup k = _
    rw [ih, lookup_insert_eq, lastIn, Option.or_assoc]
    by_cases h : e.1 = k
    · subst h; simp
    · simp [h, Ne.symm h]

theorem lastIn_isSome {l : List (K × V)} {k : K} : (lastIn l k).isSome ↔ k ∈ l.map Prod.fst := by
  induction l with
  | nil => simp [lastIn]
  | cons e l ih =>
    rw [lastIn, Option.isSome_or, Bool.or_eq_true, ih, List.map_cons, List.mem_cons]
    by_cases h : e.1 = k
    · simp [h]
    · simp [h, Ne.symm h]

theorem lastIn_eq_none {l : List (K × V)} {k : K} : lastIn l k = none ↔ k ∉ l.map Prod.fst := by
  rw [← lastIn_isSome, Option.not_isSome_iff_eq_none]

@[simp] theorem mem_insertAll {m : HashMap K V} {l : List (K × V)} {k : K} :
    k ∈ m.insertAll l ↔ k ∈ m ∨ k ∈ l.map Prod.fst := by
  rw [← Finmap.lookup_isSome, ← Finmap.lookup_isSome, lookup_insertAll, Option.isSome_or, Bool.or_eq_true,
    lastIn_isSome, or_comm]

theorem lastIn_of_mem {l : List (K × V)} (hnd : (l.map Prod.fst).Nodup) {k : K} {v : V} (h : (k, v) ∈ l) :
    lastIn l k = some v := by
  induction l with
  | nil => cases h
  | cons e l ih =>
    rw [List.map_cons, List.nodup_cons] at hnd
    rw [lastIn]
    rcases List.mem_cons.1 h with rfl | h
    · rw [lastIn_eq_none.2 hnd.1]; simp
    · rw [ih hnd.2 h]; rfl

theorem ofList_eq_insertAll (l : List (K × V)) : ofList l = insertAll (∅ : HashMap K V) l := rfl

theorem lookup_ofList (l : List (K × V)) (k : K) : (ofList l).lookup k = lastIn l k := by
  rw [ofList_eq_insertAll, lookup_insertAll, Finmap.lookup_empty, Option.or_none]

@[simp] theorem mem_ofList {l : List (K × V)} {k : K} : k ∈ (ofList l : HashMap K V) ↔ k ∈ l.map Prod.fst := by
  rw [ofList_eq_insertAll, mem_insertAll]
  simp only [Finmap.notMem_empty, false_or]

theorem lookup_ofList_eq_some_iff {l : List (K × V)} (hnd : (l.map Prod.fst).Nodup) {k : K} {v : V} :
    (ofList l).lookup k = some v ↔ (k, v) ∈ l := by
  rw [lookup_ofList]
  constructor
  · intro h
    have hk : k ∈ l.map Prod.fst := lastIn_isSome.1 (by rw [h]; rfl)
    obtain ⟨⟨k', v'⟩, he, rfl⟩ := List.mem_map.1 hk
    rw [lastIn_of_mem hnd he] at h
    cases h
    exact he
  · exact lastIn_of_mem hnd

theorem extend_ofList (m : HashMap K V) (l : List (K × V)) : m.extend (ofList l) = m.insertAll l := by
  apply Finmap.ext_lookup
  intro k
  rw [lookup_extend, lookup_ofList, lookup_insertAll]

theorem insertAll_append (m : HashMap K V) (l l' : List (K × V)) :
    m.insertAll (l ++ l') = (m.insertAll l).insertAll l' := List.foldl_append

/-- Entries written over by others for the same keys leave no trace. -/
theorem insertAll_insertAll {m : HashMap K V} {l l' : List (K × V)} (h : ∀ k ∈ l.map Prod.fst, k ∈ l'.map Prod.fst) :
    (m.insertAll l).insertAll l' = m.insertAll l' := by
  apply Finmap.ext_lookup
  intro k
  rw [lookup_insertAll, lookup_insertAll, lookup_insertAll]
  cases hl' : lastIn l' k with
  | some v => rfl
  | none =>
    have hl : lastIn l k = none := lastIn_eq_none.2 fun hk => lastIn_eq_none.1 hl' (h k hk)
    rw [hl, Option.none_or]

theorem lastIn_mem {l : List (K × V)} {k : K} {v : V} (h : lastIn l k = some v) : (k, v) ∈ l := by
  induction l with
  | nil => cases h
  | cons e l ih =>
    rw [lastIn, Option.or_eq_some_iff] at h
    rcases h with h | ⟨-, h⟩
    · exact List.mem_cons_of_mem _ (ih h)
    · split at h
      · rename_i he
        cases h
        rw [← he]
        exact List.mem_cons_self
      · cases h

/-- Entries that a map has already change nothing. -/
theorem insertAll_eq_self {m : HashMap K V} {l : List (K × V)} (h : ∀ e ∈ l, m.lookup e.1 = some e.2) :
    m.insertAll l = m := by
  apply Finmap.ext_lookup
  intro k
  rw [lookup_insertAll]
  cases hl : lastIn l k with
  | none => rfl
  | some v => exact (h _ (lastIn_mem hl)).symm

/-! ### The order of the entries -/

/-- No key has two values. -/
def OneValued (l : List (K × V)) : Prop := ∀ e ∈ l, ∀ e' ∈ l, e.1 = e'.1 → e.2 = e'.2

theorem OneValued.lastIn_eq_some_iff {l : List (K × V)} (h : OneValued l) {k : K} {v : V} :
    lastIn l k = some v ↔ (k, v) ∈ l := by
  constructor
  · exact lastIn_mem
  · intro hv
    have hk : (lastIn l k).isSome := lastIn_isSome.2 (List.mem_map_of_mem (f := Prod.fst) hv)
    obtain ⟨w, hw⟩ := Option.isSome_iff_exists.1 hk
    have hwv : w = v := h (k, w) (lastIn_mem hw) (k, v) hv rfl
    rw [hw, hwv]

theorem insertAll_perm (m : HashMap K V) {l l' : List (K × V)} (h : OneValued l) (hp : l.Perm l') :
    m.insertAll l = m.insertAll l' := by
  have h' : OneValued l' := fun e he e' he' => h e (hp.mem_iff.2 he) e' (hp.mem_iff.2 he')
  have hlast : ∀ k, lastIn l k = lastIn l' k := by
    intro k
    apply Option.ext
    intro v
    rw [h.lastIn_eq_some_iff, h'.lastIn_eq_some_iff, hp.mem_iff]
  apply Finmap.ext_lookup
  intro k
  rw [lookup_insertAll, lookup_insertAll, hlast k]

theorem lookup_insertAll_concat (m : HashMap K V) (l : List (K × V)) (e : K × V) :
    (m.insertAll (l ++ [e])).lookup e.1 = some e.2 := by
  rw [insertAll_append]
  exact Finmap.lookup_insert _

theorem mem_of_lookup {m : HashMap K V} {k : K} {v : V} (h : m.lookup k = some v) : k ∈ m :=
  Finmap.mem_iff.2 ⟨v, h⟩

omit [DecidableEq K] in
theorem keys_filterMap_sublist {ι : Type*} (key : ι → K) (value : ι → Option V) (l : List ι) :
    ((l.filterMap fun i => (value i).map (Prod.mk (key i))).map Prod.fst).Sublist (l.map key) := by
  induction l with
  | nil => exact List.Sublist.slnil
  | cons i l ih =>
    rw [List.filterMap_cons, List.map_cons]
    cases value i with
    | none => exact ih.cons _
    | some v => exact ih.cons_cons _

theorem foldl_insertSome {ι : Type*} (key : ι → K) (value : ι → Option V) (l : List ι) (m : HashMap K V) :
    l.foldl (fun m i => m.insertSome (key i) (value i)) m =
      m.insertAll (l.filterMap fun i => (value i).map (Prod.mk (key i))) := by
  induction l generalizing m with
  | nil => rfl
  | cons i l ih =>
    rw [List.foldl_cons, ih, List.filterMap_cons]
    cases value i <;> rfl

end HashMap

end EmsFixtures
