import Mathlib.Data.List.Forall2

/-!
# Panics

A Rust function that may panic is a computation in `Except Panic`; a plain `Option` result stays an `Option`, so
that "returns `None`" and "panics" are told apart.
-/

namespace EmsFixtures

/-- Why a Rust computation stopped: a failed `expect`, an index or a slice range out of bounds, `copy_from_slice` from
a slice of another length, or `f64::clamp` called with `min > max` or a NaN bound. -/
inductive Panic where
  | expect (msg : String)
  | index
  | sliceRange
  | copyLength
  | clampBounds
  deriving DecidableEq, Repr

def expect {α : Type*} (msg : String) : Option α → Except Panic α
  | some a => .ok a
  | none => .error (.expect msg)

@[simp] theorem expect_some {α : Type*} (msg : String) (a : α) : expect msg (some a) = .ok a := rfl

@[simp] theorem expect_none {α : Type*} (msg : String) : expect msg (none : Option α) = .error (.expect msg) := rfl

theorem expect_eq_ok_iff {α : Type*} {msg : String} {o : Option α} {a : α} : expect msg o = .ok a ↔ o = some a := by
  cases o <;> simp

/-- `slice[i]`. -/
def indexAt {α : Type*} (l : List α) (i : Nat) : Except Panic α :=
  match l[i]? with
  | some a => .ok a
  | none => .error .index

theorem indexAt_eq_ok_iff {α : Type*} {l : List α} {i : Nat} {a : α} : indexAt l i = .ok a ↔ l[i]? = some a := by
  unfold indexAt
  cases l[i]? <;> simp

/-- `&slice[..n]`. -/
def sliceTo {α : Type*} (l : List α) (n : Nat) : Except Panic (List α) :=
  if n ≤ l.length then .ok (l.take n) else .error .sliceRange

theorem sliceTo_eq_ok_iff {α : Type*} {l : List α} {n : Nat} {r : List α} :
    sliceTo l n = .ok r ↔ n ≤ l.length ∧ l.take n = r := by
  unfold sliceTo
  by_cases h : n ≤ l.length <;> simp [h]

/-- `&slice[n..]`. -/
def sliceFrom {α : Type*} (l : List α) (n : Nat) : Except Panic (List α) :=
  if n ≤ l.length then .ok (l.drop n) else .error .sliceRange

theorem sliceFrom_of_le {α : Type*} {l : List α} {n : Nat} (h : n ≤ l.length) : sliceFrom l n = .ok (l.drop n) :=
  if_pos h

namespace Panics

variable {α β : Type}

/-- A computation returns iff it does not panic. -/
def Returns (x : Except Panic α) : Prop := ∃ a, x = .ok a

@[simp] theorem returns_ok (a : α) : Returns (.ok a : Except Panic α) := ⟨a, rfl⟩

@[simp] theorem returns_pure (a : α) : Returns (pure a : Except Panic α) := ⟨a, rfl⟩

@[simp] theorem not_returns_error (p : Panic) : ¬ Returns (.error p : Except Panic α) := by
  intro h
  obtain ⟨a, ⟨⟩⟩ := h

theorem bind_eq_ok_iff {ε : Type} {x : Except ε α} {f : α → Except ε β} {b : β} :
    x >>= f = .ok b ↔ ∃ a, x = .ok a ∧ f a = .ok b := by
  cases x with
  | error e => simp [bind, Except.bind]
  | ok a => simp [bind, Except.bind]

theorem bind_eq_error_iff {ε : Type} {x : Except ε α} {f : α → Except ε β} {e : ε} :
    x >>= f = .error e ↔ x = .error e ∨ ∃ a, x = .ok a ∧ f a = .error e := by
  cases x with
  | error e => simp [bind, Except.bind]
  | ok a => simp [bind, Except.bind]

theorem mapM_eq_ok_iff {ε : Type} {l : List α} {f : α → Except ε β} {r : List β} :
    l.mapM f = .ok r ↔ List.Forall₂ (fun a b => f a = .ok b) l r := by
  induction l generalizing r with
  | nil =>
    constructor
    · rintro ⟨⟩
      exact .nil
    · rintro ⟨⟩
      rfl
  | cons a l ih =>
    rw [List.mapM_cons, bind_eq_ok_iff]
    constructor
    · rintro ⟨b, hb, h⟩
      obtain ⟨bs, hbs, h⟩ := bind_eq_ok_iff.1 h
      cases h
      exact .cons hb (ih.1 hbs)
    · intro h
      cases h with
      | cons hb hbs => exact ⟨_, hb, bind_eq_ok_iff.2 ⟨_, ih.2 hbs, rfl⟩⟩

/-- The first error is the result. -/
theorem mapM_eq_error_iff {ε : Type} {l : List α} {f : α → Except ε β} {e : ε} : l.mapM f = .error e ↔
    ∃ good bad rest, l = good ++ bad :: rest ∧ (∀ a ∈ good, ∃ b, f a = .ok b) ∧ f bad = .error e := by
  induction l with
  | nil =>
    refine iff_of_false (fun h => by cases h) ?_
    rintro ⟨good, bad, rest, h, -⟩
    simp at h
  | cons a l ih =>
    rw [List.mapM_cons, bind_eq_error_iff]
    constructor
    · rintro (ha | ⟨b, hb, h⟩)
      · exact ⟨[], a, l, rfl, by simp, ha⟩
      · rcases bind_eq_error_iff.1 h with hl | ⟨bs, -, h⟩
        · obtain ⟨good, bad, rest, rfl, hgood, hbad⟩ := ih.1 hl
          refine ⟨a :: good, bad, rest, rfl, ?_, hbad⟩
          rintro x (_ | ⟨_, hx⟩)
          · exact ⟨b, hb⟩
          · exact hgood x hx
        · cases h
    · rintro ⟨good, bad, rest, heq, hgood, hbad⟩
      cases good with
      | nil =>
        obtain ⟨rfl, rfl⟩ := List.cons_eq_cons.1 heq
        exact Or.inl hbad
      | cons x good =>
        obtain ⟨rfl, rfl⟩ := List.cons_eq_cons.1 heq
        obtain ⟨b, hb⟩ := hgood a List.mem_cons_self
        have hl := ih.2 ⟨good, bad, rest, rfl, fun x hx => hgood x (List.mem_cons_of_mem _ hx), hbad⟩
        exact Or.inr ⟨b, hb, bind_eq_error_iff.2 (Or.inl hl)⟩

theorem returns_bind_iff {x : Except Panic α} {f : α → Except Panic β} :
    Returns (x >>= f) ↔ ∃ a, x = .ok a ∧ Returns (f a) := by
  constructor
  · intro h
    obtain ⟨b, hb⟩ := h
    obtain ⟨a, ha, hf⟩ := bind_eq_ok_iff.1 hb
    exact ⟨a, ha, b, hf⟩
  · intro h
    obtain ⟨a, ha, b, hb⟩ := h
    exact ⟨b, bind_eq_ok_iff.2 ⟨a, ha, hb⟩⟩

theorem returns_map {f : α → β} {x : Except Panic α} : Returns (f <$> x) ↔ Returns x := by
  cases x with
  | error p => exact iff_of_false (not_returns_error p) (not_returns_error p)
  | ok a => exact iff_of_true (returns_ok _) (returns_ok _)

theorem returns_mapM {l : List α} {f : α → Except Panic β} (h : ∀ a ∈ l, Returns (f a)) :
    Returns (l.mapM f) := by
  induction l with
  | nil => exact ⟨[], rfl⟩
  | cons a l ih =>
    obtain ⟨b, hb⟩ := h a (List.mem_cons_self ..)
    obtain ⟨bs, hbs⟩ := ih fun a' ha' => h a' (List.mem_cons_of_mem _ ha')
    exact ⟨b :: bs, by rw [List.mapM_cons, hb, hbs]; rfl⟩

theorem mapM_getElem? {l : List α} {f : α → Except Panic β} {r : List β} (h : l.mapM f = .ok r) {i : Nat} {a : α}
    (hi : l[i]? = some a) : ∃ b, f a = .ok b ∧ r[i]? = some b := by
  induction l generalizing i r with
  | nil => cases hi
  | cons x l ih =>
    rw [List.mapM_cons] at h
    obtain ⟨b, hb, h⟩ := bind_eq_ok_iff.1 h
    obtain ⟨bs, hbs, h⟩ := bind_eq_ok_iff.1 h
    cases h
    cases i with
    | zero =>
      obtain rfl : x = a := by simpa using hi
      exact ⟨b, hb, rfl⟩
    | succ i =>
      obtain ⟨c, hc, hr⟩ := ih hbs (by simpa using hi)
      exact ⟨c, hc, by simpa using hr⟩

theorem returns_of_mapM {l : List α} {f : α → Except Panic β} (h : Returns (l.mapM f)) {a : α} (ha : a ∈ l) :
    Returns (f a) := by
  obtain ⟨r, hr⟩ := h
  obtain ⟨i, hi⟩ := List.getElem?_of_mem ha
  obtain ⟨b, hb, -⟩ := mapM_getElem? hr hi
  exact ⟨b, hb⟩

end Panics

end EmsFixtures
