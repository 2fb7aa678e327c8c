import EmsFixtures.Snmp.OneMeaning

/-!
# The spellings of an OID

What `parse_oid` accepts is what `u32::from_str` accepts between the dots: a numeral, perhaps behind a `+`, whose value
fits (`parseOid_eq_some_iff`).  It reads back what is rendered, but a rendering has no sign and no needless leading
zero, so an accepted string is the rendering of its OID iff it has none either (`parse_oid_dotted_iff`).
-/

namespace EmsFixtures.Snmp

open Decimal

/-- Dotted decimal rendering. -/
def dotted (oid : Oid) : String := ".".intercalate (oid.map toString)

/-- No segment begins with a sign or a needless zero. -/
def Canonical (s : String) : Prop := ∀ segment ∈ s.toList.splitOn '.', segment.head? ≠ some '+' ∧ Plain segment

/-! ### Rendering and reading -/

theorem toList_dotted (oid : Oid) :
    (dotted oid).toList = ['.'].intercalate (oid.map fun arc => Nat.toDigits 10 arc.toNat) := by
  have hdot : ".".toList = ['.'] := rfl
  have harc : ∀ arc : UInt32, (toString arc).toList = Nat.toDigits 10 arc.toNat := fun arc => Nat.toList_repr
  rw [dotted, String.toList_intercalate, hdot, List.map_map]
  congr 1
  exact List.map_congr_left fun arc _ => harc arc

theorem splitOn_dotted {oid : Oid} (hne : oid ≠ []) :
    (dotted oid).toList.splitOn '.' = oid.map fun arc => Nat.toDigits 10 arc.toNat := by
  rw [toList_dotted]
  refine List.splitOn_intercalate '.' ?_ (by simpa using hne)
  intro segment hseg hdot
  obtain ⟨arc, -, rfl⟩ := List.mem_map.1 hseg
  have hdigit := (isNumeral_toDigits arc.toNat).2 '.' hdot
  exact absurd hdigit (by decide)

/-- The segments write the arcs. -/
theorem parseOid_eq_some_iff {s : String} {oid : Oid} :
    parseOid s = some oid ↔ List.Forall₂ Writes (s.toList.splitOn '.') oid := by
  unfold parseOid
  generalize s.toList.splitOn '.' = segments
  induction segments generalizing oid with
  | nil => cases oid <;> simp
  | cons segment segments ih =>
    rw [List.mapM_cons, Option.bind_eq_bind, Option.bind_eq_some_iff]
    constructor
    · rintro ⟨arc, harc, h⟩
      obtain ⟨arcs, harcs, hoid⟩ := Option.bind_eq_some_iff.1 h
      obtain rfl := Option.some_inj.1 hoid
      exact .cons (parseU32_eq_some_iff.1 harc) (ih.1 harcs)
    · intro h
      cases h with
      | cons harc harcs =>
        exact ⟨_, parseU32_eq_some_iff.2 harc, Option.bind_eq_some_iff.2 ⟨_, ih.2 harcs, rfl⟩⟩

theorem parseOid_dotted {oid : Oid} (hne : oid ≠ []) : parseOid (dotted oid) = some oid := by
  rw [parseOid_eq_some_iff, splitOn_dotted hne, List.forall₂_map_left_iff]
  exact List.forall₂_same.2 fun arc _ => writes_toDigits arc

theorem map_eq_iff_of_forall₂ {segments : List (List Char)} {oid : Oid} (h : List.Forall₂ Writes segments oid) :
    segments = oid.map (fun arc => Nat.toDigits 10 arc.toNat) ↔
      ∀ segment ∈ segments, segment.head? ≠ some '+' ∧ Plain segment := by
  induction h with
  | nil => simp
  | cons harc _ ih => rw [List.map_cons, List.cons_eq_cons, List.forall_mem_cons, ih, harc.eq_toDigits_iff]

theorem eq_dotted_iff {s : String} {oid : Oid} (h : parseOid s = some oid) : s = dotted oid ↔ Canonical s := by
  have hwrites := parseOid_eq_some_iff.1 h
  rw [Canonical, ← map_eq_iff_of_forall₂ hwrites, ← String.toList_inj, toList_dotted]
  constructor
  · intro heq
    have hne : oid ≠ [] := by
      rintro rfl
      exact List.splitOn_ne_nil '.' s.toList (List.forall₂_nil_right_iff.1 hwrites)
    rw [heq, ← toList_dotted, splitOn_dotted hne]
  · intro heq
    rw [← heq, List.intercalate_splitOn]

/-- What is rendered is read back; and an accepted string is the rendering of what it is read as iff it is canonical. -/
theorem parse_oid_dotted_iff (s : String) (oid : Oid) : (oid ≠ [] → parseOid (dotted oid) = some oid) ∧
    (parseOid s = some oid → (s = dotted oid ↔ Canonical s)) :=
  ⟨parseOid_dotted, eq_dotted_iff⟩

/-- The largest arc, in its one spelling. -/
theorem parse_oid_dotted_iff_largest : parseOid (dotted [1, 3, 0, 4294967295]) = some [1, 3, 0, 4294967295] ∧
    ("1.3.0.4294967295" = dotted [1, 3, 0, 4294967295] ↔ Canonical "1.3.0.4294967295") := by
  have hread : parseOid "1.3.0.4294967295" = some [1, 3, 0, 4294967295] := by decide +kernel
  obtain ⟨hrendered, haccepted⟩ := parse_oid_dotted_iff "1.3.0.4294967295" [1, 3, 0, 4294967295]
  exact ⟨hrendered (List.cons_ne_nil _ _), haccepted hread⟩

/-- A sign and a needless zero are accepted. -/
theorem accepts_second_spelling : parseOid "+1.03" = some [1, 3] ∧ dotted [1, 3] = "1.3" ∧
    ¬ ∀ (s : String) (oid : Oid), parseOid s = some oid → s = dotted oid := by
  have hread : parseOid "+1.03" = some [1, 3] := by decide +kernel
  have hdotted : dotted [1, 3] = "1.3" := by decide +kernel
  refine ⟨hread, hdotted, fun h => ?_⟩
  have heq := h _ _ hread
  rw [hdotted] at heq
  exact absurd heq (by decide)

/-- An arc from 2^32 on is rejected. -/
example : parseOid "1.4294967296" = none := by decide +kernel

/-- So the keys of an object name an OID once each where they are canonical. -/
theorem oneMeaning_of_canonical {body : SetOids} (hkeys : (body.map Prod.fst).Nodup)
    (haccepted : ∀ e ∈ body, parseOid e.1 ≠ none) (hcanonical : ∀ e ∈ body, Canonical e.1) : OneMeaning body := by
  intro e he e' he' hsame
  obtain ⟨oid, hoid⟩ := Option.ne_none_iff_exists'.1 (haccepted e he)
  have hkey : e.1 = dotted oid := (eq_dotted_iff hoid).2 (hcanonical e he)
  have hkey' : e'.1 = dotted oid := (eq_dotted_iff (hsame ▸ hoid)).2 (hcanonical e' he')
  rw [List.inj_on_of_nodup_map hkeys he he' (hkey.trans hkey'.symm)]

end EmsFixtures.Snmp
