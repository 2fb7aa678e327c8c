import Mathlib.Data.List.PeriodicityLemma

/-!
# Reading a list around

A cursor that starts over at the head when it reaches the end reads a list again and again.  `Reads l start out` says
that `out` is what it reads from position `start` on; a reading can be cut anywhere (`reads_append`), and positions
count modulo the length (`reads_mod`).  Two lists are read alike iff both repeat one word (`reads_iff_repeated`), which
is the periodicity lemma of Fine and Wilf.
-/

namespace EmsFixtures.Cyclic

variable {α : Type*} {l : List α}

/-- `out` is what a cursor that goes around `l` reads from `start` on. -/
def Reads (l : List α) (start : ℕ) (out : List α) : Prop :=
  ∀ i < out.length, out[i]? = l[(start + i) % l.length]?

theorem reads_nil (start : ℕ) : Reads l start [] := by
  intro i hi
  exact absurd hi (Nat.not_lt_zero i)

theorem reads_append {start : ℕ} {xs ys : List α} (hx : Reads l start xs) (hy : Reads l (start + xs.length) ys) :
    Reads l start (xs ++ ys) := by
  intro i hi
  rw [List.length_append] at hi
  by_cases hlt : i < xs.length
  · rw [List.getElem?_append_left hlt]
    exact hx i hlt
  · rw [List.getElem?_append_right (by omega), hy (i - xs.length) (by omega)]
    have hpos : start + xs.length + (i - xs.length) = start + i := by omega
    rw [hpos]

theorem reads_singleton {start : ℕ} {a : α} (h : l[start % l.length]? = some a) : Reads l start [a] := by
  intro i hi
  obtain rfl : i = 0 := by simpa using hi
  exact h.symm

theorem reads_mod {start : ℕ} {out : List α} : Reads l (start % l.length) out ↔ Reads l start out := by
  unfold Reads
  simp only [Nat.mod_add_mod]

/-! ### Lists that read alike -/

theorem reads_zero_iff {out : List α} : Reads l 0 out ↔ ∀ i < out.length, out[i]? = l[i % l.length]? := by
  simp only [Reads, Nat.zero_add]

theorem reads_self (l : List α) : Reads l 0 l := by
  rw [reads_zero_iff]
  intro i hi
  rw [Nat.mod_eq_of_lt hi]

theorem reads_take {out : List α} (h : Reads l 0 out) (n : ℕ) : Reads l 0 (out.take n) := by
  rw [reads_zero_iff] at h ⊢
  intro i hi
  rw [List.length_take, lt_min_iff] at hi
  rw [List.getElem?_take_of_lt hi.1]
  exact h i hi.2

theorem eq_of_reads {xs ys : List α} (hx : Reads l 0 xs) (hy : Reads l 0 ys) (hlen : xs.length = ys.length) :
    xs = ys := by
  refine List.ext_getElem? fun i => ?_
  by_cases hi : i < xs.length
  · rw [hx i hi, hy i (hlen ▸ hi)]
  · rw [List.getElem?_eq_none (by omega), List.getElem?_eq_none (by omega)]

theorem length_repeated (word : List α) (n : ℕ) : (List.replicate n word).flatten.length = n * word.length := by simp

theorem reads_repeated (word : List α) (n : ℕ) : Reads word 0 (List.replicate n word).flatten := by
  induction n with
  | zero => exact reads_nil 0
  | succ n ih =>
    rw [List.replicate_succ, List.flatten_cons]
    refine reads_append (reads_self word) ?_
    rw [Nat.zero_add, ← reads_mod, Nat.mod_self]
    exact ih

/-- A repetition of a word is read like the word. -/
theorem reads_repeated_iff {word : List α} {n : ℕ} (hl : l = (List.replicate n word).flatten) (hne : l ≠ [])
    {out : List α} : Reads l 0 out ↔ Reads word 0 out := by
  have hlen : l.length = n * word.length := by rw [hl, length_repeated]
  have hword := hl ▸ reads_repeated word n
  rw [reads_zero_iff, reads_zero_iff]
  rw [reads_zero_iff] at hword
  refine forall₂_congr fun i _ => ?_
  rw [hword _ (Nat.mod_lt i (List.length_pos_of_ne_nil hne)), hlen, Nat.mod_mul_left_mod]

theorem hasPeriod_of_reads {out : List α} (h : Reads l 0 out) : out.HasPeriod l.length := by
  rw [reads_zero_iff] at h
  rw [List.hasPeriod_iff_getElem?]
  intro i hi
  rw [h i (by omega), h (i + l.length) (by omega), Nat.add_mod_right]

theorem reads_of_hasPeriod {out : List α} {g : ℕ} (hg : 0 < g) (hle : g ≤ out.length) (h : out.HasPeriod g) :
    Reads (out.take g) 0 out := by
  rw [reads_zero_iff]
  intro i hi
  rw [List.length_take_of_le hle, List.getElem?_take_of_lt (Nat.mod_lt i hg), h.getElem?_mod g i out hi]

/-- Two lists are read alike, as far as both their lengths reach, iff they repeat one word. -/
theorem reads_iff_repeated {p q out : List α} (hp : p ≠ []) (hq : q ≠ []) (h : Reads p 0 out)
    (hlen : p.length + q.length ≤ out.length + p.length.gcd q.length) :
    Reads q 0 out ↔
      ∃ (word : List α) (m n : ℕ), p = (List.replicate m word).flatten ∧ q = (List.replicate n word).flatten := by
  have hpos : 0 < p.length := List.length_pos_of_ne_nil hp
  have hpos' : 0 < q.length := List.length_pos_of_ne_nil hq
  constructor
  · intro h'
    set g := p.length.gcd q.length with hg
    have hgpos : 0 < g := Nat.gcd_pos_of_pos_left _ hpos
    have hgp : g ≤ p.length := Nat.le_of_dvd hpos (Nat.gcd_dvd_left _ _)
    have hgq : g ≤ q.length := Nat.le_of_dvd hpos' (Nat.gcd_dvd_right _ _)
    have hperiod : out.HasPeriod g := (hasPeriod_of_reads h).gcd (hasPeriod_of_reads h') (by omega)
    have hword := reads_of_hasPeriod hgpos (by omega) hperiod
    -- each is a prefix of what is read, and its length is a multiple of the word's
    have hrepeat : ∀ l : List α, Reads l 0 out → g ∣ l.length → l.length ≤ out.length →
        l = (List.replicate (l.length / g) (out.take g)).flatten := by
      intro l hl hdvd hle
      have htake : l = out.take l.length :=
        eq_of_reads (reads_self l) (reads_take hl _) (List.length_take_of_le hle).symm
      refine eq_of_reads (htake ▸ reads_take hword _) (reads_repeated _ _) ?_
      rw [length_repeated, List.length_take_of_le (by omega), Nat.div_mul_cancel hdvd]
    exact ⟨out.take g, _, _, hrepeat p h (Nat.gcd_dvd_left _ _) (by omega),
      hrepeat q h' (Nat.gcd_dvd_right _ _) (by omega)⟩
  · rintro ⟨word, m, n, hm, hn⟩
    exact (reads_repeated_iff hn hq).2 ((reads_repeated_iff hm hp).1 h)

end EmsFixtures.Cyclic
