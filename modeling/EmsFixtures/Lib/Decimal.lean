import Mathlib.Algebra.Group.Nat.Defs
import Mathlib.Data.List.Basic

/-!
# Decimal numerals

Lists of decimal digits and the numbers they write.  Every number has one numeral without a needless leading zero, the
one `Nat.toDigits` writes (`toDigits_ofDigitChars_iff`).  Rust's integer types parse a numeral whose value fits, perhaps
behind a `+` (`parseU32_eq_some_iff`, `parseU16_eq_some_iff`).
-/

namespace EmsFixtures.Decimal

open Nat

def IsNumeral (digits : List Char) : Prop := digits ≠ [] ∧ ∀ c ∈ digits, c.isDigit

/-- Only the numeral of zero begins with a zero. -/
def Plain (digits : List Char) : Prop := ∀ rest, digits = '0' :: rest → rest = []

theorem isNumeral_toDigits (n : ℕ) : IsNumeral (toDigits 10 n) :=
  ⟨toDigits_ne_nil, fun _ hc => isDigit_of_mem_toDigits (by decide) (by decide) hc⟩

theorem toNat_of_isDigit {c : Char} (h : c.isDigit) : 48 ≤ c.toNat ∧ c.toNat ≤ 57 := by
  rw [Char.isDigit_iff_toNat] at h
  exact h

theorem digitChar_of_isDigit {c : Char} (h : c.isDigit) : digitChar (c.toNat - '0'.toNat) = c := by
  have hrange := toNat_of_isDigit h
  have hzero : '0'.toNat = 48 := rfl
  apply Char.toNat_inj.1
  rw [hzero, toNat_digitChar_of_lt_ten (by omega)]
  omega

/-- More digits never make the number smaller. -/
theorem le_ofDigitChars (digits : List Char) (n : ℕ) : n ≤ ofDigitChars 10 digits n := by
  induction digits generalizing n with
  | nil => simp
  | cons c digits ih =>
    rw [ofDigitChars_cons]
    have := ih (10 * n + (c.toNat - '0'.toNat))
    omega

/-- Digits behind the numeral of a positive number. -/
theorem toDigits_append {digits : List Char} (hd : ∀ c ∈ digits, c.isDigit) {n : ℕ} (hn : 0 < n) :
    toDigits 10 n ++ digits = toDigits 10 (ofDigitChars 10 digits n) := by
  induction digits generalizing n with
  | nil => rw [ofDigitChars_nil, List.append_nil]
  | cons c digits ih =>
    have hc : c.isDigit := hd c List.mem_cons_self
    have hrange := toNat_of_isDigit hc
    have hzero : '0'.toNat = 48 := rfl
    have hlt : c.toNat - '0'.toNat < 10 := by omega
    have hcons : toDigits 10 n ++ [c] = toDigits 10 (10 * n + (c.toNat - '0'.toNat)) := by
      rw [← toDigits_append_toDigits (by decide) hn hlt, toDigits_of_lt_base hlt, digitChar_of_isDigit hc]
    rw [ofDigitChars_cons, ← ih (fun x hx => hd x (List.mem_cons_of_mem c hx)) (by omega), ← hcons]
    simp

theorem plain_toDigits (n : ℕ) : Plain (toDigits 10 n) := by
  induction n using Nat.strongRecOn with
  | _ n ih =>
    intro rest hrest
    by_cases hlt : n < 10
    · rw [toDigits_of_lt_base hlt] at hrest
      exact (List.cons_eq_cons.1 hrest).2.symm
    · exfalso
      rw [toDigits_of_base_le (by decide) (by omega)] at hrest
      cases hinit : toDigits 10 (n / 10) with
      | nil => exact toDigits_ne_nil hinit
      | cons c init =>
        rw [hinit, List.cons_append] at hrest
        obtain ⟨rfl, -⟩ := List.cons_eq_cons.1 hrest
        -- what precedes the last digit would be the numeral of zero
        have hnil := ih (n / 10) (by omega) init hinit
        have hvalue := ofDigitChars_ten_toDigits (n := n / 10)
        rw [hinit, hnil, ofDigitChars_cons, ofDigitChars_nil] at hvalue
        have hdigit : '0'.toNat - '0'.toNat = 0 := rfl
        omega

theorem toDigits_ofDigitChars_iff {digits : List Char} (h : IsNumeral digits) :
    toDigits 10 (ofDigitChars 10 digits 0) = digits ↔ Plain digits := by
  constructor
  · intro heq
    rw [← heq]
    exact plain_toDigits _
  · intro hplain
    obtain ⟨hne, hd⟩ := h
    cases digits with
    | nil => exact absurd rfl hne
    | cons c digits =>
      have hc : c.isDigit := hd c List.mem_cons_self
      have hrange := toNat_of_isDigit hc
      have hzero : '0'.toNat = 48 := rfl
      have hsingle : toDigits 10 (c.toNat - '0'.toNat) = [c] := by
        rw [toDigits_of_lt_base (by omega), digitChar_of_isDigit hc]
      rw [ofDigitChars_cons, Nat.mul_zero, Nat.zero_add]
      by_cases hc0 : c = '0'
      · rw [hplain digits (by rw [hc0]), ofDigitChars_nil, hsingle]
      · have hpos : 0 < c.toNat - '0'.toNat := by
          have hne48 : c.toNat ≠ '0'.toNat := fun heq => hc0 (Char.toNat_inj.1 heq)
          omega
        rw [← toDigits_append (fun x hx => hd x (List.mem_cons_of_mem c hx)) hpos, hsingle]
        rfl

/-! ### `str::parse` of unsigned numbers -/

def toDigit (c : Char) : Option Nat := if c.isDigit then some (c.toNat - '0'.toNat) else none

/-- The digits of `str::parse::<u32>`, with its overflow check. -/
def parseDigits (digits : List Char) : Option UInt32 :=
  (digits.foldlM (fun acc c => do
    let d ← toDigit c
    let acc := acc * 10 + d
    if acc < 2 ^ 32 then some acc else none) 0).map UInt32.ofNat

/-- `part.parse::<u32>().ok()`: an optional `+`, then at least one digit. -/
def parseU32 : List Char → Option UInt32
  | [] => none
  | ['+'] => none
  | '+' :: digits => parseDigits digits
  | digits => parseDigits digits

/-- `str::parse::<u16>`: what a `u32` is parsed from, if it fits. -/
def parseU16 (s : List Char) : Option UInt16 :=
  (parseU32 s).bind fun n => if n.toNat < 2 ^ 16 then some n.toUInt16 else none

/-- `s` is a numeral of `n`, with or without a `+`. -/
def Writes (s : List Char) (n : UInt32) : Prop :=
  ∃ digits, IsNumeral digits ∧ Nat.ofDigitChars 10 digits 0 = n.toNat ∧ (s = digits ∨ s = '+' :: digits)

theorem toDigit_eq_some_iff {c : Char} {d : ℕ} : toDigit c = some d ↔ c.isDigit ∧ d = c.toNat - '0'.toNat := by
  unfold toDigit
  split
  · rename_i hc
    rw [Option.some_inj, eq_comm]
    exact (and_iff_right hc).symm
  · rename_i hc
    exact iff_of_false (by simp) fun h => hc h.1

/-- One digit of `parseDigits`. -/
def pushDigit (acc : ℕ) (c : Char) : Option ℕ := do
  let d ← toDigit c
  let acc := acc * 10 + d
  if acc < 2 ^ 32 then some acc else none

theorem parseDigits_eq (digits : List Char) :
    parseDigits digits = (digits.foldlM pushDigit 0).map UInt32.ofNat := rfl

theorem pushDigit_eq_some_iff {acc acc' : ℕ} {c : Char} : pushDigit acc c = some acc' ↔
    c.isDigit ∧ acc' = 10 * acc + (c.toNat - '0'.toNat) ∧ acc' < 2 ^ 32 := by
  unfold pushDigit
  rw [Option.bind_eq_bind, Option.bind_eq_some_iff]
  constructor
  · rintro ⟨d, hd, h⟩
    obtain ⟨hc, rfl⟩ := toDigit_eq_some_iff.1 hd
    obtain ⟨hlt, hsome⟩ := Option.ite_none_right_eq_some.1 h
    obtain rfl := Option.some_inj.1 hsome
    exact ⟨hc, by omega, hlt⟩
  · rintro ⟨hc, rfl, hlt⟩
    refine ⟨_, toDigit_eq_some_iff.2 ⟨hc, rfl⟩, ?_⟩
    rw [Nat.mul_comm acc 10]
    exact if_pos hlt

/-- The check at every digit is one check at the end: the value only grows. -/
theorem foldlM_pushDigit_iff {digits : List Char} {acc value : ℕ} (hacc : acc < 2 ^ 32) :
    digits.foldlM pushDigit acc = some value ↔
      (∀ c ∈ digits, c.isDigit) ∧ Nat.ofDigitChars 10 digits acc = value ∧ value < 2 ^ 32 := by
  induction digits generalizing acc with
  | nil =>
    rw [Nat.ofDigitChars_nil]
    constructor
    · rintro ⟨⟩
      exact ⟨by simp, rfl, hacc⟩
    · rintro ⟨-, rfl, -⟩
      rfl
  | cons c digits ih =>
    rw [List.foldlM_cons, List.forall_mem_cons, Nat.ofDigitChars_cons, Option.bind_eq_bind, Option.bind_eq_some_iff]
    constructor
    · rintro ⟨acc', hpush, hrest⟩
      obtain ⟨hc, rfl, hlt⟩ := pushDigit_eq_some_iff.1 hpush
      obtain ⟨hd, hvalue⟩ := (ih hlt).1 hrest
      exact ⟨⟨hc, hd⟩, hvalue⟩
    · rintro ⟨⟨hc, hd⟩, hvalue, hfits⟩
      have hgrows := le_ofDigitChars digits (10 * acc + (c.toNat - '0'.toNat))
      have hlt : 10 * acc + (c.toNat - '0'.toNat) < 2 ^ 32 := by omega
      exact ⟨_, pushDigit_eq_some_iff.2 ⟨hc, rfl, hlt⟩, (ih hlt).2 ⟨hd, hvalue, hfits⟩⟩

theorem parseDigits_eq_some_iff {digits : List Char} {n : UInt32} : parseDigits digits = some n ↔
    (∀ c ∈ digits, c.isDigit) ∧ Nat.ofDigitChars 10 digits 0 = n.toNat := by
  rw [parseDigits_eq, Option.map_eq_some_iff]
  constructor
  · rintro ⟨value, hfold, rfl⟩
    obtain ⟨hd, hvalue, hfits⟩ := (foldlM_pushDigit_iff (by decide)).1 hfold
    have hnat : (UInt32.ofNat value).toNat = value := UInt32.toNat_ofNat_of_lt hfits
    exact ⟨hd, hvalue.trans hnat.symm⟩
  · rintro ⟨hd, hvalue⟩
    exact ⟨n.toNat, (foldlM_pushDigit_iff (by decide)).2 ⟨hd, hvalue, n.toNat_lt⟩, UInt32.ofNat_toNat⟩

theorem plus_not_digit : ¬ ('+' : Char).isDigit := by decide

theorem parseU32_eq_some_iff {s : List Char} {n : UInt32} :
    parseU32 s = some n ↔ Writes s n := by
  have hbehind : ∀ digits : List Char, digits ≠ [] → (parseDigits digits = some n ↔ ∃ ds, IsNumeral ds ∧
      Nat.ofDigitChars 10 ds 0 = n.toNat ∧ digits = ds) := by
    intro digits hne
    rw [parseDigits_eq_some_iff]
    constructor
    · rintro ⟨hd, hvalue⟩
      exact ⟨digits, ⟨hne, hd⟩, hvalue, rfl⟩
    · rintro ⟨ds, hnumeral, hvalue, rfl⟩
      exact ⟨hnumeral.2, hvalue⟩
  unfold parseU32 Writes
  split
  · refine iff_of_false (by simp) ?_
    rintro ⟨digits, hnumeral, -, h | h⟩
    · exact hnumeral.1 h.symm
    · cases h
  · refine iff_of_false (by simp) ?_
    rintro ⟨digits, hnumeral, -, h | h⟩
    · exact plus_not_digit (hnumeral.2 '+' (by rw [← h]; exact List.mem_singleton_self _))
    · exact hnumeral.1 (List.cons_eq_cons.1 h).2.symm
  · rename_i digits hne
    rw [hbehind digits (fun h => hne (by rw [h]))]
    refine exists_congr fun ds => and_congr_right fun hnumeral => and_congr_right fun _ => ?_
    constructor
    · rintro rfl
      exact Or.inr rfl
    · rintro (rfl | h)
      · exact absurd (hnumeral.2 '+' List.mem_cons_self) plus_not_digit
      · exact (List.cons_eq_cons.1 h).2
  · rename_i hnil hplus hcons
    rw [hbehind s hnil]
    refine exists_congr fun ds => and_congr_right fun _ => and_congr_right fun _ => ?_
    refine ⟨Or.inl, ?_⟩
    rintro (h | h)
    · exact h
    · exact absurd h (hcons ds)

theorem parseU16_eq_some_iff {s : List Char} {port : UInt16} :
    parseU16 s = some port ↔ Writes s port.toUInt32 := by
  unfold parseU16
  rw [Option.bind_eq_some_iff, ← parseU32_eq_some_iff]
  constructor
  · rintro ⟨n, hn, h⟩
    obtain ⟨hlt, hport⟩ := Option.ite_none_right_eq_some.1 h
    obtain rfl := Option.some_inj.1 hport
    rw [hn]
    congr 1
    apply UInt32.toNat_inj.1
    rw [UInt16.toNat_toUInt32, UInt32.toNat_toUInt16]
    exact (Nat.mod_eq_of_lt hlt).symm
  · intro h
    refine ⟨port.toUInt32, h, ?_⟩
    rw [if_pos (by rw [UInt16.toNat_toUInt32]; exact port.toNat_lt)]
    simp

theorem writes_toDigits (n : UInt32) : Writes (Nat.toDigits 10 n.toNat) n :=
  ⟨_, isNumeral_toDigits _, Nat.ofDigitChars_ten_toDigits, Or.inl rfl⟩

/-- A numeral is the rendering of what it writes iff it has no sign and no needless zero. -/
theorem Writes.eq_toDigits_iff {s : List Char} {n : UInt32} (h : Writes s n) :
    s = Nat.toDigits 10 n.toNat ↔ s.head? ≠ some '+' ∧ Plain s := by
  obtain ⟨digits, hnumeral, hvalue, rfl | rfl⟩ := h
  · have hsign : s.head? ≠ some '+' := by
      intro hhead
      exact plus_not_digit (hnumeral.2 '+' (List.mem_of_head? hhead))
    rw [and_iff_right hsign, ← toDigits_ofDigitChars_iff hnumeral, hvalue, eq_comm]
  · refine iff_of_false (fun h => ?_) fun h => h.1 rfl
    have hplus : '+' ∈ Nat.toDigits 10 n.toNat := by
      rw [← h]
      exact List.mem_cons_self
    exact plus_not_digit ((isNumeral_toDigits n.toNat).2 '+' hplus)

end EmsFixtures.Decimal
