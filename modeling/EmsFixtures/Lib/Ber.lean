import Mathlib.Data.Nat.Digits.Defs
import Mathlib.Data.Nat.Digits.Lemmas

/-!
# BER in definite form

Tag, length and content octets of X.690, lengths in the shortest form, and the three encodings built from them here:
INTEGER, OCTET STRING and SEQUENCE.  Tag and length say where the content ends, so what follows a value can be told
apart from it (`tlv_append_inj`).
-/

namespace EmsFixtures.Ber

/-- The big-endian base-256 digits of a length. -/
def lengthDigits (n : ℕ) : List UInt8 := (Nat.digits 256 n).reverse.map UInt8.ofNat

/-- The length octets: one below 128, else the number of digits and the digits. -/
def lengthOctets (n : ℕ) : List UInt8 :=
  if n < 128 then [UInt8.ofNat n] else UInt8.ofNat (128 + (lengthDigits n).length) :: lengthDigits n

/-- Tag, length and content. -/
def tlv (tag : UInt8) (content : List UInt8) : List UInt8 := tag :: lengthOctets content.length ++ content

/-- The content of an INTEGER: the shortest two's complement, big-endian. -/
def integerContent (x : ℤ) : List UInt8 :=
  let magnitude := if 0 ≤ x then x.toNat else (-x - 1).toNat
  let size := Nat.log2 (2 * magnitude + 1) / 8 + 1
  (List.range size).reverse.map fun i => UInt8.ofNat (x / 256 ^ i % 256).toNat

def integer (x : ℤ) : List UInt8 := tlv 0x02 (integerContent x)

def octetString (content : List UInt8) : List UInt8 := tlv 0x04 content

def seq (content : List UInt8) : List UInt8 := tlv 0x30 content

/-- The number that length digits stand for, zeros in front included. -/
def digitsValue (digits : List UInt8) : ℕ := digits.foldl (fun n d => n * 256 + d.toNat) 0

/-- The length octets a decoder takes for `n`: the short form, or at most 126 digits. -/
inductive LegalLength (n : ℕ) : List UInt8 → Prop
  | short (h : n < 128) : LegalLength n [UInt8.ofNat n]
  | long (digits : List UInt8) (hne : digits ≠ []) (hlen : digits.length ≤ 126) (hvalue : digitsValue digits = n) :
      LegalLength n (UInt8.ofNat (128 + digits.length) :: digits)

/-- The length octets of a constructed encoding: those of a length, or of the indefinite form. -/
inductive ConstructedLength : List UInt8 → Prop
  | definite {n : ℕ} {octets : List UInt8} (h : LegalLength n octets) : ConstructedLength octets
  | indefinite : ConstructedLength [0x80]

theorem octetString_eq (content : List UInt8) :
    octetString content = [0x04] ++ lengthOctets content.length ++ content := rfl

theorem seq_eq (content : List UInt8) : seq content = [0x30] ++ lengthOctets content.length ++ content := rfl

@[simp] theorem length_tlv (tag : UInt8) (content : List UInt8) :
    (tlv tag content).length = 1 + (lengthOctets content.length).length + content.length := by
  rw [tlv, List.length_append, List.length_cons]
  omega

theorem length_octetString (content : List UInt8) :
    (octetString content).length = 1 + (lengthOctets content.length).length + content.length := length_tlv _ _

theorem length_seq (content : List UInt8) :
    (seq content).length = 1 + (lengthOctets content.length).length + content.length := length_tlv _ _

private theorem map_toNat_lengthDigits (n : ℕ) : (lengthDigits n).map UInt8.toNat = (Nat.digits 256 n).reverse := by
  rw [lengthDigits, List.map_map]
  conv_rhs => rw [← List.map_id (Nat.digits 256 n).reverse]
  refine List.map_congr_left fun d hd => ?_
  have := Nat.digits_lt_base (by norm_num) (List.mem_reverse.1 hd)
  exact UInt8.toNat_ofNat_of_lt this

private theorem lengthDigits_inj {n m : ℕ} (h : lengthDigits n = lengthDigits m) : n = m := by
  have := congrArg (List.map UInt8.toNat) h
  rw [map_toNat_lengthDigits, map_toNat_lengthDigits, List.reverse_inj] at this
  exact Nat.digits_inj_iff.1 this

private theorem length_lengthDigits {n : ℕ} (h : n < 256 ^ 126) : (lengthDigits n).length ≤ 126 := by
  rw [lengthDigits, List.length_map, List.length_reverse]
  exact (Nat.digits_length_le_iff (by norm_num) n).2 h

private theorem ofNat_inj {a b : ℕ} (ha : a < 256) (hb : b < 256) (h : UInt8.ofNat a = UInt8.ofNat b) : a = b := by
  have := congrArg UInt8.toNat h
  rwa [UInt8.toNat_ofNat_of_lt' ha, UInt8.toNat_ofNat_of_lt' hb] at this

/-- Length octets tell where they end. -/
theorem lengthOctets_append_inj {n m : ℕ} (hn : n < 256 ^ 126) (hm : m < 256 ^ 126) {r r' : List UInt8}
    (h : lengthOctets n ++ r = lengthOctets m ++ r') : n = m ∧ r = r' := by
  have hn' := length_lengthDigits hn
  have hm' := length_lengthDigits hm
  unfold lengthOctets at h
  -- at most 126 digits, so the first octet is below 128 in the short form and above it in the long one
  by_cases hsn : n < 128 <;> by_cases hsm : m < 128
  · rw [if_pos hsn, if_pos hsm] at h
    obtain ⟨hhead, htail⟩ := List.cons_eq_cons.1 h
    exact ⟨ofNat_inj (by omega) (by omega) hhead, htail⟩
  · rw [if_pos hsn, if_neg hsm] at h
    have := ofNat_inj (by omega) (by omega) (List.cons_eq_cons.1 h).1
    omega
  · rw [if_neg hsn, if_pos hsm] at h
    have := ofNat_inj (by omega) (by omega) (List.cons_eq_cons.1 h).1
    omega
  · rw [if_neg hsn, if_neg hsm] at h
    obtain ⟨hhead, htail⟩ := List.cons_eq_cons.1 h
    have hlen := ofNat_inj (by omega) (by omega) hhead
    obtain ⟨hdigits, hrest⟩ := List.append_inj htail (by omega)
    exact ⟨lengthDigits_inj hdigits, hrest⟩

theorem digitsValue_append (digits : List UInt8) (d : UInt8) :
    digitsValue (digits ++ [d]) = digitsValue digits * 256 + d.toNat := by
  simp [digitsValue]

private theorem digitsValue_reverse (digits : List UInt8) :
    digitsValue digits.reverse = Nat.ofDigits 256 (digits.map UInt8.toNat) := by
  induction digits with
  | nil => rfl
  | cons d digits ih =>
    rw [List.reverse_cons, digitsValue_append, ih, List.map_cons, Nat.ofDigits_cons]
    ring

theorem digitsValue_lengthDigits (n : ℕ) : digitsValue (lengthDigits n) = n := by
  have hmap := map_toNat_lengthDigits n
  have hvalue := digitsValue_reverse (lengthDigits n).reverse
  rw [List.reverse_reverse, List.map_reverse, hmap, List.reverse_reverse, Nat.ofDigits_digits] at hvalue
  exact hvalue

/-- The shortest length octets are legal. -/
theorem legalLength_lengthOctets {n : ℕ} (h : n < 256 ^ 126) : LegalLength n (lengthOctets n) := by
  unfold lengthOctets
  split
  · rename_i hlt
    exact .short hlt
  · rename_i hge
    have hvalue := digitsValue_lengthDigits n
    refine .long _ (fun hnil => ?_) (length_lengthDigits h) hvalue
    rw [hnil] at hvalue
    have hzero : n = 0 := hvalue.symm
    omega

/-- The low seven bits of the first length octet count the octets after it. -/
theorem ConstructedLength.eq_cons {octets : List UInt8} (h : ConstructedLength octets) : ∃ first digits,
    octets = first :: digits ∧ digits.length = if first < 0x80 then 0 else (first &&& 0x7F).toNat := by
  have hseven : (0x7F : UInt8).toNat = 2 ^ 7 - 1 := rfl
  have height : (0x80 : UInt8).toNat = 128 := rfl
  cases h with
  | indefinite => exact ⟨0x80, [], rfl, rfl⟩
  | @definite n _ h =>
    cases h with
    | short hlt =>
      have hfirst : (UInt8.ofNat n).toNat = n := UInt8.toNat_ofNat_of_lt (hlt.trans (by norm_num))
      refine ⟨UInt8.ofNat n, [], rfl, ?_⟩
      rw [if_pos (by rw [UInt8.lt_iff_toNat_lt, hfirst, height]; exact hlt)]
      rfl
    | long digits hne hlen hvalue =>
      have hsmall : 128 + digits.length < 256 := by omega
      have hfirst : (UInt8.ofNat (128 + digits.length)).toNat = 128 + digits.length := UInt8.toNat_ofNat_of_lt hsmall
      refine ⟨_, digits, rfl, ?_⟩
      rw [if_neg (by rw [UInt8.lt_iff_toNat_lt, hfirst, height]; omega), UInt8.toNat_and, hfirst, hseven,
        Nat.and_two_pow_sub_one_eq_mod]
      omega

/-- A length of one octet in short form, and in no other. -/
theorem LegalLength.eq_one_iff {octets : List UInt8} (h : LegalLength 1 octets) : octets = [0x01] ∨
    ∃ digits, octets = UInt8.ofNat (128 + digits.length) :: digits ∧ digits.length ≤ 126 ∧ digits ≠ [] := by
  cases h with
  | short hlt => exact Or.inl rfl
  | long digits hne hlen hvalue => exact Or.inr ⟨digits, rfl, hlen, hne⟩

/-- The content of a small INTEGER is one octet. -/
theorem integerContent_of_lt {x : ℤ} (h₀ : 0 ≤ x) (h₁ : x < 128) : integerContent x = [UInt8.ofNat x.toNat] := by
  have hlog : Nat.log2 (2 * x.toNat + 1) / 8 = 0 := by
    have := (Nat.log2_lt (by omega : 2 * x.toNat + 1 ≠ 0)).2 (by omega : 2 * x.toNat + 1 < 2 ^ 8)
    omega
  have hrest : x / 256 ^ 0 % 256 = x := by
    rw [pow_zero, Int.ediv_one]
    omega
  unfold integerContent
  simp only [if_pos h₀, hlog]
  show [UInt8.ofNat (x / 256 ^ 0 % 256).toNat] = _
  rw [hrest]

/-- Octets before the length octets of a small length and an OCTET STRING tag in front of one octet: the length is that
octet, in the short form. -/
theorem LegalLength.eq_short {n : ℕ} {octets before pre : List UInt8} {d : UInt8} (h : LegalLength n octets)
    (hsmall : n < 1024) (heq : before ++ [0x04, d] = pre ++ 0x04 :: octets) : octets = [d] ∧ before = pre := by
  cases h with
  | short hlt =>
    obtain ⟨hbefore, hd⟩ := List.append_inj' heq rfl
    exact ⟨(List.cons_eq_cons.1 hd).2.symm, hbefore⟩
  | long digits hne hlen hvalue =>
    exfalso
    obtain ⟨digits, last, rfl⟩ := (List.eq_nil_or_concat' digits).resolve_left hne
    generalize hcount : UInt8.ofNat (128 + (digits ++ [last]).length) = count at heq
    have hlast : before ++ [0x04] ++ [d] = (pre ++ 0x04 :: count :: digits) ++ [last] := by simpa using heq
    have hfront := (List.append_inj' hlast rfl).1
    rcases List.eq_nil_or_concat' digits with rfl | ⟨digits, d', rfl⟩
    · -- one digit: the octet before it is 0x81
      have hfirst : before ++ [0x04] = (pre ++ [0x04]) ++ [count] := by simpa using hfront
      obtain rfl := (List.cons_eq_cons.1 (List.append_inj' hfirst rfl).2).1
      have hone : UInt8.ofNat (128 + ([] ++ [last]).length) = 0x81 := rfl
      rw [hone] at hcount
      exact absurd hcount (by decide)
    · -- more: the digit before the last is 4
      have hd : before ++ [0x04] = (pre ++ 0x04 :: count :: digits) ++ [d'] := by simpa using hfront
      obtain rfl := (List.cons_eq_cons.1 (List.append_inj' hd rfl).2).1
      rw [digitsValue_append, digitsValue_append] at hvalue
      have hfour : (4 : UInt8).toNat = 4 := rfl
      omega

/-- A value and what follows it can be told apart. -/
theorem tlv_append_inj {t t' : UInt8} {c c' r r' : List UInt8} (hlen : (tlv t c ++ r).length < 256 ^ 126)
    (h : tlv t c ++ r = tlv t' c' ++ r') : t = t' ∧ c = c' ∧ r = r' := by
  have hlen' := h ▸ hlen
  rw [List.length_append, length_tlv] at hlen hlen'
  rw [tlv, tlv, List.cons_append, List.cons_append, List.cons_append, List.cons_append, List.append_assoc,
    List.append_assoc] at h
  obtain ⟨ht, h⟩ := List.cons_eq_cons.1 h
  obtain ⟨hcount, h⟩ := lengthOctets_append_inj (by omega) (by omega) h
  obtain ⟨hcontent, hrest⟩ := List.append_inj h hcount
  exact ⟨ht, hcontent, hrest⟩

theorem length_lt_of_tlv_append {t : UInt8} {c r : List UInt8} {n : ℕ} (h : (tlv t c ++ r).length < n) :
    c.length < n ∧ r.length < n := by
  rw [List.length_append, length_tlv] at h
  omega

end EmsFixtures.Ber
