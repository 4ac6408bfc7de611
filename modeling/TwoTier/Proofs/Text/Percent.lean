import Mathlib.Tactic.Common
import TwoTier.Text.Percent

/-!
# Percent-coding is read back

A coded text is made of unreserved characters and of triples, a `%` and two upper-case hexadecimal
digits (`Percent.Coded`). Every text is coded so (`Percent.coded_encode`) and decoded to itself
(`Percent.decode_encode`). None of the characters that separate the parts of an address is among
those of a coded text (`Percent.Coded.mem`).
-/

set_option autoImplicit false
set_option relaxedAutoImplicit false

namespace TwoTier.Text.Percent

/-- An ASCII letter, a digit or one of four marks. -/
def IsUnreserved (c : Char) : Prop := c.isAlphanum = true ∨ c ∈ ['-', '_', '.', '~']

instance (c : Char) : Decidable (IsUnreserved c) := inferInstanceAs (Decidable (_ ∨ _))

/-- An upper-case hexadecimal digit. -/
def IsHexDigit (c : Char) : Prop := c.isDigit = true ∨ ('A' ≤ c ∧ c ≤ 'F')

instance (c : Char) : Decidable (IsHexDigit c) := inferInstanceAs (Decidable (_ ∨ _))

/-- The characters of a coded text. -/
inductive Coded : List Char → Prop
  | nil : Coded []
  /-- A character that stands for itself. -/
  | plain {c : Char} {cs : List Char} (hc : IsUnreserved c) (h : Coded cs) : Coded (c :: cs)
  /-- A byte by its two digits. -/
  | triple {a b : Char} {cs : List Char} (ha : IsHexDigit a) (hb : IsHexDigit b) (h : Coded cs) :
      Coded ('%' :: a :: b :: cs)

theorem Coded.mem {cs : List Char} (h : Coded cs) {c : Char} (hc : c ∈ cs) :
    IsUnreserved c ∨ IsHexDigit c ∨ c = '%' := by
  induction h with
  | nil => cases hc
  | plain hplain _ ih =>
    rcases List.mem_cons.mp hc with rfl | hrest
    · exact .inl hplain
    · exact ih hrest
  | triple ha hb _ ih =>
    rcases List.mem_cons.mp hc with rfl | hc
    · exact .inr (.inr rfl)
    rcases List.mem_cons.mp hc with rfl | hc
    · exact .inr (.inl ha)
    rcases List.mem_cons.mp hc with rfl | hc
    · exact .inr (.inl hb)
    · exact ih hc

/-- No coded text contains an at sign. -/
theorem Coded.at_not_mem {cs : List Char} (h : Coded cs) : '@' ∉ cs := by
  intro hat
  exact absurd (h.mem hat) (by decide)

/-! ### One byte -/

/-- A byte that stands for itself is the code of an unreserved character. -/
theorem isUnreserved_ofNat {b : UInt8} (hb : isUnreserved b = true) :
    IsUnreserved (Char.ofNat b.toNat) ∧ (Char.ofNat b.toNat).toNat = b.toNat ∧ b.toNat < 0x80 := by
  have hall : ∀ n < 256, isUnreserved (UInt8.ofNat n) = true →
      IsUnreserved (Char.ofNat n) ∧ (Char.ofNat n).toNat = n ∧ n < 0x80 := by
    decide +kernel
  refine hall b.toNat b.toNat_lt ?_
  rwa [UInt8.ofNat_toNat]

theorem isHexDigit_hexDigit {n : UInt8} (hn : n < 16) : IsHexDigit (hexDigit n) := by
  have hall : ∀ m < 16, IsHexDigit (hexDigit (UInt8.ofNat m)) := by decide +kernel
  have hdigit := hall n.toNat (UInt8.lt_iff_toNat_lt.mp hn)
  rwa [UInt8.ofNat_toNat] at hdigit

theorem hexValue?_hexDigit {n : UInt8} (hn : n < 16) : hexValue? (hexDigit n) = some n := by
  have hall : ∀ m < 16, hexValue? (hexDigit (UInt8.ofNat m)) = some (UInt8.ofNat m) := by
    decide +kernel
  have hvalue := hall n.toNat (UInt8.lt_iff_toNat_lt.mp hn)
  rwa [UInt8.ofNat_toNat] at hvalue

theorem toNat_high (b : UInt8) : (b >>> 4).toNat = b.toNat / 16 := by
  rw [UInt8.toNat_shiftRight]
  exact Nat.shiftRight_eq_div_pow _ 4

theorem toNat_low (b : UInt8) : (b &&& 15).toNat = b.toNat % 16 := by
  rw [UInt8.toNat_and]
  exact Nat.and_two_pow_sub_one_eq_mod _ 4

theorem high_lt (b : UInt8) : b >>> 4 < 16 := by
  have hb := b.toNat_lt
  rw [UInt8.lt_iff_toNat_lt, toNat_high]
  show b.toNat / 16 < 16
  omega

theorem low_lt (b : UInt8) : b &&& 15 < 16 := by
  rw [UInt8.lt_iff_toNat_lt, toNat_low]
  exact Nat.mod_lt _ (by decide)

/-- A byte is put together from its two halves. -/
theorem high_mul_add_low (b : UInt8) : (b >>> 4) * 16 + (b &&& 15) = b := by
  have hb := b.toNat_lt
  rw [← UInt8.toNat_inj, UInt8.toNat_add, UInt8.toNat_mul, toNat_high, toNat_low]
  show (b.toNat / 16 * 16 % 256 + b.toNat % 16) % 256 = b.toNat
  omega

theorem Coded.encodeByte {cs : List Char} (h : Coded cs) (b : UInt8) :
    Coded (encodeByte b ++ cs) := by
  unfold Percent.encodeByte
  split_ifs with hb
  · exact .plain (isUnreserved_ofNat hb).1 h
  · exact .triple (isHexDigit_hexDigit (high_lt b)) (isHexDigit_hexDigit (low_lt b)) h

theorem decodeBytes_cons_of_ne {c : Char} (hc : c ≠ '%') (hlow : c.toNat < 0x80) (cs : List Char) :
    decodeBytes (c :: cs) = (decodeBytes cs).map (c.toNat.toUInt8 :: ·) := by
  rw [decodeBytes]
  · rw [if_neg]
    rintro (rfl | hhigh)
    · exact hc rfl
    · exact Nat.not_le_of_lt hlow hhigh
  · rintro _ _ _ rfl
    exact absurd rfl hc

/-- The coded form of a byte is read as the byte, whatever follows it. -/
theorem decodeBytes_encodeByte (b : UInt8) (cs : List Char) :
    decodeBytes (encodeByte b ++ cs) = (decodeBytes cs).map (b :: ·) := by
  unfold encodeByte
  split_ifs with hb
  · obtain ⟨hplain, hcode, hlow⟩ := isUnreserved_ofNat hb
    have hne : Char.ofNat b.toNat ≠ '%' := by
      intro heq
      rw [heq] at hplain
      exact absurd hplain (by decide)
    show decodeBytes (Char.ofNat b.toNat :: cs) = _
    rw [decodeBytes_cons_of_ne hne (hcode.symm ▸ hlow), hcode]
    show (decodeBytes cs).map (UInt8.ofNat b.toNat :: ·) = _
    rw [UInt8.ofNat_toNat]
  · show decodeBytes ('%' :: hexDigit (b >>> 4) :: hexDigit (b &&& 15) :: cs) = _
    rw [decodeBytes, hexValue?_hexDigit (high_lt b), hexValue?_hexDigit (low_lt b)]
    cases decodeBytes cs with
    | none => rfl
    | some bytes =>
      dsimp only
      rw [high_mul_add_low]
      rfl

/-! ### A whole text -/

theorem coded_encodeBytes (bs : List UInt8) : Coded (encodeBytes bs) := by
  induction bs with
  | nil => exact .nil
  | cons b bs ih => exact ih.encodeByte b

theorem decodeBytes_encodeBytes (bs : List UInt8) : decodeBytes (encodeBytes bs) = some bs := by
  induction bs with
  | nil => rfl
  | cons b bs ih => rw [encodeBytes, decodeBytes_encodeByte, ih, Option.map_some]

theorem coded_encode (s : String) : Coded (encode s).toList := by
  unfold encode
  rw [String.toList_ofList]
  exact coded_encodeBytes _

/-- A coded text stands for the text that was coded. -/
theorem decode_encode (s : String) : decode (encode s) = some s := by
  unfold decode encode
  rw [String.toList_ofList, decodeBytes_encodeBytes, Option.bind_some]
  show String.fromUTF8? s.toUTF8 = some s
  unfold String.fromUTF8?
  exact dif_pos s.isValidUTF8

end TwoTier.Text.Percent
