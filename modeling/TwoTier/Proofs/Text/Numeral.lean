import Mathlib.Data.Nat.Digits.Lemmas
import TwoTier.Text.Numeral

/-!
# What decimal texts stand for

A `Numeral.Figure` is a non-empty row of decimal digits, and stands for a number by the places of
its digits. A text denotes an integer (`Numeral.Denotes`) if it is such a row after at most one
sign. Whatever denotes an integer is read as it, and nothing else is read at all
(`Numeral.read_eq_some_iff`).

Many texts denote one integer. The one that `Numeral.decimal` writes is shorter than all the others
(`Numeral.canonical_iff`), so that an integer that was written is read again
(`Numeral.readInt64_decimal`).
-/

set_option autoImplicit false
set_option relaxedAutoImplicit false

namespace TwoTier.Text.Numeral

/-! ### Rows of digits -/

theorem digitValue_digitChar {d : Nat} (hd : d < 10) : digitValue (Nat.digitChar d) = d := by
  interval_cases d <;> rfl

theorem isDigit_digitChar {d : Nat} (hd : d < 10) : isDigit (Nat.digitChar d) = true := by
  interval_cases d <;> rfl

/-- The characters that are digits are those that spell one. -/
theorem digitChar_digitValue {c : Char} (hc : isDigit c = true) :
    digitValue c < 10 ∧ Nat.digitChar (digitValue c) = c := by
  obtain ⟨hlow, hhigh⟩ := Bool.and_eq_true _ _ |>.mp hc
  have hlow : 48 ≤ c.toNat := of_decide_eq_true hlow
  have hhigh : c.toNat ≤ 57 := of_decide_eq_true hhigh
  have hvalue : digitValue c = c.toNat - 48 := rfl
  have hspelled : ∀ d < 10, (Nat.digitChar d).toNat = 48 + d := by decide
  have hsame : (Nat.digitChar (digitValue c)).toNat = c.toNat := by
    rw [hspelled _ (by omega)]
    omega
  exact ⟨by omega, Char.ext (UInt32.toNat.inj hsame)⟩

/-- A non-empty row of decimal digits. -/
@[ext]
structure Figure where
  /-- The digits, the highest first. -/
  places : List Nat
  /-- There is a digit. -/
  ne_nil : places ≠ []
  /-- They are decimal. -/
  lt_ten : ∀ d ∈ places, d < 10

namespace Figure

/-- The characters that spell the row. -/
def chars (f : Figure) : List Char := f.places.map Nat.digitChar

/-- The number that the row stands for. -/
def number (f : Figure) : Nat := Nat.ofDigits 10 f.places.reverse

/-- A row does not begin with a sign. -/
theorem chars_ne_cons (f : Figure) {c : Char} (hc : isDigit c = false) (cs : List Char) :
    f.chars ≠ c :: cs := by
  intro h
  have hmem : c ∈ f.chars := h ▸ List.mem_cons_self
  obtain ⟨d, hd, rfl⟩ := List.mem_map.mp hmem
  exact absurd (isDigit_digitChar (f.lt_ten d hd)) (by rw [hc]; exact Bool.false_ne_true)

end Figure

/-- Digits after a number are counted up to the number that they stand for after it. -/
theorem value_map_digitChar {ds : List Nat} (hds : ∀ d ∈ ds, d < 10) (acc : Nat) :
    value acc (ds.map Nat.digitChar) =
      some (acc * 10 ^ ds.length + Nat.ofDigits 10 ds.reverse) := by
  induction ds generalizing acc with
  | nil => simp only [List.map_nil, value, List.length_nil, pow_zero, mul_one, List.reverse_nil,
      Nat.ofDigits_nil, add_zero]
  | cons d rest ih =>
    obtain ⟨hd, hrest⟩ := List.forall_mem_cons.mp hds
    rw [List.map_cons, value, if_pos (isDigit_digitChar hd), ih hrest, digitValue_digitChar hd,
      Nat.ofDigits_reverse_cons, List.length_cons, pow_succ]
    congr 1
    ring

/-- Nothing but digits is counted. -/
theorem exists_places_of_value {cs : List Char} {acc n : Nat} (h : value acc cs = some n) :
    ∃ ds : List Nat, (∀ d ∈ ds, d < 10) ∧ cs = ds.map Nat.digitChar := by
  induction cs generalizing acc with
  | nil => exact ⟨[], List.forall_mem_nil _, rfl⟩
  | cons c rest ih =>
    rw [value] at h
    split_ifs at h with hc
    obtain ⟨hlt, hchar⟩ := digitChar_digitValue hc
    obtain ⟨ds, hds, rfl⟩ := ih h
    exact ⟨digitValue c :: ds, List.forall_mem_cons.mpr ⟨hlt, hds⟩, by rw [List.map_cons, hchar]⟩

theorem natural_chars (f : Figure) : natural f.chars = some f.number := by
  have hvalue := value_map_digitChar f.lt_ten 0
  rw [zero_mul, zero_add] at hvalue
  unfold natural Figure.chars
  split
  · exact absurd (List.map_eq_nil_iff.mp ‹_›) f.ne_nil
  · exact hvalue

/-- The lists of characters that stand for a number are the rows of digits. -/
theorem exists_figure_of_natural {cs : List Char} {n : Nat} (h : natural cs = some n) :
    ∃ f : Figure, f.chars = cs ∧ f.number = n := by
  cases cs with
  | nil => cases h
  | cons c rest =>
    obtain ⟨ds, hds, hchars⟩ := exists_places_of_value h
    have hne : ds ≠ [] := fun hnil ↦ by
      rw [hnil] at hchars
      cases hchars
    let f : Figure := ⟨ds, hne, hds⟩
    have hf : f.chars = c :: rest := hchars.symm
    refine ⟨f, hf, Option.some.inj ?_⟩
    rw [← natural_chars f, hf, h]

/-! ### What is read -/

/-- A text denotes an integer: it is a row of digits after at most one sign. -/
inductive Denotes : String → Int → Prop
  /-- There is no sign. -/
  | plain (f : Figure) : Denotes (String.ofList f.chars) f.number
  /-- There is a plus sign. -/
  | plus (f : Figure) : Denotes (String.ofList ('+' :: f.chars)) f.number
  /-- There is a minus sign. -/
  | minus (f : Figure) : Denotes (String.ofList ('-' :: f.chars)) (-f.number)

/-- A sign is read off a text, where there is one, and the rest must be digits. -/
theorem read_cases (s : String) :
    (∃ cs, s = String.ofList ('-' :: cs) ∧ read s = (natural cs).map fun n : Nat ↦ -(n : Int)) ∨
      (∃ cs, s = String.ofList ('+' :: cs) ∧ read s = (natural cs).map Int.ofNat) ∨
      ∃ cs, s = String.ofList cs ∧ read s = (natural cs).map Int.ofNat := by
  have hs : s = String.ofList s.toList := String.ofList_toList.symm
  unfold read
  split
  · rename_i cs htext
    refine .inl ⟨cs, by rw [← htext, ← hs], ?_⟩
    cases natural cs <;> rfl
  · rename_i cs htext
    exact .inr (.inl ⟨cs, by rw [← htext, ← hs], rfl⟩)
  · exact .inr (.inr ⟨s.toList, hs, rfl⟩)

/-- A text is read as the integer that it denotes, and one that denotes none is not read. -/
theorem read_eq_some_iff {s : String} {n : Int} : read s = some n ↔ Denotes s n := by
  constructor
  · intro h
    obtain ⟨cs, rfl, hread⟩ | ⟨cs, rfl, hread⟩ | ⟨cs, rfl, hread⟩ := read_cases s
    all_goals
      rw [hread] at h
      obtain ⟨m, hm, rfl⟩ := Option.map_eq_some_iff.mp h
      obtain ⟨f, rfl, rfl⟩ := exists_figure_of_natural hm
    · exact .minus f
    · exact .plus f
    · exact .plain f
  · rintro (f | f | f)
    all_goals
      unfold read
      rw [String.toList_ofList]
    · split
      · exact absurd ‹_› (f.chars_ne_cons (by decide) _)
      · exact absurd ‹_› (f.chars_ne_cons (by decide) _)
      · rw [natural_chars]
        rfl
    all_goals
      simp only [natural_chars]
      rfl

/-- Of what is denoted, the signed 64-bit integers are read as such. -/
theorem readInt64_eq_some_iff {s : String} {n : Int} :
    readInt64 s = some n ↔ Denotes s n ∧ minInt64 ≤ n ∧ n ≤ maxInt64 := by
  unfold readInt64
  rw [← read_eq_some_iff]
  cases read s with
  | none =>
    constructor
    · intro h
      cases h
    · rintro ⟨h, -⟩
      cases h
  | some m =>
    dsimp only
    rw [Option.ite_none_right_eq_some, Option.some.injEq]
    constructor
    · rintro ⟨hrange, rfl⟩
      exact ⟨rfl, hrange⟩
    · rintro ⟨rfl, hrange⟩
      exact ⟨hrange, rfl⟩

theorem succ?_eq_some_iff {m n : Int} : succ? m = some n ↔ m < maxInt64 ∧ n = m + 1 := by
  unfold succ?
  rw [Option.ite_none_right_eq_some, Option.some.injEq, eq_comm (a := n)]

/-- A text denotes one integer at most. -/
theorem Denotes.unique {s : String} {m n : Int} (hm : Denotes s m) (hn : Denotes s n) : m = n :=
  Option.some.inj ((read_eq_some_iff.mpr hm).symm.trans (read_eq_some_iff.mpr hn))

/-! ### What is written -/

namespace Figure

/-- The row of digits for a number without leading zeros. -/
def least (n : Nat) : Figure where
  places := if n = 0 then [0] else (Nat.digits 10 n).reverse
  ne_nil := by
    split_ifs with hn
    · exact List.cons_ne_nil 0 []
    · rw [ne_eq, List.reverse_eq_nil_iff]
      exact Nat.digits_ne_nil_iff_ne_zero.mpr hn
  lt_ten := by
    split_ifs with hn
    · intro d hd
      rw [List.mem_singleton.mp hd]
      exact Nat.succ_pos 9
    · exact fun d hd ↦ Nat.digits_lt_base (by decide) (List.mem_reverse.mp hd)

@[simp]
theorem number_least (n : Nat) : (least n).number = n := by
  unfold number least
  dsimp only
  split_ifs with hn
  · rw [hn]
    rfl
  · rw [List.reverse_reverse, Nat.ofDigits_digits]

theorem chars_least (n : Nat) : (least n).chars = digits n := by
  induction n using Nat.strong_induction_on with
  | _ n ih =>
    rw [digits]
    split_ifs with hsmall
    · interval_cases n <;> decide +kernel
    · have hn : n ≠ 0 := by omega
      have hrest : n / 10 ≠ 0 := by omega
      have hplaces : (least n).places = (least (n / 10)).places ++ [n % 10] := by
        unfold least
        dsimp only
        rw [if_neg hn, if_neg hrest, Nat.digits_def' (by decide) (by omega), List.reverse_cons]
      rw [← ih (n / 10) (by omega), chars, hplaces, List.map_append]
      rfl

/-- A number takes as many digits as it takes without leading zeros, or more. -/
theorem length_least_le (f : Figure) : (least f.number).places.length ≤ f.places.length := by
  unfold least
  dsimp only
  split_ifs with hzero
  · exact List.length_pos_of_ne_nil f.ne_nil
  · have hlength : f.places.reverse.length = f.places.length := List.length_reverse
    rw [List.length_reverse, Nat.digits_length_le_iff (by decide), number, ← hlength]
    exact Nat.ofDigits_lt_base_pow_length (by decide) fun d hd ↦ f.lt_ten d (List.mem_reverse.mp hd)

/-- With no more digits than that, there are no leading zeros. -/
theorem eq_least (f : Figure) (h : f.places.length ≤ (least f.number).places.length) :
    f = least f.number := by
  refine Figure.ext (List.reverse_injective (Nat.ofDigits_inj_of_len_eq (b := 10) (by decide) ?_ ?_
    ?_ ?_))
  · rw [List.length_reverse, List.length_reverse]
    exact h.antisymm f.length_least_le
  · exact fun d hd ↦ f.lt_ten d (List.mem_reverse.mp hd)
  · exact fun d hd ↦ (least f.number).lt_ten d (List.mem_reverse.mp hd)
  · exact (number_least f.number).symm

end Figure

/-- The canonical text for an integer: no text that denotes it is shorter. -/
def Canonical (s : String) (n : Int) : Prop :=
  Denotes s n ∧ ∀ t, Denotes t n → s.length ≤ t.length

theorem decimal_ofNat (n : Nat) : decimal n = String.ofList (Figure.least n).chars := by
  rw [Figure.chars_least]
  rfl

theorem decimal_neg {n : Nat} (hn : 0 < n) :
    decimal (-n) = String.ofList ('-' :: (Figure.least n).chars) := by
  obtain ⟨m, rfl⟩ := Nat.exists_eq_succ_of_ne_zero hn.ne'
  rw [Figure.chars_least]
  rfl

theorem denotes_decimal (n : Int) : Denotes (decimal n) n := by
  obtain ⟨m, rfl | ⟨hm, rfl⟩⟩ : ∃ m : Nat, n = m ∨ (0 < m ∧ n = -m) :=
    ⟨n.natAbs, by omega⟩
  · have hplain := Denotes.plain (Figure.least m)
    rwa [Figure.number_least, ← decimal_ofNat] at hplain
  · have hminus := Denotes.minus (Figure.least m)
    rwa [Figure.number_least, ← decimal_neg hm] at hminus

/-- An integer that was written is read again. -/
theorem readInt64_decimal {n : Int} (hmin : minInt64 ≤ n) (hmax : n ≤ maxInt64) :
    readInt64 (decimal n) = some n :=
  readInt64_eq_some_iff.mpr ⟨denotes_decimal n, hmin, hmax⟩

theorem length_ofList_chars (f : Figure) :
    (String.ofList f.chars).length = f.places.length := by
  rw [String.length_ofList, Figure.chars, List.length_map]

theorem length_ofList_cons_chars (c : Char) (f : Figure) :
    (String.ofList (c :: f.chars)).length = f.places.length + 1 := by
  rw [String.length_ofList, List.length_cons, Figure.chars, List.length_map]

/-- What is written is shorter than every other text for the same integer. -/
theorem length_decimal {s : String} {n : Int} (h : Denotes s n) :
    (decimal n).length ≤ s.length ∧ (s.length ≤ (decimal n).length → s = decimal n) := by
  cases h with
  | plain f =>
    have hle := f.length_least_le
    rw [decimal_ofNat, length_ofList_chars, length_ofList_chars]
    exact ⟨hle, fun h ↦ congrArg (fun g ↦ String.ofList g.chars) (f.eq_least h)⟩
  | plus f =>
    have hle := f.length_least_le
    rw [decimal_ofNat, length_ofList_chars, length_ofList_cons_chars]
    exact ⟨by omega, fun h ↦ by omega⟩
  | minus f =>
    have hle := f.length_least_le
    rcases Nat.eq_zero_or_pos f.number with hzero | hpos
    · have hdecimal := decimal_ofNat 0
      rw [hzero] at hle ⊢
      rw [Int.ofNat_zero] at hdecimal ⊢
      rw [Int.neg_zero, hdecimal, length_ofList_chars, length_ofList_cons_chars]
      exact ⟨by omega, fun h ↦ by omega⟩
    · rw [decimal_neg hpos, length_ofList_cons_chars, length_ofList_cons_chars]
      exact ⟨by omega, fun h ↦ congrArg (fun g ↦ String.ofList ('-' :: g.chars))
        (f.eq_least (by omega))⟩

/-- Exactly what is written is canonical. -/
theorem canonical_iff {s : String} {n : Int} : Canonical s n ↔ s = decimal n := by
  constructor
  · rintro ⟨hs, hleast⟩
    exact (length_decimal hs).2 (hleast _ (denotes_decimal n))
  · rintro rfl
    exact ⟨denotes_decimal n, fun t ht ↦ (length_decimal ht).1⟩

end TwoTier.Text.Numeral
