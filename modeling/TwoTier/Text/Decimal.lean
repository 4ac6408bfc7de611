import TwoTier.Text.Numeral

/-!
The shortest decimal that reads back as a given binary number, and its text.

A finite number of 64 bits is `m * 2 ^ q`. The reals that round to it form an interval, closed
exactly when `m` is even. `Decimal.shortest` tries the decimal grids of one digit, two digits, and
so on: the first grid with a point in the interval wins, the nearer of two such points is taken,
and the even one where both are equally near. `Style` says how a decimal is laid out.
-/

set_option autoImplicit false
set_option relaxedAutoImplicit false

namespace TwoTier.Text

/-- The number `digits * 10 ^ exponent`. -/
structure Decimal where
  /-- The significant digits, read as one number. -/
  digits : Nat
  /-- The power of ten by which they are scaled. -/
  exponent : Int
  deriving DecidableEq, Repr

/-- A finite binary number `± mantissa * 2 ^ exponent`. -/
structure Binary where
  /-- Whether the sign bit is set. -/
  negative : Bool
  /-- The magnitude in units of the last place. -/
  mantissa : Nat
  /-- The power of two of the last place. -/
  exponent : Int
  /-- Whether the gap to the next smaller number is half the gap to the next larger one. -/
  narrowBelow : Bool
  deriving DecidableEq, Repr

namespace Binary

/-- The parts of a number of 64 bits; there are none for an infinity or for what is no number. -/
def ofBits (bits : UInt64) : Option Binary :=
  let fraction : Nat := bits.toNat % 4503599627370496
  let field : Nat := bits.toNat / 4503599627370496 % 2048
  let negative := decide (bits.toNat / 9223372036854775808 = 1)
  if field = 2047 then none
  else if field = 0 then some ⟨negative, fraction, -1074, false⟩
  else some ⟨negative, 4503599627370496 + fraction, (field : Int) - 1075, fraction = 0 && field ≠ 1⟩

end Binary

namespace Decimal

/-- `base ^ e` as a fraction of two natural numbers. -/
def power (base : Nat) (e : Int) : Nat × Nat :=
  match e with
  | .ofNat n => (Nat.pow base n, 1)
  | .negSucc n => (1, Nat.pow base (n + 1))

/-- How often a number can be divided by ten before it vanishes. -/
def digitCount (n : Nat) : Nat :=
  if n < 10 then (if n = 0 then 0 else 1) else digitCount (n / 10) + 1

/-- The exponent of the leading decimal digit of a positive binary number. -/
def leading (x : Binary) : Int :=
  let (a, b) := power 2 x.exponent
  (digitCount (x.mantissa * a * Nat.pow 10 400 / b) : Int) - 401

/-- The point of the grid `10 ^ (-scale)` that stands for a positive binary number, if a point of
that grid rounds to it. -/
def onGrid (x : Binary) (scale : Int) : Option Nat :=
  let (a₂, b₂) := power 2 (x.exponent - 2)
  let (a₁₀, b₁₀) := power 10 scale
  let a := a₂ * a₁₀
  let b := b₂ * b₁₀
  let centre := 4 * x.mantissa * a
  let low := (4 * x.mantissa - if x.narrowBelow then 1 else 2) * a
  let high := (4 * x.mantissa + 2) * a
  let closed := decide (x.mantissa % 2 = 0)
  let inside (c : Nat) : Bool :=
    if closed then low ≤ c * b && c * b ≤ high else low < c * b && c * b < high
  let below := centre / b
  let above := below + 1
  match 0 < below && inside below, inside above with
  | true, true =>
    if 2 * centre < (2 * below + 1) * b then some below
    else if (2 * below + 1) * b < 2 * centre then some above
    else if below % 2 = 0 then some below else some above
  | true, false => some below
  | false, true => some above
  | false, false => none

/-- A decimal without trailing zeros among its digits. -/
def trim (digits : Nat) (exponent : Int) : Decimal :=
  if h : digits ≠ 0 ∧ digits % 10 = 0 then trim (digits / 10) (exponent + 1)
  else ⟨digits, exponent⟩
  termination_by digits
  decreasing_by omega

/-- The decimal found on the first of `grids` grids, the coarsest of which has `count` digits. -/
def search (x : Binary) : Nat → Nat → Decimal
  | 0, _ => ⟨0, 0⟩
  | grids + 1, count =>
    let scale : Int := (count : Int) - 1 - leading x
    match onGrid x scale with
    | some c => trim c (-scale)
    | none => search x grids (count + 1)

/-- The shortest decimal that reads back as the magnitude of a binary number. Seventeen digits
always suffice. -/
def shortest (x : Binary) : Decimal :=
  if x.mantissa = 0 then ⟨0, 0⟩ else search x 17 1

/-- How a decimal is laid out. With `d` the place of the point, counted from the first digit, the
decimal is written without exponent where `least ≤ d ≤ greatest`; a missing bound is no bound. -/
structure Style where
  /-- The least place of the point without exponent. -/
  least : Option Int
  /-- The greatest place of the point without exponent. -/
  greatest : Option Int
  /-- Whether an integer is written with a point and a zero. -/
  pointZero : Bool

/-- The text of a magnitude in a style. An exponent always has a sign and no zeros in front. -/
def layout (style : Style) (d : Decimal) : List Char :=
  let ds := Numeral.digits d.digits
  let place : Int := ds.length + d.exponent
  let fits := (match style.least with | some l => decide (l ≤ place) | none => true) &&
    (match style.greatest with | some g => decide (place ≤ g) | none => true)
  if d.digits = 0 then '0' :: (if style.pointZero then ['.', '0'] else [])
  else if fits then
    if 0 ≤ d.exponent then
      ds ++ List.replicate d.exponent.toNat '0' ++ (if style.pointZero then ['.', '0'] else [])
    else if 0 < place then ds.take place.toNat ++ '.' :: ds.drop place.toNat
    else '0' :: '.' :: List.replicate (-place).toNat '0' ++ ds
  else
    let fraction := ds.drop 1
    ds.take 1 ++ (if fraction = [] then [] else '.' :: fraction) ++
      'e' :: (if 0 < place then ['+'] else []) ++ (Numeral.decimal (place - 1)).toList

/-- The text of a binary number in a style. -/
def render (style : Style) (x : Binary) : String :=
  String.ofList ((if x.negative then ['-'] else []) ++ layout style (shortest x))

/-- Without exponent, and without a point where the number is an integer. -/
def plain : Style := ⟨none, none, false⟩

/-- As documents and diagnostics write numbers: never without a point or an exponent, which appears
for a point before the fifth leading zero or beyond the sixteenth digit. -/
def compact : Style := ⟨some (-4), some 16, true⟩

example : render compact ⟨false, 1, -1, false⟩ = "0.5" := by decide +kernel
example : render compact ⟨false, 4503599627370496, 5, true⟩ = "1.4411518807585587e+17" := by
  decide +kernel
example : (Binary.ofBits 0x3FB999999999999A).map (render plain) = some "0.1" := by decide +kernel
example : (Binary.ofBits 1).map (render compact) = some "5e-324" := by decide +kernel
example : (Binary.ofBits 0x4341C37937E08000).map (render compact) = some "1e+16" := by
  decide +kernel
example : (Binary.ofBits 0x3EE4F8B588E368F1).map (render compact) = some "0.00001" := by
  decide +kernel
example : (Binary.ofBits 0x8000000000000000).map (render plain) = some "-0" := by decide +kernel

end Decimal

/-- The text of a number of 64 bits in a style, with the usual words for what is not finite. -/
def floatText (style : Decimal.Style) (x : Float) : String :=
  match Binary.ofBits x.toBits with
  | some b => b |> Decimal.render style
  | none => if x.isNaN then "NaN" else if x < 0 then "-inf" else "inf"

end TwoTier.Text
