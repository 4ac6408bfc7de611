/-!
The text of a span of time: the largest unit that makes the whole part non-zero, then the exact
decimal fraction without trailing zeros. `1500000` nanoseconds read `1.5ms`, and the empty span
reads `0ns`.
-/

set_option autoImplicit false
set_option relaxedAutoImplicit false

namespace TwoTier.Text.Elapsed

/-- The digits of a fraction of `places` decimal places, without trailing zeros. -/
def fractionDigits : Nat → Nat → List Char
  | 0, _ => []
  | places + 1, part =>
    if part = 0 then []
    else
      let unit := Nat.pow 10 places
      Nat.digitChar (part / unit) :: fractionDigits places (part % unit)

/-- A quantity of `whole` units and `part` of the `places` decimal places below them. -/
def quantity (whole part places : Nat) (unit : String) : String :=
  let fraction := fractionDigits places part
  let shown := if fraction = [] then "" else "." ++ String.ofList fraction
  toString whole ++ shown ++ unit

/-- The text of a span of nanoseconds. -/
def render (span : Nat) : String :=
  if 1000000000 ≤ span then quantity (span / 1000000000) (span % 1000000000) 9 "s"
  else if 1000000 ≤ span then quantity (span / 1000000) (span % 1000000) 6 "ms"
  else if 1000 ≤ span then quantity (span / 1000) (span % 1000) 3 "µs"
  else quantity span 0 0 "ns"

example : render 1500000 = "1.5ms" := by decide
example : render 0 = "0ns" := by decide
example : render 1000000001 = "1.000000001s" := by decide

end TwoTier.Text.Elapsed
