/-!
Decimal integers as text.

`Numeral.decimal` writes an integer with the fewest digits and a sign only where it is negative;
`Numeral.read` reads an optional sign and at least one digit, and nothing else. A number is counted
up only while it fits a signed 64-bit integer (`Numeral.readInt64`).
-/

set_option autoImplicit false
set_option relaxedAutoImplicit false

namespace TwoTier.Text.Numeral

/-- The decimal digits of a natural number, the highest first. -/
def digits (n : Nat) : List Char :=
  if n < 10 then [Nat.digitChar n]
  else digits (n / 10) ++ [Nat.digitChar (n % 10)]

/-- The decimal text of an integer. -/
def decimal : Int → String
  | .ofNat n => String.ofList (digits n)
  | .negSucc n => String.ofList ('-' :: digits (n + 1))

/-- Whether a character is one of the ten decimal digits. -/
def isDigit (c : Char) : Bool := '0' ≤ c && c ≤ '9'

/-- The value of a decimal digit. -/
def digitValue (c : Char) : Nat := c.toNat - '0'.toNat

/-- The number that digits stand for after the number `acc`, if they are digits all. -/
def value (acc : Nat) : List Char → Option Nat
  | [] => some acc
  | c :: rest => if isDigit c then value (acc * 10 + digitValue c) rest else none

/-- The number that a non-empty list of digits stands for. -/
def natural : List Char → Option Nat
  | [] => none
  | cs => value 0 cs

/-- The integer that a text stands for: an optional sign and at least one digit. -/
def read (s : String) : Option Int :=
  match s.toList with
  | '-' :: cs => (natural cs).map fun n ↦ -(n : Int)
  | '+' :: cs => (natural cs).map Int.ofNat
  | cs => (natural cs).map Int.ofNat

/-- The least signed 64-bit integer. -/
def minInt64 : Int := -9223372036854775808

/-- The greatest signed 64-bit integer. -/
def maxInt64 : Int := 9223372036854775807

/-- The greatest unsigned 64-bit integer. -/
def maxUInt64 : Nat := 18446744073709551615

/-- The signed 64-bit integer that a text stands for. -/
def readInt64 (s : String) : Option Int :=
  match read s with
  | some n => if minInt64 ≤ n ∧ n ≤ maxInt64 then some n else none
  | none => none

/-- The successor of a signed 64-bit integer, where that is one too. -/
def succ? (n : Int) : Option Int := if n < maxInt64 then some (n + 1) else none

example : decimal (-120) = "-120" := by decide +kernel
example : read "+007" = some 7 := by decide +kernel
example : read "-" = none := by decide +kernel
example : readInt64 "9223372036854775808" = none := by decide +kernel

end TwoTier.Text.Numeral
