/-!
Reading bytes as UTF-8.

`read?` accepts exactly the well-formed sequences; `readLossy` puts the replacement character for
each longest beginning of a character that is not completed, and for each byte that begins none.
-/

set_option autoImplicit false
set_option relaxedAutoImplicit false

namespace TwoTier.Text.Utf8

/-- How many bytes follow a leading byte, and between which bounds the first of them lies. -/
def lead (b : UInt8) : Option (Nat × UInt8 × UInt8) :=
  if b < 0x80 then some (0, 0, 0)
  else if 0xC2 ≤ b ∧ b ≤ 0xDF then some (1, 0x80, 0xBF)
  else if b = 0xE0 then some (2, 0xA0, 0xBF)
  else if b = 0xED then some (2, 0x80, 0x9F)
  else if 0xE1 ≤ b ∧ b ≤ 0xEF then some (2, 0x80, 0xBF)
  else if b = 0xF0 then some (3, 0x90, 0xBF)
  else if 0xF1 ≤ b ∧ b ≤ 0xF3 then some (3, 0x80, 0xBF)
  else if b = 0xF4 then some (3, 0x80, 0x8F)
  else none

/-- The bits that a leading byte contributes when `n` bytes follow. -/
def leadBits (b : UInt8) (n : Nat) : Nat :=
  if n = 0 then b.toNat else b.toNat % Nat.pow 2 (6 - n)

/-- The bytes read: for each character, itself or nothing where it is not well formed. `owed` bytes
are still to come, the first between `low` and `high`, for a character that begins with the bits
`acc`. -/
def scan : Nat → UInt8 → UInt8 → Nat → List UInt8 → List (Option Char)
  | 0, _, _, _, [] => []
  | _ + 1, _, _, _, [] => [none]
  | 0, _, _, _, b :: rest =>
    match lead b with
    | none => none :: scan 0 0 0 0 rest
    | some (0, _, _) => some (Char.ofNat b.toNat) :: scan 0 0 0 0 rest
    | some (n + 1, low, high) => scan (n + 1) low high (leadBits b (n + 1)) rest
  | owed + 1, low, high, acc, b :: rest =>
    if low ≤ b ∧ b ≤ high then
      let bits := acc * 64 + b.toNat % 64
      if owed = 0 then some (Char.ofNat bits) :: scan 0 0 0 0 rest
      else scan owed 0x80 0xBF bits rest
    else
      none ::
        match lead b with
        | none => none :: scan 0 0 0 0 rest
        | some (0, _, _) => some (Char.ofNat b.toNat) :: scan 0 0 0 0 rest
        | some (n + 1, low, high) => scan (n + 1) low high (leadBits b (n + 1)) rest

/-- The text of a well-formed sequence of bytes. -/
def read? (bytes : List UInt8) : Option String :=
  ((scan 0 0 0 0 bytes).mapM id).map String.ofList

/-- The text of any sequence of bytes. -/
def readLossy (bytes : List UInt8) : String :=
  String.ofList ((scan 0 0 0 0 bytes).map fun c ↦ c.getD '\uFFFD')

example : read? [0xF0, 0x9F, 0x98, 0x80] = some "😀" := by decide +kernel
example : readLossy [0x61, 0xE2, 0x82, 0x62] = "a\uFFFDb" := by decide +kernel

end TwoTier.Text.Utf8
