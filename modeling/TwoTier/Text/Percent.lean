/-!
Percent-coding of a text inside an address.

Each UTF-8 byte that is an ASCII letter, a digit or one of `-`, `_`, `.`, `~` stands for itself;
every other byte is written as `%` and two upper-case hexadecimal digits. `decode` reads both forms
back. The coding never writes a character that separates the parts of an address.
-/

set_option autoImplicit false
set_option relaxedAutoImplicit false

namespace TwoTier.Text.Percent

/-- Whether a byte stands for itself. -/
def isUnreserved (b : UInt8) : Bool :=
  (0x41 ≤ b && b ≤ 0x5A) || (0x61 ≤ b && b ≤ 0x7A) || (0x30 ≤ b && b ≤ 0x39) ||
    b = 0x2D || b = 0x5F || b = 0x2E || b = 0x7E

/-- The upper-case hexadecimal digit of a number below sixteen. -/
def hexDigit (n : UInt8) : Char :=
  Char.ofNat (if n < 10 then 0x30 + n.toNat else 0x37 + n.toNat)

/-- The number that a hexadecimal digit of either case stands for. -/
def hexValue? (c : Char) : Option UInt8 :=
  if '0' ≤ c ∧ c ≤ '9' then some (c.toNat - 0x30).toUInt8
  else if 'A' ≤ c ∧ c ≤ 'F' then some (c.toNat - 0x37).toUInt8
  else if 'a' ≤ c ∧ c ≤ 'f' then some (c.toNat - 0x57).toUInt8
  else none

/-- The coded form of one byte. -/
def encodeByte (b : UInt8) : List Char :=
  if isUnreserved b then [Char.ofNat b.toNat] else ['%', hexDigit (b >>> 4), hexDigit (b &&& 15)]

/-- The coded form of bytes. -/
def encodeBytes : List UInt8 → List Char
  | [] => []
  | b :: rest => encodeByte b ++ encodeBytes rest

/-- The bytes that a coded text stands for; there are none where a `%` is not followed by two
hexadecimal digits or where a character is no ASCII character. -/
def decodeBytes : List Char → Option (List UInt8)
  | [] => some []
  | '%' :: a :: b :: rest =>
    match hexValue? a, hexValue? b, decodeBytes rest with
    | some x, some y, some bytes => some ((x * 16 + y) :: bytes)
    | _, _, _ => none
  | c :: rest =>
    if c = '%' ∨ 0x80 ≤ c.toNat then none
    else (decodeBytes rest).map (c.toNat.toUInt8 :: ·)

/-- The UTF-8 bytes of a text. -/
def bytes (s : String) : List UInt8 := s.toUTF8.data.toList

/-- The coded form of a text. -/
def encode (s : String) : String := String.ofList (encodeBytes (bytes s))

/-- The text that a coded text stands for. -/
def decode (s : String) : Option String :=
  (decodeBytes s.toList).bind fun bs ↦ String.fromUTF8? ⟨bs.toArray⟩

end TwoTier.Text.Percent
