/-!
Blank texts: texts of white space only, in the sense of the Unicode property of that name.
-/

set_option autoImplicit false
set_option relaxedAutoImplicit false

namespace TwoTier.Text.Blank

/-- The code points with the property White_Space, as closed intervals. -/
def intervals : List (Nat × Nat) :=
  [(0x9, 0xD), (0x20, 0x20), (0x85, 0x85), (0xA0, 0xA0), (0x1680, 0x1680), (0x2000, 0x200A),
    (0x2028, 0x2029), (0x202F, 0x202F), (0x205F, 0x205F), (0x3000, 0x3000)]

/-- Whether a character is white space. -/
def isBlankChar (c : Char) : Bool :=
  intervals.any fun i ↦ i.1 ≤ c.toNat && c.toNat ≤ i.2

/-- Whether a text holds white space only; the empty text does. -/
def isBlank (s : String) : Bool := s.toList.all isBlankChar

end TwoTier.Text.Blank
