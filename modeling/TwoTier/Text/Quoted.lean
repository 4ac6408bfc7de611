import TwoTier.Text.Hidden

/-!
Texts between quotes, as diagnostics show them.

A quote and a backslash are written with a backslash before them; newline, tab, return and the null
character have short forms; every other hidden character is written as its code point between
braces. `plain` characters stand for themselves.
-/

set_option autoImplicit false
set_option relaxedAutoImplicit false

namespace TwoTier.Text.Quoted

/-- The lower-case hexadecimal digits of a number. -/
def hexDigits (n : Nat) : List Char := Nat.toDigits 16 n

/-- The form of one character between quotes. -/
def escape (c : Char) : List Char :=
  match c with
  | '"' => ['\\', '"']
  | '\\' => ['\\', '\\']
  | '\n' => ['\\', 'n']
  | '\r' => ['\\', 'r']
  | '\t' => ['\\', 't']
  | '\x00' => ['\\', '0']
  | c => if Hidden.isHidden c then ['\\', 'u', '\x7b'] ++ hexDigits c.toNat ++ ['\x7d'] else [c]

/-- A text between quotes. -/
def quote (s : String) : String :=
  "\"" ++ String.ofList (s.toList.flatMap escape) ++ "\""

end TwoTier.Text.Quoted
