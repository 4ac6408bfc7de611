import TwoTier.Text.Decimal
import TwoTier.Text.Utf8

/-!
The replies of a store that is reached over the network, and what a caller reads in them.

A reply reads as a value of the kind that the command promises, or it does not. An error anywhere in
a reply makes the whole reply an error.
-/

set_option autoImplicit false
set_option relaxedAutoImplicit false

namespace TwoTier

/-- A reply. -/
inductive Reply where
  /-- Nothing. -/
  | nil
  /-- An integer. -/
  | int (n : Int)
  /-- A short text. -/
  | simple (s : String)
  /-- A sequence of bytes. -/
  | bulk (bytes : List UInt8)
  /-- A truth value. -/
  | truth (b : Bool)
  /-- A number of 64 bits. -/
  | double (x : Float)
  /-- The digits of an integer of any size. -/
  | big (digits : String)
  /-- An error. -/
  | error (message : String)
  /-- A list of replies. -/
  | array (items : List Reply)
  /-- A set of replies. -/
  | set (items : List Reply)
  deriving Inhabited

/-- What a script returns. -/
inductive ScriptValue where
  /-- Nothing. -/
  | nil
  /-- The word that says all is well. -/
  | okay
  /-- An integer. -/
  | int (n : Int)
  /-- A text. -/
  | text (s : String)
  /-- A list of values. -/
  | array (items : List ScriptValue)
  deriving Inhabited

namespace Reply

mutual

/-- The first error in a reply. -/
def error? : Reply → Option String
  | error message => some message
  | array items => firstError items
  | set items => firstError items
  | _ => none

/-- The first error in a list of replies. -/
def firstError : List Reply → Option String
  | [] => none
  | r :: rest => (error? r).or (firstError rest)

end

/-- The word that says all is well. -/
def okay : Reply := simple "OK"

/-- The text that a reply reads as. -/
def text? : Reply → Option String
  | bulk bytes => Text.Utf8.read? bytes
  | simple s => some s
  | int n => some (Text.Numeral.decimal n)
  | double x => some (Text.floatText Text.Decimal.plain x)
  | _ => none

/-- The integer that a reply reads as. -/
def int? : Reply → Option Int
  | int n => some n
  | simple s => if s = "OK" then none else Text.Numeral.readInt64 s
  | bulk bytes => (Text.Utf8.read? bytes).bind Text.Numeral.readInt64
  | double x => some x.toInt64.toInt
  | _ => none

/-- The truth value that a word stands for. -/
def wordTruth (word : String) : Option Bool :=
  if word = "1" then some true else if word = "0" then some false else none

/-- The truth value that a reply reads as. -/
def truth? : Reply → Option Bool
  | nil => some false
  | int n => some (n ≠ 0)
  | truth b => some b
  | simple s => if s = "OK" then some true else wordTruth s
  | bulk bytes => (Text.Utf8.read? bytes).bind wordTruth
  | _ => none

/-- The pair of texts that a reply reads as. -/
def pair? : Reply → Option (String × String)
  | array [a, b] => do return (← a.text?, ← b.text?)
  | _ => none

mutual

/-- The value of a script that a reply reads as. -/
def script : Reply → ScriptValue
  | nil => .nil
  | int n => .int n
  | simple s => if s = "OK" then .okay else .text s
  | bulk bytes => .text (Text.Utf8.readLossy bytes)
  | truth b => .int (if b then 1 else 0)
  | double x => .text (Text.floatText Text.Decimal.plain x)
  | big digits => .text ("big-number(" ++ digits ++ ")")
  | error message => .text message
  | array items => .array (scripts items)
  | set items => .array (scripts items)

/-- The values of a script that replies read as. -/
def scripts : List Reply → List ScriptValue
  | [] => []
  | r :: rest => script r :: scripts rest

end

end Reply

end TwoTier
