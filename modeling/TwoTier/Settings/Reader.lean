import TwoTier.Text.Decimal
import TwoTier.Text.Quoted

/-!
Reading a document from left to right.

A document is a text in the common notation of objects, arrays, strings, numbers and the three
literal words. It is read once, by readers that know what they expect, so that of several faults
the leftmost one is reported. A fault is either in the notation (`malformed`), or the text ends too
early (`incomplete`), or a value is not the expected one (`unexpected`).

`skipValue` passes over a value that nobody expects, of any depth.
-/

set_option autoImplicit false
set_option relaxedAutoImplicit false

namespace TwoTier.Document

/-- What was found where something else was expected. -/
inductive Found where
  | integer (n : Int)
  | fraction (x : Float)
  | string (s : String)
  | truth (b : Bool)
  | null
  | array
  | object

/-- Why a well-formed value was not accepted. -/
inductive Unexpected where
  /-- The value is of another kind. -/
  | kind (found : Found) (expected : String)
  /-- The integer does not fit the expected width. -/
  | range (n : Int) (expected : String)
  /-- A field is given twice. -/
  | duplicate (field : String)
  /-- A name is none of the known ones. -/
  | variant (name : String)

/-- Why a document was not accepted. -/
inductive Refusal where
  /-- The text does not follow the notation. -/
  | malformed
  /-- The text ends too early. -/
  | incomplete
  /-- A value is not the expected one. -/
  | unexpected (what : Unexpected)

/-- The wording of what was found. -/
def Found.message : Found → String
  | integer n => "integer `" ++ Text.Numeral.decimal n ++ "`"
  | fraction x => "floating point `" ++ Text.floatText Text.Decimal.compact x ++ "`"
  | string s => "string " ++ Text.Quoted.quote s
  | truth b => "boolean `" ++ (if b then "true" else "false") ++ "`"
  | null => "null"
  | array => "sequence"
  | object => "map"

/-- The wording of a value that was not accepted. -/
def Unexpected.message : Unexpected → String
  | kind found expected => "invalid type: " ++ found.message ++ ", expected " ++ expected
  | range n expected => "invalid value: " ++ (Found.integer n).message ++ ", expected " ++ expected
  | duplicate field => "duplicate field `" ++ field ++ "`"
  | variant name =>
    "unknown variant `" ++ name ++ "`, expected one of `local`, `remote`, `hybrid`"

/-- A reader consumes a part of the text and yields a value, or refuses the document. -/
abbrev Reader := StateT (List Char) (Except Refusal)

namespace Reader

/-- The next character, which stays. -/
def peek : Reader (Option Char) := do return (← get).head?

/-- Leaves the next character behind. -/
def advance : Reader Unit := modify List.tail

/-- The next character, which is left behind. -/
def next : Reader (Option Char) := do
  let c ← peek
  advance
  return c

/-- The document does not follow the notation. -/
def malformed {α : Type} : Reader α := throw .malformed

/-- The document ends too early. -/
def incomplete {α : Type} : Reader α := throw .incomplete

/-- A value is not the expected one. -/
def unexpected {α : Type} (what : Unexpected) : Reader α := throw (.unexpected what)

/-- Whether a character may stand between two parts of a document. -/
def isSpace (c : Char) : Bool := c = ' ' || c = '\n' || c = '\t' || c = '\r'

/-- Leaves white space behind. -/
def skipSpace : Reader Unit := modify fun cs ↦ cs.dropWhile isSpace

/-- The next character after white space; the document must not end before it. -/
def peekValue : Reader Char := do
  skipSpace
  match ← peek with
  | some c => return c
  | none => incomplete

/-- Leaves the rest of a literal word behind, character by character. -/
def word : List Char → Reader Unit
  | [] => return
  | c :: rest => do
    match ← next with
    | none => incomplete
    | some d => if d = c then word rest else malformed

/-! ### Numbers -/

/-- A number as it is written. -/
inductive Number where
  /-- An integer that fits 64 bits, signed or unsigned. -/
  | integer (n : Int)
  /-- Any other number. -/
  | fraction (x : Float)

/-- The digits that follow. -/
def digits : Reader (List Char) := do
  let cs ← get
  set (cs.dropWhile Text.Numeral.isDigit)
  return cs.takeWhile Text.Numeral.isDigit

/-- The number that leading digits stand for after the number `acc`, as far as it fits 64 bits,
and how many digits do not. -/
def accumulate (acc : Nat) : List Char → Nat × Nat
  | [] => (acc, 0)
  | c :: rest =>
    let n := acc * 10 + Text.Numeral.digitValue c
    if n ≤ Text.Numeral.maxUInt64 then accumulate n rest else (acc, rest.length + 1)

/-- A power of ten with an exponent below 309, as a number of 64 bits. -/
def powerOfTen (n : Nat) : Float := Float.ofScientific 1 false n

/-- `x * 10 ^ e` in steps that stay in range, with at most `steps` of them. There is no result where
it would be infinite. -/
def scaled : Nat → Float → Int → Option Float
  | 0, x, _ => some x
  | steps + 1, x, e =>
    if e.natAbs ≤ 308 then
      if 0 ≤ e then
        let y := x * powerOfTen e.natAbs
        if y.isInf then none else some y
      else some (x / powerOfTen e.natAbs)
    else if x == 0 then some x
    else if 0 ≤ e then none
    else scaled steps (x / powerOfTen 308) (e + 308)

/-- The number of 64 bits for an integer and a power of ten. -/
def fraction (negative : Bool) (significand : Nat) (e : Int) : Reader Number := do
  match scaled 8 (OfScientific.ofScientific significand false 0) e with
  | none => malformed
  | some x => return .fraction (if negative then -x else x)

/-- The rest of a number after the mark of its exponent. -/
def exponent (negative : Bool) (significand : Nat) (e : Int) : Reader Number := do
  let sign ← peek
  if sign = some '+' ∨ sign = some '-' then advance
  match ← peek with
  | none => incomplete
  | some c =>
    if ¬ Text.Numeral.isDigit c then malformed
    else
      let ds ← digits
      let n := (Text.Numeral.value 0 ds).getD 0
      if 2147483648 ≤ n then
        if significand ≠ 0 ∧ sign ≠ some '-' then malformed
        else return .fraction (if negative then -0.0 else 0.0)
      else fraction negative significand (if sign = some '-' then e - n else e + n)

/-- Whether the next character is the mark of an exponent. -/
def atExponent : Reader Bool := do
  let c ← peek
  return c = some 'e' || c = some 'E'

/-- The rest of a number after its point. Digits beyond 64 bits are ignored. -/
def afterPoint (negative : Bool) (significand : Nat) (e : Int) : Reader Number := do
  let ds ← digits
  if ds = [] then
    match ← peek with
    | none => incomplete
    | some _ => malformed
  else
    let (n, ignored) := accumulate significand ds
    let e := e - ((ds.length - ignored : Nat) : Int)
    if ← atExponent then
      advance
      exponent negative n e
    else fraction negative n e

/-- The rest of a number after its integer part, of which `dropped` digits did not fit. -/
def afterInteger (negative : Bool) (significand dropped : Nat) : Reader Number := do
  if (← peek) = some '.' then
    advance
    afterPoint negative significand dropped
  else if ← atExponent then
    advance
    exponent negative significand dropped
  else if dropped ≠ 0 then fraction negative significand dropped
  else if ¬ negative then return .integer significand
  else if significand = 0 ∨ 9223372036854775808 < significand then fraction true significand 0
  else return .integer (-(significand : Int))

/-- A number, of which the sign has been read. -/
def unsigned (negative : Bool) : Reader Number := do
  match ← peek with
  | none => incomplete
  | some '0' =>
    advance
    match ← peek with
    | some c => if Text.Numeral.isDigit c then malformed else afterInteger negative 0 0
    | none => afterInteger negative 0 0
  | some c =>
    if Text.Numeral.isDigit c then
      let (n, dropped) := accumulate 0 (← digits)
      afterInteger negative n dropped
    else malformed

/-- A number. -/
def number : Reader Number := do
  if (← peek) = some '-' then
    advance
    unsigned true
  else unsigned false

/-- Passes over a number that nobody expects. Where it ends too early it is malformed. -/
def skipNumber : Reader Unit := do
  if (← peek) = some '-' then advance
  match ← digits with
  | [] => malformed
  | ['0'] => pure ()
  | '0' :: _ => malformed
  | _ => pure ()
  if (← peek) = some '.' then
    advance
    if (← digits) = [] then malformed
  if ← atExponent then
    advance
    let sign ← peek
    if sign = some '+' ∨ sign = some '-' then advance
    if (← digits) = [] then malformed

/-! ### Strings -/

/-- The value of a hexadecimal digit of either case. -/
def hexValue? (c : Char) : Option Nat :=
  if '0' ≤ c ∧ c ≤ '9' then some (c.toNat - '0'.toNat)
  else if 'a' ≤ c ∧ c ≤ 'f' then some (c.toNat - 'a'.toNat + 10)
  else if 'A' ≤ c ∧ c ≤ 'F' then some (c.toNat - 'A'.toNat + 10)
  else none

/-- Whether at least `n` bytes follow. -/
def hasBytes (n : Nat) : List Char → Bool
  | [] => n = 0
  | c :: rest => n ≤ c.utf8Size || hasBytes (n - c.utf8Size) rest

/-- The four hexadecimal digits of an escape. The document ends too early where fewer than four
bytes follow. -/
def hexUnit : Reader Nat := do
  let cs ← get
  if ¬ hasBytes 4 cs then incomplete
  else
    match (cs.take 4).mapM hexValue? with
    | some [a, b, c, d] =>
      set (cs.drop 4)
      return ((a * 16 + b) * 16 + c) * 16 + d
    | _ => malformed

/-- A character that must follow within a string. -/
def expectInString (c : Char) : Reader Unit := do
  match ← next with
  | none => incomplete
  | some d => if d = c then pure () else malformed

/-- The character that a numeric escape stands for; a pair of surrogates is one character, a lone
one is malformed. -/
def escapedUnit : Reader Char := do
  let n ← hexUnit
  if 0xDC00 ≤ n ∧ n ≤ 0xDFFF then malformed
  else if n < 0xD800 ∨ 0xDBFF < n then return Char.ofNat n
  else
    expectInString '\\'
    expectInString 'u'
    let m ← hexUnit
    if m < 0xDC00 ∨ 0xDFFF < m then malformed
    else return Char.ofNat (0x10000 + (n - 0xD800) * 0x400 + (m - 0xDC00))

/-- The character that an escape stands for. -/
def escaped : Reader Char := do
  match ← next with
  | none => incomplete
  | some '"' => return '"'
  | some '\\' => return '\\'
  | some '/' => return '/'
  | some 'b' => return '\x08'
  | some 'f' => return '\x0c'
  | some 'n' => return '\n'
  | some 'r' => return '\r'
  | some 't' => return '\t'
  | some 'u' => escapedUnit
  | some _ => malformed

/-- The characters of a string up to its closing quote, of at most `bound` of them, after those in
`acc`. -/
def stringTail : Nat → List Char → Reader String
  | 0, _ => malformed
  | bound + 1, acc => do
    match ← next with
    | none => incomplete
    | some '"' => return String.ofList acc.reverse
    | some '\\' => do stringTail bound ((← escaped) :: acc)
    | some c => if c.toNat < 0x20 then malformed else stringTail bound (c :: acc)

/-- A string, of which the opening quote has been read. -/
def string : Reader String := do stringTail ((← get).length + 1) []

/-- Passes over the rest of a string that nobody expects, of at most `bound` characters. Surrogates
need not be paired in it. -/
def skipStringTail : Nat → Reader Unit
  | 0 => malformed
  | bound + 1 => do
    match ← next with
    | none => incomplete
    | some '"' => return
    | some '\\' =>
      match ← next with
      | none => incomplete
      | some 'u' =>
        discard hexUnit
        skipStringTail bound
      | some c => if c ∈ "\"\\/bfnrt".toList then skipStringTail bound else malformed
    | some c => if c.toNat < 0x20 then malformed else skipStringTail bound

/-- Passes over a string that nobody expects, of which the opening quote has been read. -/
def skipString : Reader Unit := do skipStringTail ((← get).length + 1)

/-! ### Values that nobody expects -/

/-- The colon between a name and its value. -/
def colon : Reader Unit := do
  skipSpace
  match ← next with
  | none => incomplete
  | some c => if c = ':' then pure () else malformed

mutual

/-- Passes over a value with at most `bound` parts. -/
def skipParts : Nat → Reader Unit
  | 0 => malformed
  | bound + 1 => do
    match ← peekValue with
    | 'n' => word "null".toList
    | 't' => word "true".toList
    | 'f' => word "false".toList
    | '"' =>
      advance
      skipString
    | '[' =>
      advance
      skipSpace
      match ← peek with
      | none => incomplete
      | some ']' => advance
      | some _ => skipElements bound
    | '\x7b' =>
      advance
      skipSpace
      match ← peek with
      | none => incomplete
      | some '\x7d' => advance
      | some _ => skipMembers bound
    | c => if c = '-' ∨ Text.Numeral.isDigit c then skipNumber else malformed

/-- Passes over the elements of an array up to its end. -/
def skipElements : Nat → Reader Unit
  | 0 => malformed
  | bound + 1 => do
    skipParts bound
    skipSpace
    match ← next with
    | none => incomplete
    | some ',' => skipElements bound
    | some ']' => return
    | some _ => malformed

/-- Passes over the members of an object up to its end. -/
def skipMembers : Nat → Reader Unit
  | 0 => malformed
  | bound + 1 => do
    match ← peekValue with
    | '"' =>
      advance
      skipString
      colon
      skipParts bound
      skipSpace
      match ← next with
      | none => incomplete
      | some ',' => skipMembers bound
      | some '\x7d' => return
      | some _ => malformed
    | _ => malformed

end

/-- Passes over a value that nobody expects. -/
def skipValue : Reader Unit := do skipParts (2 * (← get).length + 2)

/-! ### Values of an expected kind -/

/-- Refuses a value because something else was expected. What was found is read as far as its
wording needs. -/
def wrongKind {α : Type} (expected : String) : Reader α := do
  match ← peekValue with
  | 'n' =>
    word "null".toList
    unexpected (.kind .null expected)
  | 't' =>
    word "true".toList
    unexpected (.kind (.truth true) expected)
  | 'f' =>
    word "false".toList
    unexpected (.kind (.truth false) expected)
  | '"' =>
    advance
    let s ← string
    unexpected (.kind (.string s) expected)
  | '[' => unexpected (.kind .array expected)
  | '\x7b' => unexpected (.kind .object expected)
  | c =>
    if c = '-' ∨ Text.Numeral.isDigit c then
      match ← number with
      | .integer n => unexpected (.kind (.integer n) expected)
      | .fraction x => unexpected (.kind (.fraction x) expected)
    else malformed

/-- An integer between two bounds, called `expected`. -/
def integer (least greatest : Int) (expected : String) : Reader Int := do
  let c ← peekValue
  if c = '-' ∨ Text.Numeral.isDigit c then
    match ← number with
    | .integer n =>
      if least ≤ n ∧ n ≤ greatest then return n else unexpected (.range n expected)
    | .fraction x => unexpected (.kind (.fraction x) expected)
  else wrongKind expected

/-- A natural number of a number of bits, called `expected`. -/
def natural (bits : Nat) (expected : String) : Reader Nat := do
  return (← integer 0 (Nat.pow 2 bits - 1 : Nat) expected).toNat

/-- A string. -/
def text (expected : String) : Reader String := do
  if (← peekValue) = '"' then
    advance
    string
  else wrongKind expected

/-- A literal word for a truth value. -/
def truth : Reader Bool := do
  match ← peekValue with
  | 't' =>
    word "true".toList
    return true
  | 'f' =>
    word "false".toList
    return false
  | _ => wrongKind "a boolean"

/-- The literal word for nothing. -/
def unit : Reader Unit := do
  if (← peekValue) = 'n' then word "null".toList else wrongKind "unit"

/-! ### Records -/

/-- A field of a record: its name, and the reader of its value, which says how the record
changes. -/
structure Field (σ : Type) where
  /-- The name of the field. -/
  name : String
  /-- Reads the value. -/
  read : Reader (σ → σ)

variable {σ : Type}

/-- Reads values in the order of the fields until the array ends; fields without a value stay as
they are. -/
def elements : List (Field σ) → Bool → σ → Reader σ
  | [], _, s => do
    skipSpace
    match ← next with
    | none => incomplete
    | some c => if c = ']' then return s else malformed
  | f :: rest, isFirst, s => do
    skipSpace
    match ← peek with
    | none => incomplete
    | some ']' =>
      advance
      return s
    | some c =>
      if isFirst then do elements rest false ((← f.read) s)
      else if c = ',' then do
        advance
        if (← peekValue) = ']' then malformed
        else elements rest false ((← f.read) s)
      else malformed

/-- Reads the member that begins at a name; `seen` are the known names read before. -/
def member (fields : List (Field σ)) (seen : List String) (s : σ) : Reader (List String × σ) := do
  advance
  let name ← string
  match fields.find? fun f ↦ f.name = name with
  | none =>
    colon
    skipValue
    return (seen, s)
  | some f =>
    if name ∈ seen then unexpected (.duplicate name)
    else
      colon
      return (name :: seen, (← f.read) s)

/-- Reads at most `bound` members until the object ends. -/
def members (fields : List (Field σ)) : Nat → Bool → List String → σ → Reader σ
  | 0, _, _, _ => malformed
  | bound + 1, isFirst, seen, s => do
    skipSpace
    match ← peek with
    | none => incomplete
    | some '\x7d' =>
      advance
      return s
    | some c =>
      if isFirst then
        if c = '"' then
          let (seen, s) ← member fields seen s
          members fields bound false seen s
        else malformed
      else if c = ',' then
        advance
        if (← peekValue) = '"' then
          let (seen, s) ← member fields seen s
          members fields bound false seen s
        else malformed
      else malformed

/-- A record called `expected`: an object with any of the fields, in any order and with others
among them, or an array of values in the order of the fields. What is not given is as in `s`. -/
def record (expected : String) (fields : List (Field σ)) (s : σ) : Reader σ := do
  match ← peekValue with
  | '[' =>
    advance
    elements fields true s
  | '\x7b' =>
    advance
    members fields ((← get).length + 1) true [] s
  | _ => wrongKind expected

end Reader

/-- Reads a whole document; after the value only white space may follow. -/
def read {α : Type} (reader : Reader α) (doc : String) : Except Refusal α := do
  let (a, rest) ← reader.run doc.toList
  if (rest.dropWhile Reader.isSpace).isEmpty then return a else throw .malformed

end TwoTier.Document
