import TwoTier.Stats.Counters
import TwoTier.Text.Decimal

/-!
Snapshots: named measurements of one or more tiers at a moment.

A snapshot is a list of names in increasing order, each with an integer, a fraction or a snapshot
of its own. Names are ordered by code points. Integers are signed and of 64 bits; a larger count
is shown as the greatest of them.
-/

set_option autoImplicit false
set_option relaxedAutoImplicit false

namespace TwoTier

/-- One measurement. -/
inductive Stat where
  /-- A count or a level. -/
  | int (n : Int)
  /-- A fraction. -/
  | float (x : Float)
  /-- The measurements of a tier below. -/
  | nested (entries : List (String × Stat))
  deriving Inhabited

/-- Named measurements in increasing order of their names. -/
structure Snapshot where
  /-- The names and what was measured under each. -/
  entries : List (String × Stat)
  deriving Inhabited

namespace Stat

/-- The measurement of a count, which is cut at the greatest signed 64-bit integer. -/
def count (n : Nat) : Stat := int (min (n : Int) Text.Numeral.maxInt64)

/-- The measurement of a tier below. -/
def ofSnapshot (s : Snapshot) : Stat := nested s.entries

/-- The integer measured, if one was. -/
def toInt? : Stat → Option Int
  | int n => some n
  | _ => none

/-- The number measured, if one was. -/
def toFloat? : Stat → Option Float
  | float x => some x
  | int n => some (Float.ofInt n)
  | nested _ => none

/-- The measurements below, if there are any. -/
def toSnapshot? : Stat → Option Snapshot
  | nested entries => some ⟨entries⟩
  | _ => none

mutual

/-- Whether two measurements are equal; what is no number equals nothing. -/
def same : Stat → Stat → Bool
  | int n, int m => n = m
  | float x, float y => x == y
  | nested a, nested b => sameEntries a b
  | _, _ => false

/-- Whether two lists of measurements are equal, name by name. -/
def sameEntries : List (String × Stat) → List (String × Stat) → Bool
  | [], [] => true
  | (n, a) :: r, (m, b) :: s => n = m && same a b && sameEntries r s
  | _, _ => false

end

end Stat

namespace Snapshot

/-- No measurement. -/
def empty : Snapshot := ⟨[]⟩

/-- A name bound to a measurement in a list in increasing order. -/
def insertEntry (name : String) (stat : Stat) : List (String × Stat) → List (String × Stat)
  | [] => [(name, stat)]
  | (n, a) :: rest =>
    if n = name then (name, stat) :: rest
    else if name < n then (name, stat) :: (n, a) :: rest
    else (n, a) :: insertEntry name stat rest

/-- The snapshot with a name bound to a measurement. -/
def insert (s : Snapshot) (name : String) (stat : Stat) : Snapshot :=
  ⟨insertEntry name stat s.entries⟩

/-- The snapshot of named measurements, the last of a name winning. -/
def ofList (l : List (String × Stat)) : Snapshot :=
  l.foldl (fun s x ↦ s.insert x.1 x.2) empty

/-- What was measured under a name. -/
def get? (s : Snapshot) (name : String) : Option Stat :=
  (s.entries.find? fun x ↦ x.1 = name).map Prod.snd

/-- What was measured under a path of names through the tiers; there is nothing under the empty
path. -/
def path? (s : Snapshot) : List String → Option Stat
  | [] => none
  | [name] => s.get? name
  | name :: rest => ((s.get? name).bind Stat.toSnapshot?).bind fun below ↦ below.path? rest

/-- The integer measured under a name. -/
def int? (s : Snapshot) (name : String) : Option Int := (s.get? name).bind Stat.toInt?

/-- The names, in increasing order. -/
def names (s : Snapshot) : List String := s.entries.map Prod.fst

/-- The number of names. -/
def size (s : Snapshot) : Nat := s.entries.length

/-- Whether two snapshots are equal; what is no number equals nothing. -/
def same (s t : Snapshot) : Bool := Stat.sameEntries s.entries t.entries

/-- The snapshot with the counters of a tier added, its timeouts excepted. -/
def extend (s : Snapshot) (c : Counters) : Snapshot :=
  [("hits", Stat.count c.hits), ("misses", Stat.count c.misses), ("hit_ratio", .float c.hitRate),
    ("keys_added", Stat.count c.added), ("keys_updated", Stat.count c.updated),
    ("keys_evicted", Stat.count c.evicted), ("keys_rejected", Stat.count c.rejected),
    ("keys_expired", Stat.count c.expired)].foldl (fun t x ↦ t.insert x.1 x.2) s

/-! ### The snapshot as a document -/

/-- A character as it stands in a string of a document: quotes, backslashes and controls are
escaped. -/
def escape (c : Char) : List Char :=
  match c with
  | '"' => ['\\', '"']
  | '\\' => ['\\', '\\']
  | '\n' => ['\\', 'n']
  | '\r' => ['\\', 'r']
  | '\t' => ['\\', 't']
  | '\x08' => ['\\', 'b']
  | '\x0c' => ['\\', 'f']
  | c =>
    if c.toNat < 0x20 then
      ['\\', 'u', '0', '0', Nat.digitChar (c.toNat / 16), Nat.digitChar (c.toNat % 16)]
    else [c]

/-- A string of a document. -/
def quote (s : String) : String := "\"" ++ String.ofList (s.toList.flatMap escape) ++ "\""

mutual

/-- A measurement as part of a document; a fraction that is not finite is `null`. -/
def renderStat : Stat → String
  | .int n => Text.Numeral.decimal n
  | .float x => if x.isFinite then Text.floatText Text.Decimal.compact x else "null"
  | .nested entries => "\x7b" ++ String.intercalate "," (renderEntries entries) ++ "\x7d"

/-- The members of an object, each a name and its measurement. -/
def renderEntries : List (String × Stat) → List String
  | [] => []
  | (name, stat) :: rest => (quote name ++ ":" ++ renderStat stat) :: renderEntries rest

end

/-- The snapshot as a document without spaces. -/
def render (s : Snapshot) : String := renderStat (.nested s.entries)

end Snapshot

end TwoTier
