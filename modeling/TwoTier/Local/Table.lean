import TwoTier.Dict
import TwoTier.Local.Entry

/-!
The table of the local tier.

The entries are found by key; beside them the resident keys are numbered without gaps, so that a
random sample can be drawn by position. Each slot knows its key's position, so that a key leaves by
an exchange with the last one. `Table.Valid` says how the two parts belong together.
-/

set_option autoImplicit false
set_option relaxedAutoImplicit false

namespace TwoTier

/-- An entry and the position of its key. -/
structure Slot where
  /-- The entry. -/
  entry : Entry
  /-- The position of the key among the resident keys. -/
  index : Nat
  deriving DecidableEq, Repr, Inhabited

/-- The entries by key, and the resident keys by position. -/
structure Table where
  /-- The slot of each resident key. -/
  slots : Dict String Slot
  /-- The resident key at each position. -/
  keys : Dict Nat String

namespace Table

/-- The table without entries. -/
def empty : Table := ⟨∅, ∅⟩

instance : Inhabited Table := ⟨empty⟩

/-- The entry of a key. -/
def get? (t : Table) (key : String) : Option Entry := t.slots[key]?.map Slot.entry

/-- The keys without the one at a position, whose place the last key takes. -/
def swapRemove (keys : Dict Nat String) (i : Nat) : Dict Nat String :=
  let last := keys.size - 1
  match keys[last]? with
  | some key => (keys.insert i key).erase last
  | none => keys

/-- The slots after a key left position `i` of `keys`: the key that took its place knows its new
position. -/
def relocate (slots : Dict String Slot) (keys : Dict Nat String) (i : Nat) : Dict String Slot :=
  match keys[i]? with
  | some moved => slots.modify moved fun s ↦ { s with index := i }
  | none => slots

/-- The table without a key. -/
def remove (t : Table) (key : String) : Table :=
  match t.slots[key]? with
  | none => t
  | some slot =>
    let keys := swapRemove t.keys slot.index
    ⟨relocate (t.slots.erase key) keys slot.index, keys⟩

/-- The table with an entry for a key that is not resident. -/
def push (t : Table) (key : String) (entry : Entry) : Table :=
  ⟨t.slots.insert key ⟨entry, t.keys.size⟩, t.keys.insert t.keys.size key⟩

/-- The table with the entry of a resident key replaced. -/
def replace (t : Table) (key : String) (entry : Entry) : Table :=
  { t with slots := t.slots.modify key fun s ↦ { s with entry := entry } }

/-- The number of resident keys. -/
def size (t : Table) : Nat := t.keys.size

/-- The keys whose entries have expired at a moment. -/
def expiredKeys (t : Table) (now : Nat) : List String :=
  (t.slots.filter fun _ s ↦ s.entry.expired now).keys

/-- The two parts of the table belong together: the positions have no gaps, no key stands at two
of them, the slots are those of the keys at some position, and each slot knows the position of its
key. -/
structure Valid (t : Table) : Prop where
  dense : ∀ i, i ∈ t.keys ↔ i < t.keys.size
  nodup : ∀ (i j : Nat) (key : String), t.keys[i]? = some key → t.keys[j]? = some key → i = j
  mem_iff : ∀ key, (∃ i : Nat, t.keys[i]? = some key) ↔ key ∈ t.slots
  position : ∀ (key : String) (slot : Slot),
    t.slots[key]? = some slot → t.keys[slot.index]? = some key

end Table

end TwoTier
