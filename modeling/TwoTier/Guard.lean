import TwoTier.Dict

/-!
The table of fills in flight.

A fill computes the value of a key that many callers miss at once. The table holds one record for
each key whose fill has not ended; a caller that finds a record waits for that fill, and a caller
that finds none starts one.
-/

set_option autoImplicit false
set_option relaxedAutoImplicit false

namespace TwoTier

/-- The fills in flight, and how many calls started one or joined one. -/
structure Guard where
  /-- The fill of each key that has one in flight. -/
  inFlight : Dict String Nat
  /-- Calls that started a fill. -/
  started : Nat
  /-- Calls that joined a fill in flight. -/
  coalesced : Nat

namespace Guard

/-- No fill in flight. -/
def empty : Guard := ⟨∅, 0, 0⟩

instance : Inhabited Guard := ⟨empty⟩

/-- The guard after a call joined a fill. -/
def join (g : Guard) : Guard := { g with coalesced := g.coalesced + 1 }

/-- The guard after a call started a fill of a key. -/
def start (g : Guard) (key : String) (fill : Nat) : Guard :=
  { g with inFlight := g.inFlight.insert key fill, started := g.started + 1 }

/-- The guard after the fill of a key ended. -/
def finish (g : Guard) (key : String) : Guard := { g with inFlight := g.inFlight.erase key }

end Guard

end TwoTier
