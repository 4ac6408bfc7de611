/-!
The event counters of one tier.

Each event is recorded in the counter of its kind alone. The two rates are fractions of the
accesses; where nothing was accessed the hit rate is zero.
-/

set_option autoImplicit false
set_option relaxedAutoImplicit false

namespace TwoTier

/-- How often each kind of event happened. -/
structure Counters where
  /-- Look-ups answered with a value. -/
  hits : Nat
  /-- Look-ups without an answer. -/
  misses : Nat
  /-- Keys that became resident. -/
  added : Nat
  /-- Resident keys whose value was replaced. -/
  updated : Nat
  /-- Live keys removed to make room. -/
  evicted : Nat
  /-- New keys that were not admitted. -/
  rejected : Nat
  /-- Expired keys that were removed. -/
  expired : Nat
  /-- Calls that were not answered in time. -/
  timeouts : Nat
  deriving DecidableEq, Repr, Inhabited

/-- The kinds of event that a tier counts. -/
inductive Event where
  | hit | miss | added | updated | evicted | rejected | expired | timeout
  deriving DecidableEq, Repr

namespace Counters

/-- No event has happened. -/
def zero : Counters := ⟨0, 0, 0, 0, 0, 0, 0, 0⟩

/-- The counters after one more event. -/
def record (c : Counters) : Event → Counters
  | .hit => { c with hits := c.hits + 1 }
  | .miss => { c with misses := c.misses + 1 }
  | .added => { c with added := c.added + 1 }
  | .updated => { c with updated := c.updated + 1 }
  | .evicted => { c with evicted := c.evicted + 1 }
  | .rejected => { c with rejected := c.rejected + 1 }
  | .expired => { c with expired := c.expired + 1 }
  | .timeout => { c with timeouts := c.timeouts + 1 }

/-- The number of look-ups. -/
def accesses (c : Counters) : Nat := c.hits + c.misses

/-- The fraction of the look-ups that were hits. -/
def hitRate (c : Counters) : Float :=
  if c.accesses = 0 then 0 else c.hits.toFloat / c.accesses.toFloat

/-- The fraction of the look-ups that were not. -/
def missRate (c : Counters) : Float := 1 - c.hitRate

end Counters

end TwoTier
