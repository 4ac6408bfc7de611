import TwoTier.Scenario.Basic
import TwoTier.Engine.Holding

/-!
What the objects of a scenario hold.

A handle on a store holds the store. A hybrid tier holds its place for a listener and whatever the
tier behind it holds; so does a fill of its guard.
-/

set_option autoImplicit false
set_option relaxedAutoImplicit false

namespace TwoTier

/-- What a cache holds. -/
def Cache.held : Cache → List Held
  | localTier _ => []
  | store s => [.store s.store]
  | server _ => []
  | hybrid front behind => .slot front.id :: behind.held

/-- The number of the guard of a cache, with what a fill of the guard holds. -/
def Cache.guards : Cache → List (Nat × List Held)
  | localTier _ => []
  | store s => [(s.guard, [.store s.store])]
  | server _ => []
  | hybrid front behind => (front.guard, .slot front.id :: behind.held) :: behind.guards

/-- What a scenario's object holds. -/
def Scenario.Object.held : Scenario.Object → List Held
  | cache c => c.held
  | assembled c => c.cache.held
  | guard _ => []
  | listener l => [.listener l]

/-- The guards of a scenario's object, each with what a fill of the guard holds. -/
def Scenario.Object.guards : Scenario.Object → List (Nat × List Held)
  | cache c => c.guards
  | assembled c => c.cache.guards
  | _ => []

end TwoTier
