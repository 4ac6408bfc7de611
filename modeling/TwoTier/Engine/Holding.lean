import TwoTier.Engine.Loop

/-!
Who still holds what.

A listener whose last holder is gone gives its receive loop up, and a store whose last holder is
gone ends the subscriptions to it. `Tiers.release` takes the tiers from what is held to what follows
from that: all that is not reached from a holder is given up, and nothing else changes.
-/

set_option autoImplicit false
set_option relaxedAutoImplicit false

namespace TwoTier

/-- What is given up when nobody holds it any more. -/
inductive Held where
  /-- A store of this process. -/
  | store (s : Nat)
  /-- The place for a listener of a hybrid tier. -/
  | slot (id : Nat)
  /-- A listener. -/
  | listener (l : Nat)
  deriving DecidableEq, Repr

namespace Tiers

/-- The listener that something held leads to. -/
def listenerOf (t : Tiers) : Held → List Nat
  | .store _ => []
  | .slot id => (t.slots[id]?).toList
  | .listener l => [l]

/-- All that is held because of what is: a place holds its listener, a listener its store. -/
def closure (t : Tiers) (held : List Held) : List Held :=
  held.flatMap fun x ↦ x :: (t.listenerOf x).flatMap fun l ↦
    .listener l :: match (t.listener l).source with
      | .store s => [.store s]
      | .server _ => []

/-- Nobody holds a listener any more: its loop is told to end. -/
def abandonListener (t : Tiers) (l : Nat) : Tiers :=
  match t.takeLoop l with
  | (some r, t) => t.cancelLoop r
  | (none, t) => t

/-- Nobody holds a store any more: the subscriptions to it end. -/
def abandonStore (t : Tiers) (s : Nat) : Tiers :=
  let x := t.store s
  t.setStore s { x with subscribers := x.subscribers.disconnectAll }

/-- The tiers after everything was given up that is not held. -/
def release (t : Tiers) (held : List Held) : Tiers :=
  let all := t.closure held
  let lost := t.listeners.keys.filter fun l ↦ Held.listener l ∉ all
  let closed := t.stores.keys.filter fun s ↦ Held.store s ∉ all
  closed.foldl abandonStore (lost.foldl abandonListener t)

end Tiers

end TwoTier
