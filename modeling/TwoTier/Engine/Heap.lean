import TwoTier.Guard
import TwoTier.Local.Cache
import TwoTier.Server.Peer
import TwoTier.Store.Basic

/-!
What the calls of one process share.

The tiers, the listeners and their receive loops are what a call may read and write
(`Tiers`). The clock, the fills in flight and the locks belong to the scheduler: a call reads them,
and changes the last two only by starting a fill or by taking and giving back a lock.
-/

set_option autoImplicit false
set_option relaxedAutoImplicit false

namespace TwoTier

/-- Where notices are published: a store of this process, or one over the network. -/
inductive Source where
  /-- A store of this process, by its number. -/
  | store (s : Nat)
  /-- A store over the network, by its number. -/
  | server (r : Nat)
  deriving DecidableEq, Repr, Inhabited

/-- The stages of a listener's life. -/
inductive ListenerState where
  | stopped | starting | running | stopping
  deriving DecidableEq, Repr, Inhabited

/-- A listener for invalidation notices: what it serves, and what it has done. -/
structure Listener where
  /-- The local tier from which invalidated keys are removed. -/
  localTier : Nat
  /-- Where the notices are published. -/
  source : Source
  /-- On which channel. -/
  channel : String
  /-- For how long a stopping loop is waited for. -/
  patience : Nat
  /-- The stage of its life. -/
  state : ListenerState
  /-- Messages received. -/
  received : Nat
  /-- Keys removed from the local tier. -/
  applied : Nat
  /-- Empty payloads and patterns. -/
  ignored : Nat
  /-- Messages lost or not readable. -/
  failed : Nat
  /-- The receive loop that it is responsible for. -/
  loop : Option Nat
  deriving Inhabited

/-- A receive loop: it takes messages from a subscription for a listener. -/
structure Loop where
  /-- The listener. -/
  listener : Nat
  /-- Where the subscription is. -/
  source : Source
  /-- The subscription. -/
  subscription : Nat
  /-- Whether the loop has been told to end. -/
  cancelled : Bool
  /-- Whether the loop has ended. -/
  ended : Bool
  /-- When the loop last began to wait, in the order of the scheduler. -/
  since : Nat
  deriving DecidableEq, Repr, Inhabited

/-- What calls read and write. Everything is found by its number. -/
structure Tiers where
  /-- The local tiers. -/
  locals : Dict Nat LocalCache
  /-- The stores of this process. -/
  stores : Dict Nat Store
  /-- The stores over the network. -/
  servers : Dict Nat Server
  /-- The listeners. -/
  listeners : Dict Nat Listener
  /-- The listener of each hybrid tier that has had one. -/
  slots : Dict Nat Nat
  /-- The receive loops. -/
  loops : Dict Nat Loop
  /-- The fetches that have begun. -/
  begun : List Nat
  /-- The number of the next thing to be made. -/
  next : Nat

/-- The locks: one for each listener, and one for each hybrid tier's place for a listener. -/
inductive Lock where
  /-- Held while a listener starts, or gives up its loop. -/
  | listener (l : Nat)
  /-- Held while the listener of a hybrid tier is used. -/
  | slot (h : Nat)
  deriving DecidableEq, Repr

namespace Lock

/-- The number by which a lock is found. -/
def code : Lock → Nat
  | listener l => 2 * l
  | slot h => 2 * h + 1

instance : Ord Lock := ⟨compareOn code⟩

instance : Std.TransOrd Lock := inferInstanceAs (Std.TransCmp (compareOn code))

instance : Std.LawfulEqOrd Lock where
  eq_of_compare {a b} h := by
    have h : a.code = b.code := Std.LawfulEqOrd.eq_of_compare h
    cases a <;> cases b <;> simp only [code] at h <;> first | omega | congr 1; omega

end Lock

/-- Everything that the calls of one process share. -/
structure Heap where
  /-- The moment. -/
  now : Nat
  /-- What calls read and write. -/
  tiers : Tiers
  /-- The fills in flight, by the number of their guard. -/
  guards : Dict Nat Guard
  /-- Who waits for each lock, the holder first. -/
  locks : Dict Lock (List Nat)
  /-- The number of the next thread. -/
  nextThread : Nat

namespace Tiers

/-- Nothing has been made. -/
def empty : Tiers := ⟨∅, ∅, ∅, ∅, ∅, ∅, [], 0⟩

/-- A local tier. -/
def localTier (t : Tiers) (l : Nat) : LocalCache := t.locals.getD l default

/-- A store of this process. -/
def store (t : Tiers) (s : Nat) : Store := t.stores.getD s default

/-- A store over the network. -/
def server (t : Tiers) (r : Nat) : Server := t.servers.getD r default

/-- A listener. -/
def listener (t : Tiers) (l : Nat) : Listener := t.listeners.getD l default

/-- A receive loop. -/
def loop (t : Tiers) (r : Nat) : Loop := t.loops.getD r default

/-- The tiers with a local tier in another state. -/
def setLocal (t : Tiers) (l : Nat) (c : LocalCache) : Tiers :=
  { t with locals := t.locals.insert l c }

/-- The tiers with a store in another state. -/
def setStore (t : Tiers) (s : Nat) (x : Store) : Tiers := { t with stores := t.stores.insert s x }

/-- The tiers with a store over the network in another state. -/
def setServer (t : Tiers) (r : Nat) (x : Server) : Tiers :=
  { t with servers := t.servers.insert r x }

/-- The tiers with a listener in another state. -/
def setListener (t : Tiers) (l : Nat) (x : Listener) : Tiers :=
  { t with listeners := t.listeners.insert l x }

/-- The tiers with a receive loop in another state. -/
def setLoop (t : Tiers) (r : Nat) (x : Loop) : Tiers := { t with loops := t.loops.insert r x }

@[simp] theorem localTier_setLocal (t : Tiers) (i j : Nat) (c : LocalCache) :
    (t.setLocal i c).localTier j = if j = i then c else t.localTier j := by
  simp [localTier, setLocal]

@[simp] theorem store_setStore (t : Tiers) (i j : Nat) (x : Store) :
    (t.setStore i x).store j = if j = i then x else t.store j := by
  simp [store, setStore]

@[simp] theorem store_setLocal (t : Tiers) (i j : Nat) (c : LocalCache) :
    (t.setLocal i c).store j = t.store j := rfl

@[simp] theorem localTier_setStore (t : Tiers) (i j : Nat) (x : Store) :
    (t.setStore i x).localTier j = t.localTier j := rfl

end Tiers

namespace Heap

/-- The clock has just been started, and nothing has been made. -/
def initial : Heap := ⟨0, .empty, ∅, ∅, 0⟩

/-- The fills of a guard. -/
def guard (h : Heap) (g : Nat) : Guard := h.guards.getD g default

/-- The heap with the fills of a guard changed. -/
def setGuard (h : Heap) (g : Nat) (x : Guard) : Heap := { h with guards := h.guards.insert g x }

/-- Who waits for a lock, the holder first. -/
def waiting (h : Heap) (m : Lock) : List Nat := h.locks.getD m []

/-- The heap with a thread waiting for a lock behind all others; it holds the lock at once where
nobody waits. -/
def enqueue (h : Heap) (m : Lock) (thread : Nat) : Heap :=
  if thread ∈ h.waiting m then h
  else { h with locks := h.locks.insert m (h.waiting m ++ [thread]) }

/-- The heap with a thread out of the line for a lock; where it held the lock, the next in line
does. -/
def leave (h : Heap) (m : Lock) (thread : Nat) : Heap :=
  { h with locks := h.locks.insert m ((h.waiting m).filter (· ≠ thread)) }

/-- The heap with a thread out of the line for every lock. -/
def leaveAll (h : Heap) (thread : Nat) : Heap :=
  { h with locks := h.locks.map fun _ line ↦ line.filter (· ≠ thread) }

end Heap

end TwoTier
