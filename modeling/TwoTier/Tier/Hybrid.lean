import TwoTier.Listener
import TwoTier.Tier.Local

/-!
The local tier in front of another one.

Reads ask the local tier first and leave a copy of what the other tier answered; writes go to the
other tier first, whose failure is the failure of the write. What the local tier does not take or
cannot do is passed over. All other operations are those of the other tier.

A miss on both tiers is filled once for all callers (`Hybrid.fill`), also where the other tier
failed to answer: a store that is down does not keep a caller from its own fetch.
-/

set_option autoImplicit false
set_option relaxedAutoImplicit false

namespace TwoTier

/-- What a hybrid tier has in front of the other tier. -/
structure Front where
  /-- The number of its place for a listener. -/
  id : Nat
  /-- The local tier. -/
  near : LocalHandle
  /-- The number of the guard of its fills. -/
  guard : Nat
  /-- Its settings. -/
  settings : HybridSettings
  deriving DecidableEq, Repr

/-- A local tier in front of another one. -/
structure Hybrid extends Front where
  /-- The other tier. -/
  remote : Tier

namespace HybridSettings

/-- How long a copy stays in the local tier. -/
def population (s : HybridSettings) : Nat := Clock.secs s.populationSecs

/-- How long a stopping listener is waited for. -/
def patience (s : HybridSettings) : Nat := Clock.millis s.shutdownMillis

/-- How long the copy stays whose caller asked for `ttl`: the lesser of that and of the span of all
copies, where the zero span, which never ends, is the least. -/
def populationFor (s : HybridSettings) (ttl : Nat) : Nat :=
  if ttl = 0 then s.population else min ttl s.population

end HybridSettings

namespace Hybrid

/-- What the local tier holds under a key. -/
def localHit (c : Hybrid) (key : String) : Call (Option String) := do
  match ← c.near.get key with
  | .ok v => return some v
  | .error _ => return none

/-- Leaves a copy in the local tier. -/
def populate (c : Hybrid) (key value : String) (ttl : Nat) : Call Unit :=
  discard (c.near.set key value ttl)

/-- Reads the text of a key. -/
def get (c : Hybrid) (key : String) : Call (Answer String) := do
  match ← c.localHit key with
  | some v => return .ok v
  | none =>
    match ← c.remote.get key with
    | .ok v =>
      c.populate key v c.settings.population
      return .ok v
    | .error f => return .error f

/-- Whether a key holds a value on one of the tiers. -/
def contains (c : Hybrid) (key : String) : Call (Answer Bool) := do
  match ← c.near.tier.contains key with
  | .ok true => return .ok true
  | _ => c.remote.contains key

/-- Puts a text under a key on both tiers. -/
def set (c : Hybrid) (key value : String) (ttl : Nat) : Call (Answer Unit) := do
  match ← c.remote.set key value ttl with
  | .ok _ =>
    c.populate key value ttl
    return .ok ()
  | .error f => return .error f

/-- Removes a key from both tiers, and from the local one first. -/
def del (c : Hybrid) (key : String) : Call (Answer Unit) := do
  discard (c.near.tier.del key)
  c.remote.del key

/-- What a fill of a key does: unless the local tier has come to hold it, it fetches the value and
leaves it on both tiers. A tier that does not take the value does not change the answer. -/
def fill (c : Hybrid) (key : String) (ttl : Nat) (fetch : Fetch) : Call (Answer String) := do
  match ← c.near.lookup key with
  | some v => return .ok v
  | none =>
    match ← Call.fetched fetch with
    | .ok v =>
      discard (c.remote.set key v ttl)
      c.populate key v ttl
      return .ok v
    | .error f => return .error f

/-- Reads the text of a key, and fetches and stores it where neither tier answers. -/
def getOrSet (c : Hybrid) (key : String) (ttl : Nat) (fetch : Fetch) : Call (Answer String) := do
  match ← c.localHit key with
  | some v => return .ok v
  | none =>
    match ← c.remote.get key with
    | .ok v =>
      c.populate key v (c.settings.populationFor ttl)
      return .ok v
    | .error _ => Call.fillOnce c.guard key (c.fill key ttl fetch)

/-! ### The listener of a hybrid tier -/

/-- Runs a call while nobody else uses the listener of the tier. -/
def withListener {α : Type} (c : Hybrid) (call : Option Nat → Call α) : Call α := do
  Call.lock (.slot c.id)
  let listener ← Call.look fun h ↦ h.tiers.slots[c.id]?
  let a ← call listener
  Call.unlock (.slot c.id)
  return a

/-- The listener of the tier, which is made on its first use. -/
def ensureListener (c : Hybrid) (source : Source) : Option Nat → Call Nat
  | some l => return l
  | none => do
    let l ← Listener.create
      (.idle c.near.cache source c.settings.channel c.settings.patience)
    Call.modify fun t ↦ { t with slots := t.slots.insert c.id l }
    return l

/-- Starts to listen for notices. A tier that has a listener keeps it and its source. -/
def startInvalidator (c : Hybrid) (source : Source) : Call (Answer Unit) :=
  c.withListener fun listener ↦ do Listener.start (← c.ensureListener source listener)

/-- Stops to listen for notices. -/
def stopInvalidator (c : Hybrid) : Call Unit :=
  c.withListener fun
    | some l => Listener.stop l
    | none => return ()

/-- The stage of the listener; a tier without one has stopped. -/
def invalidatorState (c : Hybrid) : Call ListenerState :=
  c.withListener fun
    | some l => Call.look fun h ↦ (h.tiers.listener l).state
    | none => return .stopped

/-- Measures both tiers, the fills, and the listener where there is one. -/
def stats (c : Hybrid) : Call Snapshot := do
  let near ← c.near.stats
  let remote ← c.remote.stats
  let guard ← Call.look fun h ↦ h.guard c.guard
  let s := guard.extend
    (Snapshot.ofList [("local", .ofSnapshot near), ("remote", .ofSnapshot remote)])
  c.withListener fun
    | some l =>
      Call.look fun h ↦ s.insert "invalidation" (.ofSnapshot (h.tiers.listener l).stats)
    | none => return s

/-- Stops to listen and closes both tiers. -/
def close (c : Hybrid) : Call (Answer Unit) := do
  c.stopInvalidator
  discard c.near.tier.close
  c.remote.close

/-- The operations of the hybrid tier. -/
def tier (c : Hybrid) : Tier where
  get := c.get
  contains := c.contains
  set := c.set
  del := c.del
  incr := c.remote.incr
  rpush := c.remote.rpush
  blpop := c.remote.blpop
  ltrim := c.remote.ltrim
  eval := c.remote.eval
  sadd := c.remote.sadd
  sismember := c.remote.sismember
  getOrSet := c.getOrSet
  stats := c.stats
  close := c.close

end Hybrid

end TwoTier
