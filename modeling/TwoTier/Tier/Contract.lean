import TwoTier.Engine.Call

/-!
The operations that every tier answers.

A tier is given by its operations alone, so that a tier can be built over another one without
knowing what that is. An operation that a tier does not offer fails.
-/

set_option autoImplicit false
set_option relaxedAutoImplicit false

namespace TwoTier

/-- What a caller does to compute a value that no tier holds. -/
abbrev Fetch := Call (Except String String)

/-- The operations of a tier. -/
structure Tier where
  /-- Reads the text of a key. -/
  get : String → Call (Answer String)
  /-- Whether a key holds a value. -/
  contains : String → Call (Answer Bool)
  /-- Puts a text under a key, to expire after a span; the zero span keeps it for ever. -/
  set : String → String → Nat → Call (Answer Unit)
  /-- Removes a key. -/
  del : String → Call (Answer Unit)
  /-- Counts the number of a key up by one. -/
  incr : String → Call (Answer Int)
  /-- Appends values to the list of a key. -/
  rpush : String → List String → Call (Answer Unit)
  /-- Takes the head of the first non-empty list among some keys, and waits for one. -/
  blpop : Nat → List String → Call (Answer (List String))
  /-- Keeps the elements of a list between two inclusive bounds. -/
  ltrim : String → Int → Int → Call (Answer Unit)
  /-- Runs a script on keys and arguments. -/
  eval : String → List String → List String → Call (Answer ScriptValue)
  /-- Adds members to the set of a key. -/
  sadd : String → List String → Call (Answer Unit)
  /-- Whether a text is a member of the set of a key. -/
  sismember : String → String → Call (Answer Bool)
  /-- Reads the text of a key, and fetches and stores it where the key holds none. -/
  getOrSet : String → Nat → Fetch → Call (Answer String)
  /-- Measures the tier. -/
  stats : Call Snapshot
  /-- Closes the tier. -/
  close : Call (Answer Unit)

namespace Tier

/-- Reads the text of a key; a miss is no failure. -/
def getOpt (t : Tier) (key : String) : Call (Answer (Option String)) := do
  match ← t.get key with
  | .ok v => return .ok (some v)
  | .error .notFound => return .ok none
  | .error f => return .error f

end Tier

namespace Call

variable {α : Type}

/-- Runs an operation of a local tier in one step. -/
def onLocal (l : Nat) (op : Nat → LocalCache → α × LocalCache) : Call α :=
  atomically fun h ↦
    let r := op h.now (h.tiers.localTier l)
    (r.1, h.tiers.setLocal l r.2)

/-- Runs an operation of a store in one step. The call cannot go on where the operation has no
outcome. -/
def onStore (s : Nat) (op : Nat → Store → Outcome α × Store) : Call (Answer α) :=
  read fun h ↦
    let r := op h.now (h.tiers.store s)
    write (h.tiers.setStore s r.2) <|
      match r.1 with
      | .ok a => done (.ok a)
      | .fault f => done (.error f)
      | .overflow => crash

/-- Waits for the outcome of the fill of a key, which is `fill` where none is in flight. -/
def fillOnce (g : Nat) (key : String) (fill : Call (Answer String)) : Call (Answer String) :=
  join g key fill done

/-- The value that a fetch yields, as a fill answers it. -/
def fetched (fetch : Fetch) : Call (Answer String) := do
  match ← fetch with
  | .ok v => return .ok v
  | .error source => return .error (.fetchFailed source)

/-- Takes a lock. -/
def lock (m : Lock) : Call Unit := acquire m (done ())

/-- Gives a lock back. -/
def unlock (m : Lock) : Call Unit := release m (done ())

end Call

/-- The measurements of a guard. -/
def Guard.extend (g : Guard) (s : Snapshot) : Snapshot :=
  (s.insert "in_flight" (.count g.inFlight.size)).insert "coalesced" (.count g.coalesced)

end TwoTier
