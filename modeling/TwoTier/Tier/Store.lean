import TwoTier.Tier.Contract

/-!
The shared store of a process as a tier.

Its data outlive any of its handles, so that closing one does nothing.
-/

set_option autoImplicit false
set_option relaxedAutoImplicit false

namespace TwoTier

/-- A shared store: where its data are, and the guard of its fills. -/
structure StoreHandle where
  /-- The number of its data. -/
  store : Nat
  /-- The number of its guard. -/
  guard : Nat
  deriving DecidableEq, Repr

namespace StoreHandle

/-- Reads the text of a key. -/
def get (s : StoreHandle) (key : String) : Call (Answer String) :=
  Call.onStore s.store fun now ↦ Store.get now key

/-- Puts a text under a key. -/
def set (s : StoreHandle) (key value : String) (ttl : Nat) : Call (Answer Unit) :=
  Call.onStore s.store fun now ↦ Store.set now key value ttl

/-- Takes the head of the first non-empty list among some keys, and waits for one until `timeout`
has passed; the zero span is no limit. -/
def blpop (s : StoreHandle) (timeout : Nat) (keys : List String) :
    Call (Answer (List String)) :=
  .read fun h ↦
    if (h.tiers.store s.store).offline then .done (.error .refused)
    else
      let deadline := if timeout = 0 then none else Clock.deadline h.now timeout
      .pop s.store keys deadline none fun
        | .ok (some (key, value)) => .done (.ok [key, value])
        | .ok none => .done (.error .notFound)
        | .error f => .done (.error f)

/-- What a fill of a key does: it fetches the value and stores it. A store that does not take the
value does not change the answer. -/
def fill (s : StoreHandle) (key : String) (ttl : Nat) (fetch : Fetch) : Call (Answer String) := do
  match ← Call.fetched fetch with
  | .ok v =>
    discard (s.set key v ttl)
    return .ok v
  | .error f => return .error f

/-- Measures the tier. -/
def stats (s : StoreHandle) : Call Snapshot :=
  Call.look fun h ↦
    let x := h.tiers.store s.store
    (h.guard s.guard).extend (Snapshot.ofList
      [("hits", .count x.hits), ("misses", .count x.misses), ("items", .count (x.size h.now)),
        ("published", .count x.published)])

/-- The operations of the store. -/
def tier (s : StoreHandle) : Tier where
  get := s.get
  contains key := Call.onStore s.store fun now ↦ Store.contains now key
  set := s.set
  del key := Call.onStore s.store fun _ ↦ Store.del key
  incr key := Call.onStore s.store fun now ↦ Store.incr now key
  rpush key values := Call.onStore s.store fun now ↦ Store.rpush now key values
  blpop := s.blpop
  ltrim key start stop := Call.onStore s.store fun now ↦ Store.ltrim now key start stop
  eval _ _ _ := Call.onStore s.store fun _ ↦ Store.eval
  sadd key members := Call.onStore s.store fun now ↦ Store.sadd now key members
  sismember key member := Call.onStore s.store fun now ↦ Store.sismember now key member
  getOrSet key ttl fetch := do
    match ← s.get key with
    | .ok v => return .ok v
    | .error .notFound => Call.fillOnce s.guard key (s.fill key ttl fetch)
    | .error f => return .error f
  stats := s.stats
  close := return .ok ()

end StoreHandle

end TwoTier
