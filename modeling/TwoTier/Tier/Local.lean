import TwoTier.Tier.Contract

/-!
The local tier as a tier: texts only, and nothing once it has been closed.

What is closed answers no operation. A fill that was in flight goes on, and stores its value as if
nothing had happened.
-/

set_option autoImplicit false
set_option relaxedAutoImplicit false

namespace TwoTier

/-- A local tier: where its table is, and the guard of its fills. -/
structure LocalHandle where
  /-- The number of its table. -/
  cache : Nat
  /-- The number of its guard. -/
  guard : Nat
  deriving DecidableEq, Repr

namespace LocalHandle

/-- Looks a key up. -/
def lookup (l : LocalHandle) (key : String) : Call (Option String) :=
  Call.onLocal l.cache fun now ↦ LocalCache.lookup now key

/-- Whether a key is held and observable. -/
def contains (l : LocalHandle) (key : String) : Call Bool :=
  Call.look fun h ↦ (h.tiers.localTier l.cache).contains h.now key

/-- Inserts or replaces a key. The answer is whether it was accepted. -/
def insert (l : LocalHandle) (key value : String) (ttl : Nat) : Call Bool := do
  match ← Call.onLocal l.cache fun now ↦ LocalCache.insert now key value ttl with
  | .added => return true
  | .updated => return true
  | .rejected => return false
  | .overflow => Call.crash

/-- Removes a key. The answer is whether it was resident. -/
def remove (l : LocalHandle) (key : String) : Call Bool :=
  Call.onLocal l.cache fun _ ↦ LocalCache.remove key

/-- Removes every expired entry. -/
def purgeExpired (l : LocalHandle) : Call Nat :=
  Call.onLocal l.cache fun now ↦ LocalCache.purgeExpired now

/-- Removes every entry. -/
def clear (l : LocalHandle) : Call Unit := Call.onLocal l.cache fun _ c ↦ ((), c.clear)

/-- Runs a call unless the tier has been closed. -/
def whenOpen {α : Type} (l : LocalHandle) (call : Call (Answer α)) : Call (Answer α) := do
  if ← Call.look fun h ↦ (h.tiers.localTier l.cache).closed then return .error .closed
  else call

/-- An operation that the local tier does not offer. -/
def unsupported {α : Type} (operation : String) : Call (Answer α) :=
  return .error (.unsupported operation "local")

/-- Reads the text of a key. -/
def get (l : LocalHandle) (key : String) : Call (Answer String) :=
  l.whenOpen do
    match ← l.lookup key with
    | some v => return .ok v
    | none => return .error .notFound

/-- Puts a text under a key; a newcomer may be refused without notice. -/
def set (l : LocalHandle) (key value : String) (ttl : Nat) : Call (Answer Unit) :=
  l.whenOpen do
    discard (l.insert key value ttl)
    return .ok ()

/-- What a fill of a key does: it fetches the value and stores it. -/
def fill (l : LocalHandle) (key : String) (ttl : Nat) (fetch : Fetch) : Call (Answer String) := do
  match ← Call.fetched fetch with
  | .ok v =>
    discard (l.insert key v ttl)
    return .ok v
  | .error f => return .error f

/-- Measures the tier. -/
def stats (l : LocalHandle) : Call Snapshot :=
  Call.look fun h ↦
    let c := h.tiers.localTier l.cache
    (h.guard l.guard).extend (((Snapshot.empty.extend c.counters).insert "items"
      (.count c.size)).insert "max_keys" (.count c.maxKeys))

/-- The operations of the local tier. -/
def tier (l : LocalHandle) : Tier where
  get := l.get
  contains key := l.whenOpen do return .ok (← l.contains key)
  set := l.set
  del key := l.whenOpen do
    discard (l.remove key)
    return .ok ()
  incr _ := unsupported "incr"
  rpush _ _ := unsupported "rpush"
  blpop _ _ := unsupported "blpop"
  ltrim _ _ _ := unsupported "ltrim"
  eval _ _ _ := unsupported "eval"
  sadd _ _ := unsupported "sadd"
  sismember _ _ := unsupported "sismember"
  getOrSet key ttl fetch := l.whenOpen do
    match ← l.lookup key with
    | some v => return .ok v
    | none => Call.fillOnce l.guard key (l.fill key ttl fetch)
  stats := l.stats
  close := Call.onLocal l.cache fun _ c ↦ (.ok (), c.close)

end LocalHandle

end TwoTier
