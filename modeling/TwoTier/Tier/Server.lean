import TwoTier.Tier.Contract

/-!
A store that is reached over the network, as a tier.

Each operation is one command. The command reaches the peer some time after the call was made, and
its reply comes back some time after that; others may run in between. A reply of nothing is a miss,
and nothing else is (`ServerHandle.get`, `ServerHandle.blpop`): an error, a reply that does not read
as what the command promises, and a lost connection are failures of the store. A call that is not
answered within its deadline fails and is counted.
-/

set_option autoImplicit false
set_option relaxedAutoImplicit false

namespace TwoTier

namespace Clock

/-- The first span that is too long to be represented: its seconds are an unsigned 64-bit
number. -/
def spanLimit : Nat := secs 18446744073709551616

end Clock

namespace ServerOptions

/-- How long a read may take. -/
def readLimit (o : ServerOptions) : Nat := Clock.millis o.readMillis

/-- How long a write may take. -/
def writeLimit (o : ServerOptions) : Nat := Clock.millis o.writeMillis

/-- The connections opened before the first call. -/
def opened (o : ServerOptions) : Nat := max 1 (min o.minIdle o.poolSize)

end ServerOptions

namespace Reply

/-- How a reply is read that promises an `α`, where `read` is its reading. An error anywhere in it
comes first. -/
def answer {α : Type} (read : Reply → Option α) (r : Reply) : Answer α :=
  match r.error? with
  | some message => .error (.remote message)
  | none =>
    match read r with
    | some a => .ok a
    | none => .error (.remote "the reply is not of the expected type")

/-- The reading of a reply that may be nothing. -/
def orNothing {α : Type} (read : Reply → Option α) : Reply → Option (Option α)
  | nil => some none
  | r => (read r).map some

end Reply

/-- A connected store: where its connection is, and the guard of its fills. -/
structure ServerHandle where
  /-- The number of its connection. -/
  server : Nat
  /-- The number of its guard. -/
  guard : Nat
  deriving DecidableEq, Repr

namespace ServerHandle

/-- Lets the peer react in one step. -/
def exchange (s : ServerHandle) (send : Peer → Reaction × Peer) : Call Reaction :=
  Call.atomically fun h ↦
    let x := h.tiers.server s.server
    let r := send x.peer
    (r.1, h.tiers.setServer s.server { x with peer := r.2 })

/-- Counts an event. -/
def record (s : ServerHandle) (e : Event) : Call Unit :=
  Call.modify fun t ↦
    let x := t.server s.server
    t.setServer s.server { x with counters := x.counters.record e }

/-- How the connection was made. -/
def options (s : ServerHandle) : Call ServerOptions :=
  Call.look fun h ↦ (h.tiers.server s.server).options

/-- Whether the tier has been closed. -/
def isClosed (s : ServerHandle) : Call Bool :=
  Call.look fun h ↦ (h.tiers.server s.server).closed

/-- A call was not answered within its limit. -/
def expire {α : Type} (s : ServerHandle) (limit : Nat) : Call (Answer α) := do
  s.record .timeout
  return .error (.timeout limit)

/-- Sends commands and waits for the reply, at most for `limit`; the zero span is too short for any
reply. -/
def transmit (s : ServerHandle) (limit : Option Nat) (send : Peer → Reaction × Peer) :
    Call (Answer Reply) := do
  if ← s.isClosed then return .error .closed
  let deadline ← Call.look fun h ↦ limit.bind (Clock.deadline h.now)
  Call.pause (.done ())
  let reaction ← s.exchange send
  match limit, reaction with
  | some 0, _ => s.expire 0
  | _, .reply r =>
    Call.pause (.done ())
    return .ok r
  | _, .close => return .error (.remote "the connection was lost")
  | _, .hang =>
    Call.sleep deadline (.done ())
    s.expire (limit.getD 0)

/-- Sends a command and reads its reply. -/
def query {α : Type} (s : ServerHandle) (limit : Option Nat) (command : List String)
    (read : Reply → Option α) : Call (Answer α) := do
  match ← s.transmit limit (Peer.send command) with
  | .ok r => return r.answer read
  | .error f => return .error f

/-- Sends a command that changes nothing. -/
def ask {α : Type} (s : ServerHandle) (command : List String) (read : Reply → Option α) :
    Call (Answer α) := do
  s.query (some (← s.options).readLimit) command read

/-- Sends a command that may change something. -/
def tell {α : Type} (s : ServerHandle) (command : List String) (read : Reply → Option α) :
    Call (Answer α) := do
  s.query (some (← s.options).writeLimit) command read

/-- Any reply will do. -/
def anything (_ : Reply) : Option Unit := some ()

/-- Sends a command whose reply is a number that nobody asks for. -/
def count (s : ServerHandle) (command : List String) : Call (Answer Unit) :=
  s.tell command fun r ↦ r.int?.map fun _ ↦ ()

/-- Reads the text of a key and counts a hit or a miss. -/
def get (s : ServerHandle) (key : String) : Call (Answer String) := do
  match ← s.ask ["GET", key] (Reply.orNothing Reply.text?) with
  | .ok (some v) =>
    s.record .hit
    return .ok v
  | .ok none =>
    s.record .miss
    return .error .notFound
  | .error f => return .error f

/-- The whole milliseconds of a span as they are sent: at least one, and the low 64 bits of what is
longer. -/
def lifetime (ttl : Nat) : Nat := max 1 (Clock.wholeMillis ttl % 18446744073709551616)

/-- The command that puts a text under a key for a span; the zero span is not sent. -/
def setCommand (key value : String) (ttl : Nat) : List String :=
  ["SET", key, value] ++ if ttl = 0 then [] else ["PX", toString (lifetime ttl)]

/-- Puts a text under a key. -/
def set (s : ServerHandle) (key value : String) (ttl : Nat) : Call (Answer Unit) :=
  s.tell (setCommand key value ttl) anything

/-- The seconds in a span, as a number of 64 bits. -/
def seconds (span : Nat) : Float :=
  (span / 1000000000).toFloat + (span % 1000000000).toFloat / 1000000000

/-- Takes the head of the first non-empty list among some keys. The peer waits for one, so that the
answer may take longer by `timeout`; the zero span is no limit. -/
def blpop (s : ServerHandle) (timeout : Nat) (keys : List String) :
    Call (Answer (List String)) := do
  let limit := timeout + (← s.options).readLimit
  if timeout ≠ 0 ∧ Clock.spanLimit ≤ limit then Call.crash
  else
    let command := "BLPOP" :: keys ++ [Text.floatText Text.Decimal.compact (seconds timeout)]
    match ← s.query (if timeout = 0 then none else some limit) command
        (Reply.orNothing Reply.pair?) with
    | .ok (some (key, value)) => return .ok [key, value]
    | .ok none => return .error .notFound
    | .error f => return .error f

/-- What a fill of a key does: it fetches the value and stores it. A store that does not take the
value does not change the answer. -/
def fill (s : ServerHandle) (key : String) (ttl : Nat) (fetch : Fetch) : Call (Answer String) := do
  match ← Call.fetched fetch with
  | .ok v =>
    discard (s.set key v ttl)
    return .ok v
  | .error f => return .error f

/-- The number of keys that the peer holds, or `-1` where it does not tell. -/
def items (s : ServerHandle) : Call Int := do
  let limit := (← s.options).readLimit
  match ← s.transmit (some limit) fun p ↦ (p.items, p) with
  | .ok r =>
    match r.answer Reply.int? with
    | .ok n => return n
    | .error _ => return -1
  | .error _ => return -1

/-- Measures the pool and the accesses. -/
def measure (x : Server) : Snapshot :=
  let pool (n : Nat) : Stat := .count (if x.closed then 0 else n)
  Snapshot.ofList
    [("max_size", pool x.options.poolSize), ("size", pool x.connections),
      ("available", pool x.connections), ("waiting", .count 0), ("hits", .count x.counters.hits),
      ("misses", .count x.counters.misses), ("hit_ratio", .float x.counters.hitRate),
      ("timeouts", .count x.counters.timeouts)]

/-- Measures the tier. -/
def stats (s : ServerHandle) : Call Snapshot := do
  let measured ← Call.look fun h ↦ measure (h.tiers.server s.server)
  let n ← s.items
  Call.look fun h ↦ (h.guard s.guard).extend (measured.insert "items" (.int n))

/-- Closes the tier. -/
def close (s : ServerHandle) : Call (Answer Unit) :=
  Call.atomically fun h ↦
    (.ok (), h.tiers.setServer s.server { h.tiers.server s.server with closed := true })

/-- Publishes a payload on a channel. -/
def publish (s : ServerHandle) (channel payload : String) : Call (Answer Unit) :=
  s.count ["PUBLISH", channel, payload]

/-- Publishes payloads on a channel in one exchange. -/
def publishMany (s : ServerHandle) (channel : String) (payloads : List String) :
    Call (Answer Unit) := do
  if payloads.isEmpty then return .ok ()
  else
    let limit := (← s.options).writeLimit
    let commands := payloads.map fun p ↦ ["PUBLISH", channel, p]
    match ← s.transmit (some limit) (Peer.sendAll commands) with
    | .ok r => return r.answer anything
    | .error f => return .error f

/-- Subscribes to a channel over a connection of its own. The answer is the number of the
subscription. -/
def subscribe (s : ServerHandle) (channel : String) : Call (Answer Nat) := do
  if ← s.isClosed then return .error .closed
  Call.pause (.done ())
  Call.atomically fun h ↦
    let x := h.tiers.server s.server
    let r := x.peer.subscribe channel
    (.ok r.1, h.tiers.setServer s.server { x with peer := r.2 })

/-- The operations of the connected store. Nothing is sent where there is nothing to add. -/
def tier (s : ServerHandle) : Tier where
  get := s.get
  contains key := do
    match ← s.ask ["EXISTS", key] Reply.int? with
    | .ok n => return .ok (decide (0 < n))
    | .error f => return .error f
  set := s.set
  del key := s.count ["DEL", key]
  incr key := s.tell ["INCR", key] Reply.int?
  rpush key values :=
    if values.isEmpty then return .ok () else s.count ("RPUSH" :: key :: values)
  blpop := s.blpop
  ltrim key start stop :=
    s.tell ["LTRIM", key, Text.Numeral.decimal start, Text.Numeral.decimal stop] anything
  eval script keys args :=
    s.tell (["EVAL", script, toString keys.length] ++ keys ++ args) fun r ↦ some r.script
  sadd key members :=
    if members.isEmpty then return .ok () else s.count ("SADD" :: key :: members)
  sismember key member := s.ask ["SISMEMBER", key, member] Reply.truth?
  getOrSet key ttl fetch := do
    match ← s.get key with
    | .ok v => return .ok v
    | .error .notFound => Call.fillOnce s.guard key (s.fill key ttl fetch)
    | .error f => return .error f
  stats := s.stats
  close := s.close

end ServerHandle

/-! ### Connecting -/

/-- What answers at the address of a store; nothing may. -/
abbrev Network := ServerOptions → Option Peer

/-- A network in which nothing listens. -/
def Network.deserted : Network := fun _ ↦ none

/-- Connects to a store. Options with problems are not tried; all of their problems are named. -/
def Server.connect (network : Network) (o : ServerOptions) : Answer Server :=
  if o.problems.isEmpty then
    match network o with
    | some peer => .ok ⟨o, peer, .zero, o.opened, false⟩
    | none => .error (.remote "the store cannot be reached")
  else
    .error (.remote ("invalid redis options: " ++
      String.intercalate "; " (o.problems.map ServerOptions.Problem.message)))

end TwoTier
