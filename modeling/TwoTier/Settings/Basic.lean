/-!
The settings of each tier, with their defaults.

Settings are plain records. Counts are natural numbers; `Settings/Document` admits those that fit
the width given here in the comments. Spans are kept in the unit in which they are configured.
-/

set_option autoImplicit false
set_option relaxedAutoImplicit false

namespace TwoTier

/-- Which tiers a cache is assembled from. -/
inductive Mode where
  /-- The local tier alone. -/
  | localOnly
  /-- The shared store alone. -/
  | remoteOnly
  /-- The local tier in front of the shared store. -/
  | hybrid
  deriving DecidableEq, Repr, Inhabited

/-- How a full local tier chooses whom to remove, and whom to admit. -/
inductive Policy where
  /-- The least popular key of a sample leaves, and only for a newcomer that is no less popular. -/
  | popularity
  /-- A random key leaves for any newcomer. -/
  | random
  deriving DecidableEq, Repr, Inhabited

/-- A text with its ASCII capitals made small. The names compared with such a text are of ASCII
letters to which no other character is made small. -/
def lowered (s : String) : String := String.ofList (s.toList.map Char.toLower)

namespace Mode

/-- The mode that a name stands for, in any case; an unknown name stands for `hybrid`. -/
def ofName (s : String) : Mode :=
  let name := lowered s
  if name = "local" then localOnly else if name = "remote" then remoteOnly else hybrid

/-- The name under which a mode is shown. -/
def title : Mode → String
  | localOnly => "Local"
  | remoteOnly => "Remote"
  | hybrid => "Hybrid"

end Mode

namespace Policy

/-- The policy that a name stands for, in any case; an unknown name stands for `popularity`. -/
def ofName (s : String) : Policy := if lowered s = "random" then random else popularity

/-- Whether a newcomer may be refused. -/
def admits : Policy → Bool
  | popularity => true
  | random => false

/-- The name under which a policy is shown. -/
def title : Policy → String
  | popularity => "TinyLFU"
  | random => "Random"

end Policy

/-- The settings of the local tier. -/
structure LocalSettings where
  /-- The greatest number of resident keys, of 64 bits; zero counts as one. -/
  maxKeys : Nat
  /-- Whom a full tier removes. -/
  policy : Policy
  /-- Popularity counters for each admitted key, of 64 bits; zero counts as one. -/
  countersPerKey : Nat
  deriving DecidableEq, Repr

/-- The settings of the hybrid tier. -/
structure HybridSettings where
  /-- For how many seconds, of 64 bits, a copy read from the shared store stays in the local
  tier. -/
  populationSecs : Nat
  /-- The channel on which invalidation notices are published. -/
  channel : String
  /-- For how many milliseconds, of 64 bits, a stopping listener is waited for. -/
  shutdownMillis : Nat
  deriving DecidableEq, Repr

/-- The settings of the connection to a store that is reached over the network. -/
structure ServerOptions where
  /-- The name or address of the host. -/
  host : String
  /-- The number under which the host listens, of 32 bits. -/
  portNumber : Nat
  /-- The password; the empty one is none. -/
  password : String
  /-- The number of the database, signed and of 64 bits. -/
  db : Int
  /-- The greatest number of pooled connections, of 64 bits. -/
  poolSize : Nat
  /-- The connections opened before the first call, of 64 bits. -/
  minIdle : Nat
  /-- The milliseconds, of 64 bits, that opening a connection may take. -/
  dialMillis : Nat
  /-- The milliseconds, of 64 bits, that a read may take. -/
  readMillis : Nat
  /-- The milliseconds, of 64 bits, that a write may take. -/
  writeMillis : Nat
  /-- Whether the connection is encrypted. -/
  tls : Bool
  deriving DecidableEq, Repr

/-- Everything needed to assemble a cache. -/
structure Settings where
  /-- Which tiers are assembled. -/
  mode : Mode
  /-- The settings of the local tier. -/
  localTier : LocalSettings
  /-- The settings of the hybrid tier. -/
  hybridTier : HybridSettings
  /-- The settings of the connection to the shared store. -/
  server : ServerOptions
  deriving DecidableEq, Repr

/-- The channel for invalidation notices where none is configured. -/
def defaultChannel : String := "cache:l1:invalidate"

instance : Inhabited LocalSettings := ⟨⟨10000, .popularity, 10⟩⟩

instance : Inhabited HybridSettings := ⟨⟨300, defaultChannel, 5000⟩⟩

instance : Inhabited ServerOptions :=
  ⟨⟨"127.0.0.1", 6379, "", 0, 100, 10, 5000, 3000, 3000, false⟩⟩

instance : Inhabited Settings := ⟨⟨.hybrid, default, default, default⟩⟩

end TwoTier
