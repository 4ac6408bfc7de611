import TwoTier.Settings.Show
import TwoTier.Tier.Hybrid
import TwoTier.Tier.Store

/-!
Caches, and how they are made.

A cache is described by the tiers that it is made of (`Cache`), and a description yields its
operations (`Cache.tier`). An assembled cache also knows the mode in which it was assembled
(`Assembled`): the local tier alone, another tier alone, or both. A hybrid cache listens for notices
before it is handed over; where it cannot, there is no cache.
-/

set_option autoImplicit false
set_option relaxedAutoImplicit false

namespace TwoTier

/-- A cache, by the tiers that it is made of. -/
inductive Cache where
  /-- The local tier. -/
  | localTier (l : LocalHandle)
  /-- A store of this process. -/
  | store (s : StoreHandle)
  /-- A store over the network. -/
  | server (s : ServerHandle)
  /-- A local tier in front of another cache. -/
  | hybrid (front : Front) (behind : Cache)
  deriving DecidableEq, Repr

/-- The operations of a cache. -/
def Cache.tier : Cache → Tier
  | localTier l => l.tier
  | store s => s.tier
  | server s => s.tier
  | hybrid front behind => (Hybrid.mk front behind.tier).tier

/-- A cache together with the mode in which it was assembled. -/
inductive Assembled where
  /-- The local tier alone. -/
  | localOnly (l : LocalHandle)
  /-- Another cache alone. -/
  | remoteOnly (c : Cache)
  /-- A local tier in front of another cache. -/
  | hybrid (front : Front) (behind : Cache)
  deriving DecidableEq, Repr

namespace Assembled

/-- The cache itself. -/
def cache : Assembled → Cache
  | localOnly l => .localTier l
  | remoteOnly c => c
  | hybrid front behind => .hybrid front behind

/-- The name of the mode of a cache. -/
def variant : Assembled → String
  | localOnly _ => "local"
  | remoteOnly _ => "remote"
  | hybrid _ _ => "hybrid"

/-- Whether a cache was assembled from two tiers. -/
def isHybrid : Assembled → Bool
  | hybrid _ _ => true
  | _ => false

/-- A cache as a diagnostic text. -/
def render (c : Assembled) : String := "TieredCache(" ++ Text.Quoted.quote c.variant ++ ")"

end Assembled

/-! ### Making tiers -/

/-- Makes an empty guard. -/
def Guard.create : Call Nat := Call.allocate fun _ t ↦ t

/-- Makes an empty local tier. -/
def LocalHandle.create (chance : Chance) (s : LocalSettings) : Call LocalHandle := do
  let cache ← Call.allocate fun i t ↦ t.setLocal i (.create chance s)
  return ⟨cache, ← Guard.create⟩

/-- Makes an empty store. -/
def StoreHandle.create : Call StoreHandle := do
  let store ← Call.allocate fun i t ↦ t.setStore i .empty
  return ⟨store, ← Guard.create⟩

/-- Makes the handle of a connected store. -/
def ServerHandle.create (x : Server) : Call ServerHandle := do
  let server ← Call.allocate fun i t ↦ t.setServer i x
  return ⟨server, ← Guard.create⟩

/-- Makes a front with a local tier. -/
def Front.create (near : LocalHandle) (s : HybridSettings) : Call Front := do
  let id ← Call.allocate fun _ t ↦ t
  return ⟨id, near, ← Guard.create, s⟩

namespace Assembled

/-- Assembles a cache over a shared one whose notices are published at `source`. -/
def assemble (chance : Chance) (s : Settings) (shared : Cache) (source : Source) :
    Call (Answer Assembled) := do
  match s.mode with
  | .localOnly => return .ok (localOnly (← LocalHandle.create chance s.localTier))
  | .remoteOnly => return .ok (remoteOnly shared)
  | .hybrid =>
    let front ← Front.create (← LocalHandle.create chance s.localTier) s.hybridTier
    match ← (Hybrid.mk front shared.tier).startInvalidator source with
    | .ok _ => return .ok (hybrid front shared)
    | .error f => return .error f

/-- Connects to the shared store, unless the mode does without one, and assembles a cache. -/
def build (chance : Chance) (network : Network) (s : Settings) : Call (Answer Assembled) := do
  match s.mode with
  | .localOnly => return .ok (localOnly (← LocalHandle.create chance s.localTier))
  | _ =>
    match Server.connect network s.server with
    | .ok x =>
      let server ← ServerHandle.create x
      assemble chance s (.server server) (.server server.server)
    | .error f => return .error f

end Assembled

end TwoTier
