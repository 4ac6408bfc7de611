import TwoTier.Local.Table
import TwoTier.Settings.Basic
import TwoTier.Sketch
import TwoTier.Stats.Snapshot

/-!
The local tier: a bounded table of texts that expire.

Every key costs one against the budget. A newcomer to a full table first reclaims the expired keys
of a small random sample; where there are none, the policy names a victim among the sample, and the
newcomer takes its place unless more people asked for the victim. Expired entries are never
observable; they are removed when they are met.

Chance is a part of the cache: `rolls` are the numbers drawn, in order, and `drawn` says how many
have been used. What holds of a cache holds for every outcome of its draws.
-/

set_option autoImplicit false
set_option relaxedAutoImplicit false

namespace TwoTier

/-- What a running cache takes from chance: the hash of keys and the numbers drawn. -/
structure Chance where
  /-- The hash of a key. -/
  hash : String → UInt64
  /-- The numbers drawn, in order. -/
  rolls : Nat → Nat

/-- The local tier. -/
structure LocalCache where
  /-- The entries. -/
  table : Table
  /-- How often keys were asked for. -/
  sketch : Sketch
  /-- The greatest number of resident keys. -/
  maxKeys : Nat
  /-- Whom a full cache removes. -/
  policy : Policy
  /-- What has happened. -/
  counters : Counters
  /-- Whether the cache has been closed. -/
  closed : Bool
  /-- The numbers drawn, in order. -/
  rolls : Nat → Nat
  /-- How many numbers have been drawn. -/
  drawn : Nat

/-- How an insertion ends. -/
inductive Insertion where
  /-- The key has become resident. -/
  | added
  /-- The value of a resident key was replaced. -/
  | updated
  /-- The newcomer was not admitted. -/
  | rejected
  /-- The deadline lies beyond the clock. -/
  | overflow
  deriving DecidableEq, Repr

/-- What the popularity policy compares: how often a key was asked for, how often it was read since
it was stored, and when. -/
structure Rank where
  /-- How often the key was asked for. -/
  estimate : Nat
  /-- How often its entry was read. -/
  frequency : Nat
  /-- When its entry was last read or written. -/
  lastAccess : Nat
  deriving DecidableEq, Repr

/-- Whether a rank is less than another, component by component from the left. -/
def Rank.below (a b : Rank) : Bool :=
  a.estimate < b.estimate ||
    (a.estimate = b.estimate && (a.frequency < b.frequency ||
      (a.frequency = b.frequency && a.lastAccess < b.lastAccess)))

namespace LocalCache

/-- How many keys a sample holds, fewer only where fewer are resident. -/
def sampleSize : Nat := 5

/-- An empty cache. The counters of its sketch cannot exceed 64 bits. -/
def create (chance : Chance) (s : LocalSettings) : LocalCache :=
  let maxKeys := max s.maxKeys 1
  { table := .empty
    sketch := Sketch.create chance.hash
      (min (maxKeys * max s.countersPerKey 1) Text.Numeral.maxUInt64)
    maxKeys := maxKeys
    policy := s.policy
    counters := .zero
    closed := false
    rolls := chance.rolls
    drawn := 0 }

instance : Inhabited LocalCache := ⟨create ⟨fun _ ↦ 0, fun _ ↦ 0⟩ default⟩

/-- The cache with one more event counted. -/
def record (c : LocalCache) (e : Event) : LocalCache := { c with counters := c.counters.record e }

/-- The cache without a key. -/
def drop (c : LocalCache) (key : String) : LocalCache := { c with table := c.table.remove key }

/-- The number of resident keys, those included that have expired and were not yet removed. -/
def size (c : LocalCache) : Nat := c.table.size

/-- The cache after a key was asked for. -/
def note (c : LocalCache) (key : String) : LocalCache :=
  if c.policy.admits then { c with sketch := c.sketch.increment key } else c

/-- Looks a key up and counts a hit or a miss. An expired entry is removed. -/
def lookup (now : Nat) (key : String) (cache : LocalCache) : Option String × LocalCache :=
  let c := cache.note key
  match c.table.get? key with
  | none => (none, c.record .miss)
  | some e =>
    if e.live now then
      (some e.value, ({ c with table := c.table.replace key (e.touch now) }).record .hit)
    else (none, ((c.drop key).record .expired).record .miss)

/-- Whether a key is held and observable; nothing is counted. -/
def contains (now : Nat) (key : String) (c : LocalCache) : Bool :=
  match c.table.get? key with
  | none => false
  | some e => e.live now

/-- The keys at the positions drawn, which may repeat. -/
def sample (c : LocalCache) : List String :=
  (List.range (min sampleSize c.size)).filterMap fun i ↦
    c.table.keys[c.rolls (c.drawn + i) % c.size]?

/-- Removes those of the keys that have expired. -/
def reclaim (now : Nat) : List String → LocalCache → LocalCache
  | [], c => c
  | key :: rest, c =>
    match c.table.get? key with
    | none => reclaim now rest c
    | some e =>
      if e.live now then reclaim now rest c else reclaim now rest ((c.drop key).record .expired)

/-- What the popularity policy compares of a resident key. -/
def rank? (c : LocalCache) (key : String) : Option Rank :=
  (c.table.get? key).map fun e ↦ ⟨c.sketch.estimate key, e.frequency, e.lastAccess⟩

/-- The first key of least rank among the resident ones of a sample, `best` being the first of
least rank before them. -/
def coldest (c : LocalCache) : Option (Rank × String) → List String → Option String
  | best, [] => best.map Prod.snd
  | best, key :: rest =>
    match c.rank? key, best with
    | none, _ => coldest c best rest
    | some r, none => coldest c (some (r, key)) rest
    | some r, some (b, k) =>
      if r.below b then coldest c (some (r, key)) rest else coldest c (some (b, k)) rest

/-- The key of a sample that is to leave. -/
def victim (c : LocalCache) (keys : List String) : Option String :=
  match c.policy with
  | .random => keys.head?
  | .popularity => coldest c none keys

/-- Frees a place for a newcomer to a full cache. The answer is whether the newcomer is admitted. -/
def makeRoom (now : Nat) (newcomer : String) (cache : LocalCache) : Bool × LocalCache :=
  let keys := cache.sample
  let c := { cache with drawn := cache.drawn + keys.length }
  let reclaimed := reclaim now keys c
  if reclaimed.size < c.size then (true, reclaimed)
  else
    match c.victim keys with
    | none => (true, c)
    | some v =>
      if c.policy.admits && decide (c.sketch.estimate newcomer < c.sketch.estimate v) then
        (false, c)
      else (true, (c.drop v).record .evicted)

/-- The cache with a newcomer for which there is a place. -/
def place (now : Nat) (key value : String) (ttl : Nat) (c : LocalCache) : Insertion × LocalCache :=
  match Entry.create? now value ttl with
  | none => (.overflow, c)
  | some e => (.added, ({ c with table := c.table.push key e }).record .added)

/-- Inserts or replaces a key, which expires after `ttl`; the zero span keeps it for ever. A
resident key is always replaced, and keeps the number of its reads. -/
def insert (now : Nat) (key value : String) (ttl : Nat) (c : LocalCache) :
    Insertion × LocalCache :=
  match c.table.get? key with
  | some old =>
    match Entry.create? now value ttl with
    | none => (.overflow, c)
    | some e =>
      let kept := { e with frequency := old.frequency }
      (.updated, ({ c with table := c.table.replace key kept }).record .updated)
  | none =>
    if c.maxKeys ≤ c.size then
      match c.makeRoom now key with
      | (false, c) => (.rejected, c.record .rejected)
      | (true, c) => place now key value ttl c
    else place now key value ttl c

/-- Removes a key. The answer is whether it was resident. -/
def remove (key : String) (c : LocalCache) : Bool × LocalCache :=
  ((c.table.get? key).isSome, c.drop key)

/-- Removes every expired entry and answers how many there were. -/
def purgeExpired (now : Nat) (c : LocalCache) : Nat × LocalCache :=
  let keys := c.table.expiredKeys now
  (keys.length, keys.foldl (fun c key ↦ (c.drop key).record .expired) c)

/-- The cache without entries, and with the popularity of keys forgotten. -/
def clear (c : LocalCache) : LocalCache := { c with table := .empty, sketch := c.sketch.clear }

/-- The cache after it was closed. -/
def close (c : LocalCache) : LocalCache := { c.clear with closed := true }

end LocalCache

end TwoTier
