import TwoTier.Settings.Basic
import TwoTier.Settings.Reader

/-!
Settings as documents.

Every field has a default and may be left out; a field that nobody knows is passed over. The mode
is one of three names, a policy is any text.
-/

set_option autoImplicit false
set_option relaxedAutoImplicit false

namespace TwoTier

open Document

/-- A field that holds a natural number of 64 bits. -/
def wordField {σ : Type} (name : String) (put : Nat → σ → σ) : Reader.Field σ :=
  ⟨name, do return put (← Reader.natural 64 "u64")⟩

/-- A field that holds a size. -/
def sizeField {σ : Type} (name : String) (put : Nat → σ → σ) : Reader.Field σ :=
  ⟨name, do return put (← Reader.natural 64 "usize")⟩

/-- A field that holds a text. -/
def textField {σ : Type} (name : String) (put : String → σ → σ) : Reader.Field σ :=
  ⟨name, do return put (← Reader.text "a string")⟩

/-- The mode that is spelled exactly so. -/
def Mode.spelled (name : String) : Reader Mode :=
  if name = "local" then pure .localOnly
  else if name = "remote" then pure .remoteOnly
  else if name = "hybrid" then pure .hybrid
  else Reader.unexpected (.variant name)

/-- Reads the name of a mode. Any other value does not follow the notation. -/
def Mode.name : Reader Mode := do
  if (← Reader.peekValue) = '"' then
    Reader.advance
    Mode.spelled (← Reader.string)
  else Reader.malformed

/-- Reads a mode: its name, or an object that holds nothing under its name. Any other value does
not follow the notation. -/
def Mode.reader : Reader Mode := do
  if (← Reader.peekValue) = '\x7b' then
    Reader.advance
    let mode ← Mode.name
    Reader.colon
    Reader.unit
    Reader.skipSpace
    match ← Reader.next with
    | none => Reader.incomplete
    | some c => if c = '\x7d' then return mode else Reader.malformed
  else Mode.name

/-- Reads a policy: any text. -/
def Policy.reader : Reader Policy := do return Policy.ofName (← Reader.text "a string")

/-- Reads the settings of the local tier. -/
def LocalSettings.reader : Reader LocalSettings :=
  Reader.record "struct LocalCacheConfig"
    [wordField "max_keys" fun n s ↦ { s with maxKeys := n },
      ⟨"policy", do
        let p ← Policy.reader
        return fun s ↦ { s with policy := p }⟩,
      wordField "counters_per_key" fun n s ↦ { s with countersPerKey := n }]
    default

/-- Reads the settings of the hybrid tier. -/
def HybridSettings.reader : Reader HybridSettings :=
  Reader.record "struct HybridConfig"
    [wordField "l1_population_ttl_secs" fun n s ↦ { s with populationSecs := n },
      textField "invalidation_channel" fun t s ↦ { s with channel := t },
      wordField "listener_shutdown_timeout_ms" fun n s ↦ { s with shutdownMillis := n }]
    default

/-- Reads the options of the shared store. -/
def ServerOptions.reader : Reader ServerOptions :=
  Reader.record "struct RedisOptions"
    [textField "host" fun t s ↦ { s with host := t },
      ⟨"port", do
        let n ← Reader.natural 32 "u32"
        return fun s ↦ { s with portNumber := n }⟩,
      textField "password" fun t s ↦ { s with password := t },
      ⟨"db", do
        let n ← Reader.integer Text.Numeral.minInt64 Text.Numeral.maxInt64 "i64"
        return fun s ↦ { s with db := n }⟩,
      sizeField "pool_size" fun n s ↦ { s with poolSize := n },
      sizeField "min_idle_conns" fun n s ↦ { s with minIdle := n },
      wordField "dial_timeout_ms" fun n s ↦ { s with dialMillis := n },
      wordField "read_timeout_ms" fun n s ↦ { s with readMillis := n },
      wordField "write_timeout_ms" fun n s ↦ { s with writeMillis := n },
      ⟨"enable_tls", do
        let b ← Reader.truth
        return fun s ↦ { s with tls := b }⟩]
    default

/-- Reads the settings of a cache. -/
def Settings.reader : Reader Settings :=
  Reader.record "struct TierCacheConfig"
    [⟨"mode", do
        let m ← Mode.reader
        return fun s ↦ { s with mode := m }⟩,
      ⟨"local", do
        let l ← LocalSettings.reader
        return fun s ↦ { s with localTier := l }⟩,
      ⟨"hybrid", do
        let h ← HybridSettings.reader
        return fun s ↦ { s with hybridTier := h }⟩,
      ⟨"redis", do
        let o ← ServerOptions.reader
        return fun s ↦ { s with server := o }⟩]
    default

end TwoTier
