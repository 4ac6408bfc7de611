import TwoTier.Settings.Address
import TwoTier.Text.Quoted

/-!
Settings as diagnostics show them: the name of the record, then each field and its value. The
password never appears, only whether there is one.
-/

set_option autoImplicit false
set_option relaxedAutoImplicit false

namespace TwoTier

/-- A record as a diagnostic text. -/
def showRecord (name : String) (fields : List (String × String)) : String :=
  name ++ " \x7b " ++ String.intercalate ", " (fields.map fun f ↦ f.1 ++ ": " ++ f.2) ++ " \x7d"

/-- The local settings as a diagnostic text. -/
def LocalSettings.render (s : LocalSettings) : String :=
  showRecord "LocalCacheConfig"
    [("max_keys", toString s.maxKeys), ("policy", s.policy.title),
      ("counters_per_key", toString s.countersPerKey)]

/-- The hybrid settings as a diagnostic text. -/
def HybridSettings.render (s : HybridSettings) : String :=
  showRecord "HybridConfig"
    [("l1_population_ttl_secs", toString s.populationSecs),
      ("invalidation_channel", Text.Quoted.quote s.channel),
      ("listener_shutdown_timeout_ms", toString s.shutdownMillis)]

/-- The options of the shared store as a diagnostic text, the password masked. -/
def ServerOptions.render (o : ServerOptions) : String :=
  showRecord "RedisOptions"
    [("host", Text.Quoted.quote o.host), ("port", toString o.portNumber),
      ("password", Text.Quoted.quote o.shownPassword), ("db", Text.Numeral.decimal o.db),
      ("pool_size", toString o.poolSize), ("min_idle_conns", toString o.minIdle),
      ("dial_timeout_ms", toString o.dialMillis), ("read_timeout_ms", toString o.readMillis),
      ("write_timeout_ms", toString o.writeMillis),
      ("enable_tls", if o.tls then "true" else "false")]

/-- The settings of a cache as a diagnostic text. -/
def Settings.render (s : Settings) : String :=
  showRecord "TierCacheConfig"
    [("mode", s.mode.title), ("local", s.localTier.render), ("hybrid", s.hybridTier.render),
      ("redis", s.server.render)]

end TwoTier
