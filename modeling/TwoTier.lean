import TwoTier.Local.Chance
import TwoTier.Proofs.Fetch.Collections
import TwoTier.Proofs.Fetch.Once
import TwoTier.Proofs.Fetch.Presence
import TwoTier.Proofs.Hybrid.CopySpan
import TwoTier.Proofs.Hybrid.Crossing
import TwoTier.Proofs.Hybrid.FailedSet
import TwoTier.Proofs.Hybrid.Honesty
import TwoTier.Proofs.Hybrid.Invalidation
import TwoTier.Proofs.Hybrid.Outage
import TwoTier.Proofs.Hybrid.Staleness
import TwoTier.Proofs.Listener.Account
import TwoTier.Proofs.Listener.Honesty
import TwoTier.Proofs.Local.Admission
import TwoTier.Proofs.Local.Balance
import TwoTier.Proofs.Local.Closed
import TwoTier.Proofs.Local.History
import TwoTier.Proofs.Server.Lifetime
import TwoTier.Proofs.Server.Outcomes
import TwoTier.Proofs.Settings.Confinement
import TwoTier.Proofs.Sketch.Decay
import TwoTier.Proofs.Store.Collections
import TwoTier.Proofs.Store.Counter
import TwoTier.Proofs.Store.Expiry
import TwoTier.Proofs.Store.Intact
import TwoTier.Proofs.Store.Trim
import TwoTier.Proofs.Store.Wakeup
import TwoTier.Scenario.Parts
import TwoTier.Scenario.Session
