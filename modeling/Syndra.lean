import Syndra.Ledger.Expiry
import Syndra.Drift.ByHand
import Syndra.TrueNAS.Numbers
import Syndra.Operate.OneRequest
import Syndra.Claims.Current
import Syndra.Claims.Rotation
import Syndra.SignIn.Fresh
import Syndra.Claims.Answer
import Syndra.Bundles.OneLevel
import Syndra.MutationLog.Intact
import Syndra.MutationLog.Anchor
import Syndra.Rules.Requests
import Syndra.Bundles.Moves
import Syndra.Propagation.Countermand
import Syndra.Planner.BulkRoles
import Syndra.Planner.Directions
import Syndra.Insights.Preview
import Syndra.Ledger.Holding
import Syndra.Drain.Outcomes
import Syndra.Observe.Confirmed
import Syndra.Propagation.Budget
import Syndra.Roles.Writes
import Syndra.Operate.Superseded
import Syndra.Operate.RateLimit
import Syndra.Claims.Diff
import Syndra.Claims.Ends
import Syndra.Planner.Fingerprint
import Syndra.TrueNAS.Reach
import Syndra.Drift.Merge
import Syndra.Entitlement.Resolve
import Syndra.TrueNAS.Settled
import Syndra.Claims.QuietWindow
import Syndra.Claims.Recency
