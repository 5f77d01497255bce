import RssOperator.Lib.GoMap
import RssOperator.Lib.Loop
import RssOperator.Lib.VersionStore
import RssOperator.Lib.Spending
import RssOperator.Lib.RunningBest
import RssOperator.Lib.Decimal
import RssOperator.Lib.Regex
import RssOperator.Lib.Pipe
import RssOperator.Lib.Search
import RssOperator.Lib.Sort
import RssOperator.Lib.Follows
import RssOperator.Lib.Stabilize
import RssOperator.Lib.Trail
import RssOperator.Api
import RssOperator.Member
import RssOperator.Exec
import RssOperator.Duration
import RssOperator.Capture
import RssOperator.Cluster
import RssOperator.Status
import RssOperator.Reconcile
import RssOperator.Replicate
import RssOperator.Run
import RssOperator.Update
import RssOperator.StatefulSet
import RssOperator.Polling
import RssOperator.Validate
import RssOperator.Controller
import RssOperator.System
import RssOperator.Watchdog
import RssOperator.Startup
import RssOperator.Versions
import RssOperator.Creation
import RssOperator.Proofs.Calls
import RssOperator.Proofs.Choose
import RssOperator.Proofs.Errors
import RssOperator.Proofs.Merge
import RssOperator.Proofs.Moves
import RssOperator.Proofs.Turns
import RssOperator.Proofs.Sound
import RssOperator.Proofs.Refinement
import RssOperator.Proofs.Seeding
import RssOperator.Proofs.Deletion
import RssOperator.Proofs.Secondaries
import RssOperator.Proofs.Demotion
import RssOperator.Proofs.StatusWrites
import RssOperator.Proofs.Execution
import RssOperator.Proofs.Iteration
import RssOperator.Proofs.Frames
import RssOperator.Proofs.Scaling
import RssOperator.Proofs.Checked
import RssOperator.Proofs.Sizing
import RssOperator.Proofs.Detection
import RssOperator.Proofs.Gating
import RssOperator.Proofs.Steering
import RssOperator.Proofs.Unsupported
import RssOperator.Proofs.Losing
import RssOperator.Proofs.Silent
import RssOperator.Proofs.Swallowed
import RssOperator.Proofs.Roles
import RssOperator.Proofs.Application
import RssOperator.Proofs.Listing
import RssOperator.Proofs.Conditions
import RssOperator.Proofs.Worlds
import RssOperator.Proofs.Phases
import RssOperator.Proofs.Pausing
import RssOperator.Proofs.Reads
import RssOperator.Proofs.Labels
import RssOperator.Proofs.Validate
import RssOperator.Proofs.Lifecycle
import RssOperator.Proofs.Metrics
import RssOperator.Proofs.Blocking
import RssOperator.Proofs.Bounded
import RssOperator.Proofs.Delivery
import RssOperator.Proofs.Edits
import RssOperator.Proofs.Versions
import RssOperator.Proofs.Creation
import RssOperator.Proofs.Launching
import RssOperator.Proofs.Membership
import RssOperator.Proofs.Selection
import RssOperator.Proofs.Attempts
import RssOperator.Proofs.Primaries
import RssOperator.Proofs.Obliging
import RssOperator.Proofs.Converging
import RssOperator.Proofs.Counting
import RssOperator.Proofs.Survivors
import RssOperator.Proofs.Arguments
import RssOperator.Proofs.Readings
import RssOperator.Proofs.Transitions
import RssOperator.Proofs.Numbers
import RssOperator.Proofs.Durations
import RssOperator.Proofs.Captured
import RssOperator.Proofs.ExitCodes
import RssOperator.Proofs.Template
import RssOperator.Proofs.RuleFile
import RssOperator.Logging
import RssOperator.Proofs.Logging
import RssOperator.Proofs.Watchdog
import RssOperator.Proofs.Startup
