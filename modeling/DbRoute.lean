import DbRoute.Inspection
import DbRoute.Json
import DbRoute.Proofs.Embedding
import DbRoute.Proofs.Pool.LifeCycle
import DbRoute.Proofs.Precedence
import DbRoute.Proofs.Routing
import DbRoute.Proofs.Steering
import DbRoute.Proofs.Url.Layer
import DbRoute.Proofs.Url.RoundTrip
import DbRoute.Proofs.HostCount
import DbRoute.Proofs.HostList
import DbRoute.Proofs.Refusals
import DbRoute.Proofs.Roles
import DbRoute.Proofs.Branches
import DbRoute.Proofs.Connecting
import DbRoute.Proofs.Handover
import DbRoute.Proofs.Text.Tokens
import DbRoute.Proofs.Topology
import DbRoute.Proofs.Loader
import DbRoute.Proofs.Tracker.Accounting
import DbRoute.Proofs.Tracker.Reaping
import DbRoute.Proofs.Tracker.Reordering
import DbRoute.Proofs.Grouping
import DbRoute.Proofs.AnyScheme
import DbRoute.Proofs.Json
import DbRoute.Proofs.Prompts
import DbRoute.Proofs.SameBut
import DbRoute.Proofs.Masking
import DbRoute.Proofs.FlatFile
import DbRoute.Proofs.Text.FirstCut
import DbRoute.Proofs.Url.Scheme
import DbRoute.Proofs.Numbers
