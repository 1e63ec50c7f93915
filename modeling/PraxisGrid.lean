import PraxisGrid.Crdt.Replicas
import PraxisGrid.Crdt.SnapshotMerge
import PraxisGrid.Swim.Replay
import PraxisGrid.Swim.Capacity
import PraxisGrid.Swim.Backing
import PraxisGrid.Swim.Provenance
import PraxisGrid.Swim.Refusal
import PraxisGrid.Swim.Invalidation
import PraxisGrid.Swim.WireRoundTrip
import PraxisGrid.Operator.Revisions
import PraxisGrid.Signals.Delayed
import PraxisGrid.Signals.Lifetimes
import PraxisGrid.Gateway.StoredState
import PraxisGrid.Enrollment.Holder
import PraxisGrid.Operator.DiscoveredSites
import PraxisGrid.Operator.ProviderAdmission
import PraxisGrid.Enrollment.Tokens
import PraxisGrid.Enrollment.Anchor
import PraxisGrid.Gateway.Provider
import PraxisGrid.Operator.Listener
import PraxisGrid.Operator.Leader
import PraxisGrid.Operator.SignalAccess
import PraxisGrid.Enrollment.LostAnswer
import PraxisGrid.Operator.GatewayEvidence
import PraxisGrid.Overlay.Sidecar
import PraxisGrid.Gateway.DialHealth
