import McRouter.Common.NetText
import McRouter.Common.Runes
import McRouter.Errors
import McRouter.HostAddr
import McRouter.Common.Reader
import McRouter.Proto.VarInt
import McRouter.Proto.Handshake
import McRouter.Proto.Packet
import McRouter.Common.GoMap
import McRouter.Access.ProxyProtocol
import McRouter.Access.ClientPolicy
import McRouter.Access.RateLimit
import McRouter.Config.Types
import McRouter.Config.Validate
import McRouter.Common.Sort
import McRouter.Kubernetes.Annotations
import McRouter.Discovery.Merge
import McRouter.Config.RoutesValid
import McRouter.Proxy.Snapshot
import McRouter.Discovery.MergeValid
import McRouter.Proxy.Routing
import McRouter.Proxy.Server
import McRouter.Proxy.Coherence
import McRouter.Proxy.Gauges
import McRouter.Proxy.Conn
import McRouter.Proxy.Forwarding
import McRouter.Kubernetes.Controller
import McRouter.Kubernetes.Watch
import McRouter.Kubernetes.Supervisor
import McRouter.Kubernetes.Retry
import McRouter.Common.System
import McRouter.Gateway.Discovery
import McRouter.Common.UDPAddr
import McRouter.Voice.Packet
import McRouter.Voice.Runtime
import McRouter.Voice.Sequential
import McRouter.Voice.Machine
import McRouter.Voice.Effect
import McRouter.Voice.Routing
import McRouter.Voice.Lease
import McRouter.Voice.Reassign
import McRouter.Voice.Serial
import McRouter.Access.Identity
import McRouter.Discovery.Provenance
import McRouter.Proxy.Admission
import McRouter.UDPRelay.Relay
import McRouter.UDPRelay.Sessions
import McRouter.Voice.Expiry
import McRouter.Common.Grants
import McRouter.Companion.Client
import McRouter.Companion.Manager
import McRouter.Companion.Agreement
import McRouter.Availability.Hub
import McRouter.Availability.Monitor
import McRouter.Common.Publication
import McRouter.Gateway.Reload
import McRouter.Gateway.ConfigWatch
import McRouter.Common.Arithmetic
import McRouter.Common.TokenBucket
import McRouter.Limits.Buckets
import McRouter.Limits.Lifetime
import McRouter.Limits.Memory
import McRouter.Limits.Forgetting
import McRouter.Limits.Updates
import McRouter.Proxy.Deadlines
import McRouter.Access.Entries
import McRouter.Voice.Tokens
import McRouter.Availability.Probe
import McRouter.Voice.Housekeeping
import McRouter.Voice.Bounds
import McRouter.UDPRelay.Accounting
import McRouter.Discovery.Conservation
import McRouter.Discovery.ServicePartition
import McRouter.Common.Format
import McRouter.Proto.Formats
import McRouter.Access.ProxyHeader
import McRouter.Voice.Envelope
import McRouter.Canonical
import McRouter.HostSyntax
import McRouter.VarInts
import McRouter.Bedrock.Hosts
import McRouter.Bedrock.Router
import McRouter.Bedrock.Proxy
import McRouter.Bedrock.Sessions
import McRouter.Proxy.Copying
import McRouter.Gateway.Lifecycle
import McRouter.Gateway.Teardown
import McRouter.Proxy.Connections
import McRouter.Availability.Notification
