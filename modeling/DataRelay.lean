import DataRelay.Lib.Dict
import DataRelay.Lib.Trace
import DataRelay.Lib.Process
import DataRelay.Lib.Json
import DataRelay.Lib.JsonText
import DataRelay.Lib.JsonRoundTrip
import DataRelay.Lib.Sha256
import DataRelay.Lib.LexPath
import DataRelay.Lib.Substitute
import DataRelay.Python
import DataRelay.Url
import DataRelay.UrlParts
import DataRelay.OAuth.Records
import DataRelay.OAuth.SlidingWindow
import DataRelay.OAuth.WindowLog
import DataRelay.OAuth.Store
import DataRelay.OAuth.Payload
import DataRelay.OAuth.Service
import DataRelay.OAuth.Authorize
import DataRelay.OAuth.Token
import DataRelay.OAuth.System
import DataRelay.OAuth.PayloadRoundTrip
import DataRelay.OAuth.StateFile
import DataRelay.OAuth.Steps
import DataRelay.OAuth.Frame
import DataRelay.OAuth.Invariants
import DataRelay.OAuth.Provenance
import DataRelay.OAuth.Revocation
import DataRelay.OAuth.SingleUse
import DataRelay.OAuth.Approval
import DataRelay.OAuth.Cleanup
import DataRelay.OAuth.Registration
import DataRelay.OAuth.Metadata
import DataRelay.OAuth.Integrity
import DataRelay.OAuth.Rotation
import DataRelay.OAuth.Purge
import DataRelay.OAuth.Unseen
import DataRelay.OAuth.Pending
import DataRelay.OAuth.BruteForce
import DataRelay.Relay.IpAddress
import DataRelay.Relay.Config
import DataRelay.Relay.Proxy
import DataRelay.Relay.Egress
import DataRelay.Relay.Exposure
import DataRelay.Relay.Server
import DataRelay.Relay.PassThrough
import DataRelay.Relay.Advertised
import DataRelay.Relay.HttpClient
import DataRelay.Relay.FailClosed
import DataRelay.Relay.Framing
import DataRelay.Relay.Audit
import DataRelay.Relay.BearerPass
import DataRelay.Relay.TokenPass
import DataRelay.Relay.Redaction
import DataRelay.Tools.Values
import DataRelay.Tools.Paths
import DataRelay.Tools.Datetime
import DataRelay.Tools.Facts
import DataRelay.Tools.Coordinator
import DataRelay.Tools.Watch
import DataRelay.Tools.WatchState
import DataRelay.Tools.Gates
import DataRelay.Tools.MissingFacts
import DataRelay.Tools.WatchProgress
import DataRelay.Tools.WatchPermits
import DataRelay.Tools.Dispatch
import DataRelay.Tools.DispatchOwner
import DataRelay.Tools.Host
import DataRelay.Tools.HostRun
import DataRelay.Tools.HostJournal
import DataRelay.Tools.HostSafety
import DataRelay.Tools.HostReceipt
import DataRelay.Tools.Admission
import DataRelay.Tools.CanonicalPaths
import DataRelay.Tools.Independence
import DataRelay.Tools.PacketText
import DataRelay.Tools.Collect
import DataRelay.Tools.PacketReaders
import DataRelay.Tools.ContextEpoch
import DataRelay.Tools.PacketIdentity
import DataRelay.OAuth.Durability
import DataRelay.OAuth.Redemption
import DataRelay.Lib.JsonWellFormed
import DataRelay.Tools.Skills
import DataRelay.Tools.SkillsMerge
import DataRelay.Tools.SkillsSafety
import DataRelay.Tools.SkillsPolicy
import DataRelay.Tools.DispatchOnce
import DataRelay.Tools.Adapter
import DataRelay.Tools.AdapterSafety
