import RouteLoom.Routing.Network
import RouteLoom.Routing.Announcements
import RouteLoom.Security.AcceptOnce
import RouteLoom.Security.IssueOnce
import RouteLoom.Security.SessionLookup
import RouteLoom.Security.SessionOnce
import RouteLoom.Wire.Relay
import RouteLoom.Storage.RevocationStore
import RouteLoom.Storage.ResumeCache
import RouteLoom.Storage.Removal
import RouteLoom.Storage.BootSession
import RouteLoom.Usb.Idempotency
import RouteLoom.Usb.Stream
import RouteLoom.Power.Retention
import RouteLoom.Object.EndToEnd
import RouteLoom.Authority.Recovery
import RouteLoom.Host.Admission
import RouteLoom.Security.RtcOnce
import RouteLoom.Object.Coverage
import RouteLoom.Security.GroupReplay
import RouteLoom.Routing.Advertising
import RouteLoom.Routing.Damping
import RouteLoom.Node.ReplyLeases
import RouteLoom.Security.SessionDeadlines
import RouteLoom.Config.RateLimiter
import RouteLoom.Routing.LinkCost
import RouteLoom.Routing.BroadcastUpdate
import RouteLoom.Discovery.ScopeDedup
