import TunnelKeeper.Check.Scene
import TunnelKeeper.Main
import TunnelKeeper.Net.DirectInterface
import TunnelKeeper.Proofs.Service.Sections
import TunnelKeeper.Proxy.Trial
import TunnelKeeper.Route.Watcher
import TunnelKeeper.Proofs.Service.Lawful
import TunnelKeeper.Proofs.Service.Tracks
import TunnelKeeper.Proofs.Service.Kept
import TunnelKeeper.Proofs.Service.Performs
import TunnelKeeper.Proofs.Service.Announcements
import TunnelKeeper.Proofs.Service.Resources
import TunnelKeeper.Proofs.Service.Addresses
import TunnelKeeper.Proofs.Service.Remembrance
import TunnelKeeper.Proofs.Service.Anonymous
import TunnelKeeper.Proofs.Workers.Permits
import TunnelKeeper.Proofs.Service.Ledger
import TunnelKeeper.Proofs.Service.Attended
import TunnelKeeper.Proofs.Service.Serialised
import TunnelKeeper.Proofs.Service.Progress
import TunnelKeeper.Proofs.Service.Standing
import TunnelKeeper.Proofs.Service.Questions
import TunnelKeeper.Proofs.Service.Reactions
import TunnelKeeper.Proofs.Service.Isolation
import TunnelKeeper.Proofs.Service.Modes
import TunnelKeeper.Proofs.Service.Flags
import TunnelKeeper.Proofs.Service.Undisturbed
import TunnelKeeper.Proofs.Service.Givens
import TunnelKeeper.Proofs.Service.Following
import TunnelKeeper.Proofs.Service.Replies
import TunnelKeeper.Proofs.Service.Recovery
import TunnelKeeper.Proofs.Service.Registrations
import TunnelKeeper.Proofs.Service.Moves
import TunnelKeeper.Proofs.Service.Callers
import TunnelKeeper.Proofs.Service.Lull
import TunnelKeeper.Proofs.Service.Adapting
import TunnelKeeper.Proofs.Service.Vigil
import TunnelKeeper.Proofs.Service.Restarts
import TunnelKeeper.Proofs.Service.Readers
import TunnelKeeper.Proofs.Service.Convergence
import TunnelKeeper.Proofs.Workers.Conservation
import TunnelKeeper.Proofs.Service.Queueing
import TunnelKeeper.Proofs.Service.Publishing
import TunnelKeeper.Proofs.Service.Handover
import TunnelKeeper.Proofs.Files.Replacing
import TunnelKeeper.Proofs.Store.Atomic
import TunnelKeeper.Proofs.Json.Reading
import TunnelKeeper.Proofs.Text.Numerals
import TunnelKeeper.Proofs.Text.Utf8
import TunnelKeeper.Proofs.Json.Spelling
import TunnelKeeper.Proofs.Json.Denoting
import TunnelKeeper.Proofs.Store.Reopening
import TunnelKeeper.Proofs.Workers.Fates
import TunnelKeeper.Proofs.Service.Tidying
import TunnelKeeper.Proofs.Control.Framing
import TunnelKeeper.Proofs.Control.Ordering
import TunnelKeeper.Proofs.Proxy.Ownership
import TunnelKeeper.Proofs.Route.Mapping
import TunnelKeeper.Proofs.Route.Delivery
import TunnelKeeper.Proofs.Service.Indicator
import TunnelKeeper.Proofs.Service.Swapping
import TunnelKeeper.Proofs.Service.Passages
import TunnelKeeper.Proofs.Service.Deadlines
import TunnelKeeper.Proofs.Check.Streams
import TunnelKeeper.Proofs.Socks.Octets
import TunnelKeeper.Proofs.Socks.Replies
import TunnelKeeper.Proofs.Proxy.Filling
import TunnelKeeper.Proofs.Service.Courses
import TunnelKeeper.Proofs.Service.Timing
import TunnelKeeper.Proofs.Service.Contention
import TunnelKeeper.Proofs.Socks.Datagrams
import TunnelKeeper.Proofs.Check.Relaying
import TunnelKeeper.Proofs.Proxy.Readiness
import TunnelKeeper.Proofs.Store.Documents
import TunnelKeeper.Proofs.Store.Opening
import TunnelKeeper.Proofs.Tunnel.Ports
import TunnelKeeper.Proofs.Settings.Rewriting
import TunnelKeeper.Proofs.Settings.Omissions
import TunnelKeeper.Proofs.Daemon.Assembling
