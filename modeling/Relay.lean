import Relay.Message.DirectoryRecord
import Relay.Crypto.Argon2
import Relay.Identity
import Relay.Session.Stream
import Relay.Session.Token
import Relay.Store.Basic
import Relay.Registry
import Relay.Outbox
import Relay.Routing.Route
import Relay.Wire.Exchange
import Relay.Startup
import Relay.Metrics.Endpoint
import Relay.Main
import Relay.Proofs.Traffic.Authorization
import Relay.Proofs.Traffic.Provenance
import Relay.Proofs.Traffic.Custody
import Relay.Proofs.Session.Stream
import Relay.Proofs.Traffic.Outcome
import Relay.Proofs.Server.Custody
import Relay.Proofs.Wire.Delivery
import Relay.Proofs.Session.Handshake
import Relay.Proofs.Traffic.Registration
import Relay.Proofs.Traffic.Credentials
import Relay.Proofs.Traffic.Purge
import Relay.Proofs.Traffic.Privacy
import Relay.Proofs.Traffic.Privileges
import Relay.Proofs.Traffic.Replay
import Relay.Proofs.Server.Sendable
import Relay.Proofs.Server.Welcome
import Relay.Proofs.Server.Stopping
import Relay.Proofs.Traffic.Listing
import Relay.Proofs.Traffic.Fetch
import Relay.Proofs.Traffic.Handover
import Relay.Proofs.Traffic.Announcement
import Relay.Proofs.Wire.Grammar
import Relay.Proofs.Traffic.Retrieval
import Relay.Proofs.Server.Pipeline
import Relay.Proofs.Session.Canonical
import Relay.Proofs.Traffic.Balance
import Relay.Proofs.Link.Deadlines
import Relay.Proofs.Server.Scene
import Relay.Proofs.IdPool.Reference
