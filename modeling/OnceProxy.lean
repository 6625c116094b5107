import OnceProxy.Auth
import OnceProxy.Cbor.Header
import OnceProxy.Cbor.Read
import OnceProxy.Cbor.Value
import OnceProxy.Config.Document
import OnceProxy.Config.Load
import OnceProxy.Config.Schema
import OnceProxy.Config.Tree
import OnceProxy.Config.Validation
import OnceProxy.Config.Watch
import OnceProxy.Crypto.Address
import OnceProxy.Crypto.Digest
import OnceProxy.Crypto.Keccak
import OnceProxy.Crypto.Secp256k1
import OnceProxy.Crypto.Sha256
import OnceProxy.Entry
import OnceProxy.Entry.Codec
import OnceProxy.Error
import OnceProxy.Fingerprint
import OnceProxy.Flight
import OnceProxy.Flight.Crew
import OnceProxy.Flight.Traffic
import OnceProxy.Http.Field
import OnceProxy.Http.Hygiene
import OnceProxy.Http.Method
import OnceProxy.Http.Response
import OnceProxy.Http.Status
import OnceProxy.Http.Uri
import OnceProxy.Http.Wire
import OnceProxy.IdempotencyKey
import OnceProxy.KeyTool.Arguments
import OnceProxy.KeyTool.Command
import OnceProxy.KeyTool.Help
import OnceProxy.Logging
import OnceProxy.Main
import OnceProxy.Metrics
import OnceProxy.Net.SocketAddress
import OnceProxy.Octets
import OnceProxy.Origin.Delivery
import OnceProxy.Origin.Exchange
import OnceProxy.Origin.Target
import OnceProxy.Policy
import OnceProxy.Proxy.Rehearsal
import OnceProxy.Proxy.Request
import OnceProxy.Proxy.System
import OnceProxy.RequestPath
import OnceProxy.Saturating
import OnceProxy.Server.Buffer
import OnceProxy.Server.RequestId
import OnceProxy.Server.Service
import OnceProxy.Server.Startup
import OnceProxy.Server.Trial
import OnceProxy.Shutdown.Broadcast
import OnceProxy.Shutdown.Signals
import OnceProxy.Signing.Envelope
import OnceProxy.Signing.Error
import OnceProxy.Signing.Signer
import OnceProxy.Signing.Token
import OnceProxy.Store.Cache
import OnceProxy.Store.Dialogue
import OnceProxy.Store.Checked
import OnceProxy.Store.Error
import OnceProxy.Store.Memory
import OnceProxy.Store.Scripted
import OnceProxy.Store.Session
import OnceProxy.Store.Snapshot
import OnceProxy.Store.Sweeper
import OnceProxy.Store.Transcript
import OnceProxy.Text.Base64Url
import OnceProxy.Text.Decimal
import OnceProxy.Text.Hex
import OnceProxy.Text.Json
import OnceProxy.Text.Pieces
import OnceProxy.Toml.Document
import OnceProxy.Toml.Number
import OnceProxy.Toml.Text
import OnceProxy.Url.Host
import OnceProxy.Url.Parse
import OnceProxy.Url.Punycode
import OnceProxy.Proofs.Cbor.ReadBack
import OnceProxy.Proofs.Cbor.Skipping
import OnceProxy.Proofs.Entry.StoredForm
import OnceProxy.Proofs.Association
import OnceProxy.Proofs.Store.Records
import OnceProxy.Proofs.Flight
import OnceProxy.Proofs.Flight.Exclusion
import OnceProxy.Proofs.Flight.Delivery
import OnceProxy.Proofs.Store.Changes
import OnceProxy.Proofs.Proxy.Steps
import OnceProxy.Proofs.Proxy.Moves
import OnceProxy.Proofs.Proxy.Coherence
import OnceProxy.Proofs.Http.Fields
import OnceProxy.Proofs.Entry.OfResponse
import OnceProxy.Proofs.Proxy.Storage
import OnceProxy.Proofs.Proxy.Run
import OnceProxy.Proofs.Proxy.Versions
import OnceProxy.Proofs.Proxy.SingleCall
import OnceProxy.Proofs.Proxy.Parties
import OnceProxy.Proofs.Proxy.Grants
import OnceProxy.Proofs.Proxy.Views
import OnceProxy.Proofs.Proxy.Results
import OnceProxy.Proofs.Proxy.Agreement
import OnceProxy.Proofs.RequestPath
import OnceProxy.Proofs.Fingerprint
import OnceProxy.Proofs.Proxy.Provenance
import OnceProxy.Proofs.Proxy.NoTrace
import OnceProxy.Store.Clients
import OnceProxy.Proofs.Store.Clients
import OnceProxy.Proofs.Store.Immutability
import OnceProxy.Store.ExpiringMap
import OnceProxy.Proofs.Store.Refinement
import OnceProxy.Proofs.Http.Transit
import OnceProxy.Proofs.Proxy.Lifetime
import OnceProxy.Proofs.Text.Numerals
import OnceProxy.Proofs.Http.Uri
import OnceProxy.Proofs.Signing.Transport
import OnceProxy.Proofs.Url.Written
import OnceProxy.Proofs.Origin.Target
import OnceProxy.Proofs.Origin.Verification
import OnceProxy.Proofs.Proxy.Waiting
import OnceProxy.Proofs.Proxy.FanOut
import OnceProxy.Proofs.Store.OneKey
import OnceProxy.Proofs.Proxy.Lane
import OnceProxy.Proofs.Proxy.Staff
import OnceProxy.Proofs.Proxy.Lanes
import OnceProxy.Proofs.Proxy.LaneChanges
import OnceProxy.Proofs.Proxy.LaneSteps
import OnceProxy.Proofs.Proxy.Isolation
import OnceProxy.Store.Journal
import OnceProxy.Proofs.Store.Updates
import OnceProxy.Proofs.Store.Checked
import OnceProxy.Proofs.Store.Budgets
import OnceProxy.Proofs.Store.Sweeping
import OnceProxy.Proofs.Store.Snapshot
import OnceProxy.Proofs.Store.Restart
import OnceProxy.Proofs.Proxy.Departures
import OnceProxy.Server.Life
import OnceProxy.Proofs.Shutdown.Broadcast
import OnceProxy.Proofs.Server.Stopping
import OnceProxy.Proofs.Proxy.Mandates
import OnceProxy.Proofs.Proxy.Exchanges
import OnceProxy.Proofs.Proxy.OnePolicy
import OnceProxy.Proofs.Server.Startup
import OnceProxy.Proofs.Server.Admissible
import OnceProxy.Server.Deployment
import OnceProxy.Proofs.Config.Watch
import OnceProxy.Proofs.Server.Reloading
import OnceProxy.Proofs.Server.LastGood
import OnceProxy.Proofs.Store.Putting
import OnceProxy.Proofs.Proxy.Lineage
import OnceProxy.Proofs.Proxy.LiveKeys
import OnceProxy.Proofs.Proxy.Fidelity
import OnceProxy.Proofs.Proxy.Attempts
import OnceProxy.Proofs.Store.Loading
import OnceProxy.Proofs.Text.Pieces
import OnceProxy.Proofs.RequestPath.NormalForm
import OnceProxy.Proofs.Http.Hygiene
import OnceProxy.Proofs.Proxy.Causes
import OnceProxy.Proofs.Proxy.Signatures
import OnceProxy.Proofs.Server.RequestId
import OnceProxy.Proofs.Proxy.Repetitions
import OnceProxy.Proofs.Server.ReplayMarker
import OnceProxy.Proofs.Signing.SignedData
import OnceProxy.Proofs.Text.Base64Url
import OnceProxy.Proofs.Signing.Tokens
import OnceProxy.Proofs.Server.Gate
import OnceProxy.Proofs.Metrics
import OnceProxy.Proofs.Flight.Tally
import OnceProxy.Proofs.Proxy.Conclusions
import OnceProxy.Proofs.Proxy.Counters
