import IstanbulMonitor.Bytes.Basic
import IstanbulMonitor.Bytes.Fixed
import IstanbulMonitor.Bytes.Hex
import IstanbulMonitor.Chain.Address
import IstanbulMonitor.Chain.Header
import IstanbulMonitor.Chain.Json
import IstanbulMonitor.Chain.Quantity
import IstanbulMonitor.Crypto.Keccak
import IstanbulMonitor.Crypto.Secp256k1
import IstanbulMonitor.Follow.Config
import IstanbulMonitor.Follow.Error
import IstanbulMonitor.Follow.Heads
import IstanbulMonitor.Follow.Poll
import IstanbulMonitor.Follow.Process
import IstanbulMonitor.Follow.Run
import IstanbulMonitor.Istanbul.Digest
import IstanbulMonitor.Istanbul.Extra
import IstanbulMonitor.Istanbul.Recovery
import IstanbulMonitor.Istanbul.Seals
import IstanbulMonitor.Json.Decode
import IstanbulMonitor.Json.Read
import IstanbulMonitor.Json.Render
import IstanbulMonitor.Json.Source
import IstanbulMonitor.Json.Value
import IstanbulMonitor.Monitor.Cache
import IstanbulMonitor.Monitor.Config
import IstanbulMonitor.Monitor.Dialogue
import IstanbulMonitor.Monitor.Error
import IstanbulMonitor.Monitor.NodeInfo
import IstanbulMonitor.Monitor.Operations
import IstanbulMonitor.Monitor.Query
import IstanbulMonitor.Monitor.Report
import IstanbulMonitor.Monitor.State
import IstanbulMonitor.Monitor.Statistics
import IstanbulMonitor.Number.Binary64
import IstanbulMonitor.Number.Shortest
import IstanbulMonitor.Proofs.Bytes.Numerals
import IstanbulMonitor.Proofs.Istanbul.Layout
import IstanbulMonitor.Proofs.Istanbul.Signing
import IstanbulMonitor.Proofs.Monitor.Calls
import IstanbulMonitor.Proofs.Monitor.Gateway
import IstanbulMonitor.Proofs.Monitor.Participation
import IstanbulMonitor.Proofs.Rlp.Framing
import IstanbulMonitor.Proofs.Session.Correlation
import IstanbulMonitor.Proofs.Session.History
import IstanbulMonitor.Proofs.Session.Ledger
import IstanbulMonitor.Proofs.Session.Soundness
import IstanbulMonitor.Rlp.Decode
import IstanbulMonitor.Rlp.Encode
import IstanbulMonitor.Scenario.Exchange
import IstanbulMonitor.Scenario.Following
import IstanbulMonitor.Scenario.Node
import IstanbulMonitor.Scenario.Recovery
import IstanbulMonitor.Scenario.Script
import IstanbulMonitor.Session.Channel
import IstanbulMonitor.Session.Client
import IstanbulMonitor.Session.Connection
import IstanbulMonitor.Session.Event
import IstanbulMonitor.Session.State
import IstanbulMonitor.Telemetry.Config
import IstanbulMonitor.Telemetry.Journal
import IstanbulMonitor.Telemetry.Metrics
import IstanbulMonitor.Text.Blank
import IstanbulMonitor.Text.Radix
import IstanbulMonitor.Text.Span
import IstanbulMonitor.Transport.Config
import IstanbulMonitor.Transport.Error
import IstanbulMonitor.Validator.Enode
import IstanbulMonitor.Validator.Redt
import IstanbulMonitor.Validator.Registry
import IstanbulMonitor.Validator.Set
import IstanbulMonitor.Wire.Close
import IstanbulMonitor.Wire.Control
import IstanbulMonitor.Wire.Frame
import IstanbulMonitor.Wire.Loss
import IstanbulMonitor.Wire.Remote
import IstanbulMonitor.Proofs.Monitor.Chain
import IstanbulMonitor.Proofs.Monitor.Recency
import IstanbulMonitor.Proofs.Monitor.Replay
import IstanbulMonitor.Proofs.Follow.Watch
import IstanbulMonitor.Proofs.Follow.Continuity
import IstanbulMonitor.Proofs.Json.Reading
import IstanbulMonitor.Proofs.Json.Rendering
import IstanbulMonitor.Proofs.Wire.Frame
import IstanbulMonitor.Proofs.Rlp.Canonical
import IstanbulMonitor.Proofs.Istanbul.Rereading
import IstanbulMonitor.Proofs.Session.Aftermath
import IstanbulMonitor.Proofs.Session.Handles
import IstanbulMonitor.Proofs.Session.Termination
import IstanbulMonitor.Proofs.Follow.Notes
import IstanbulMonitor.Proofs.Monitor.Feeds
import IstanbulMonitor.Proofs.Follow.Polling
import IstanbulMonitor.Proofs.Chain.Checksum
import IstanbulMonitor.Proofs.Validator.CanonicalOrder
import IstanbulMonitor.Proofs.Monitor.Atomicity
import IstanbulMonitor.Proofs.Number.Exactness
import IstanbulMonitor.Proofs.Session.Channels
import IstanbulMonitor.Proofs.Session.Delivery
import IstanbulMonitor.Proofs.Session.Registration
import IstanbulMonitor.Proofs.Session.Custody
import IstanbulMonitor.Proofs.Session.Creation
import IstanbulMonitor.Proofs.Istanbul.SignedText
import IstanbulMonitor.Proofs.Session.Gauge
import IstanbulMonitor.Proofs.Monitor.Watermark
import IstanbulMonitor.Proofs.Monitor.Lookups
import IstanbulMonitor.Proofs.Monitor.Transparency
import IstanbulMonitor.Proofs.Monitor.Endorsements
import IstanbulMonitor.Proofs.Session.Samples
import IstanbulMonitor.Proofs.Session.Answers
import IstanbulMonitor.Proofs.Session.Verdicts
import IstanbulMonitor.Proofs.Follow.Intake
import IstanbulMonitor.Proofs.Follow.Endurance
import IstanbulMonitor.Proofs.Validator.RoundRobin
import IstanbulMonitor.Proofs.Session.Streams
import IstanbulMonitor.Proofs.Follow.Supply
import IstanbulMonitor.Proofs.Monitor.Filing
import IstanbulMonitor.Proofs.Monitor.Metering
import IstanbulMonitor.Proofs.Monitor.Reports
import IstanbulMonitor.Proofs.Follow.Announcements
import IstanbulMonitor.Proofs.Json.Members
import IstanbulMonitor.Proofs.Wire.Spelling
import IstanbulMonitor.Proofs.Session.Responses
import IstanbulMonitor.Proofs.Istanbul.Spellings
import IstanbulMonitor.Proofs.Istanbul.Truncation
import IstanbulMonitor.Proofs.Json.Records
import IstanbulMonitor.Proofs.Chain.Spellings
import IstanbulMonitor.Proofs.Chain.HeaderText
import IstanbulMonitor.Proofs.Follow.LastNumber
import IstanbulMonitor.Proofs.Monitor.Headroom
import IstanbulMonitor.Proofs.Chain.AddressText
import IstanbulMonitor.Proofs.Text.Numerals
import IstanbulMonitor.Proofs.Chain.Quantities
import IstanbulMonitor.Proofs.Validator.NodeUrl
import IstanbulMonitor.Proofs.Validator.LastEntry
import IstanbulMonitor.Proofs.Follow.Requests
