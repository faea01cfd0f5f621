import SessionRelay.Backend.Dialog
import SessionRelay.Backend.Engine
import SessionRelay.Backend.Error
import SessionRelay.Backend.Memory
import SessionRelay.Backend.Rehearsal
import SessionRelay.Broker.Daemon
import SessionRelay.Broker.Error
import SessionRelay.Broker.Reader
import SessionRelay.Broker.Relay
import SessionRelay.Broker.Router
import SessionRelay.Broker.Schedule
import SessionRelay.Calendar
import SessionRelay.Client.Error
import SessionRelay.Client.Session
import SessionRelay.Config.Decode
import SessionRelay.Config.Error
import SessionRelay.Config.Load
import SessionRelay.Config.Merge
import SessionRelay.Config.Override
import SessionRelay.Config.Settings
import SessionRelay.Gzip.Bits
import SessionRelay.Gzip.Crc
import SessionRelay.Gzip.Huffman
import SessionRelay.Gzip.Inflate
import SessionRelay.Gzip.Member
import SessionRelay.Integration.Action
import SessionRelay.Integration.Error
import SessionRelay.Integration.Family
import SessionRelay.Integration.Input
import SessionRelay.Integration.Registry
import SessionRelay.Json.Decode
import SessionRelay.Json.Numeral
import SessionRelay.Json.Reader
import SessionRelay.Json.Token
import SessionRelay.Json.Value
import SessionRelay.Json.Writer
import SessionRelay.KeyTable
import SessionRelay.Logging
import SessionRelay.Main
import SessionRelay.Number.Binary64
import SessionRelay.Number.Decimal
import SessionRelay.Number.Integer
import SessionRelay.Number.Shortest
import SessionRelay.Proofs.Backend.Custody
import SessionRelay.Proofs.Backend.Dialogs
import SessionRelay.Proofs.Backend.Isolation
import SessionRelay.Proofs.Backend.Ledger
import SessionRelay.Proofs.Backend.Queues
import SessionRelay.Proofs.Broker.Answering
import SessionRelay.Proofs.Broker.FailedSends
import SessionRelay.Proofs.Broker.Inlet
import SessionRelay.Proofs.Broker.Journal
import SessionRelay.Proofs.Broker.LifeCycle
import SessionRelay.Proofs.Broker.Lives
import SessionRelay.Proofs.Broker.Moves
import SessionRelay.Proofs.Broker.Origins
import SessionRelay.Proofs.Broker.Pending
import SessionRelay.Proofs.Broker.Prompts
import SessionRelay.Proofs.Broker.Reader
import SessionRelay.Proofs.Broker.Reasons
import SessionRelay.Proofs.Broker.Replies
import SessionRelay.Proofs.Broker.Router
import SessionRelay.Proofs.Broker.Routing
import SessionRelay.Proofs.Broker.Runs
import SessionRelay.Proofs.Broker.Staff
import SessionRelay.Proofs.Broker.Tables
import SessionRelay.Proofs.Broker.Turns
import SessionRelay.Proofs.Client.Attribution
import SessionRelay.Proofs.Client.Conversation
import SessionRelay.Proofs.Client.Pinning
import SessionRelay.Proofs.Client.Stops
import SessionRelay.Proofs.Client.Stream
import SessionRelay.Proofs.Config.Decoding
import SessionRelay.Proofs.Config.Loading
import SessionRelay.Proofs.Config.Overrides
import SessionRelay.Proofs.Gzip.Limits
import SessionRelay.Proofs.Gzip.Stored
import SessionRelay.Proofs.Integration.Answers
import SessionRelay.Proofs.Integration.Breakage
import SessionRelay.Proofs.Integration.Custody
import SessionRelay.Proofs.Integration.Reasons
import SessionRelay.Proofs.Integration.Sends
import SessionRelay.Proofs.Json.LeadingMembers
import SessionRelay.Proofs.Json.ReadBack
import SessionRelay.Proofs.Json.Scanned
import SessionRelay.Proofs.KeyTable
import SessionRelay.Proofs.Number.Integer
import SessionRelay.Proofs.QueueManager.Address
import SessionRelay.Proofs.QueueManager.Failures
import SessionRelay.Proofs.QueueManager.Limits
import SessionRelay.Proofs.QueueManager.Transit
import SessionRelay.Proofs.Rfh2.Checked
import SessionRelay.Proofs.Rfh2.Encoding
import SessionRelay.Proofs.Rfh2.Grammar
import SessionRelay.Proofs.Rfh2.Header
import SessionRelay.Proofs.Rfh2.RoundTrip
import SessionRelay.Proofs.ServiceBus.Accounts
import SessionRelay.Proofs.ServiceBus.Address
import SessionRelay.Proofs.ServiceBus.Links
import SessionRelay.Proofs.ServiceBus.NormalForm
import SessionRelay.Proofs.ServiceBus.Openings
import SessionRelay.Proofs.ServiceBus.Subscriptions
import SessionRelay.Proofs.Text.Split
import SessionRelay.Proofs.Text.Utf8
import SessionRelay.Proofs.Toml.Merging
import SessionRelay.Proofs.Toml.Ordered
import SessionRelay.Proofs.Toml.Paths
import SessionRelay.Proofs.Wire.Agreement
import SessionRelay.Proofs.Wire.Envelope
import SessionRelay.Proofs.Wire.Frame
import SessionRelay.Proofs.Wire.Lengths
import SessionRelay.Proofs.Wire.Names
import SessionRelay.Proofs.Worker.Course
import SessionRelay.Proofs.Worker.Errands
import SessionRelay.Proofs.Worker.Gate
import SessionRelay.Proofs.Worker.Protocol
import SessionRelay.Proofs.Worker.Reasons
import SessionRelay.Proofs.Worker.Thread
import SessionRelay.Proofs.Xml.Written
import SessionRelay.QueueManager.Session
import SessionRelay.QueueManager.Url
import SessionRelay.Rfh2.Encoder
import SessionRelay.Rfh2.Error
import SessionRelay.Rfh2.Folder
import SessionRelay.Rfh2.Header
import SessionRelay.Rfh2.Message
import SessionRelay.ServiceBus.Endpoint
import SessionRelay.ServiceBus.Session
import SessionRelay.ServiceBus.Url
import SessionRelay.Text.Blank
import SessionRelay.Text.Hex
import SessionRelay.Text.Printable
import SessionRelay.Text.Quoted
import SessionRelay.Text.Split
import SessionRelay.Text.Utf8
import SessionRelay.Text.Uuid
import SessionRelay.Toml.Document
import SessionRelay.Toml.Scalar
import SessionRelay.Toml.Scan
import SessionRelay.Toml.Tree
import SessionRelay.Toml.Value
import SessionRelay.Wire.Context
import SessionRelay.Wire.Envelope
import SessionRelay.Wire.Frame
import SessionRelay.Worker.Basic
import SessionRelay.Worker.Solo
import SessionRelay.Worker.Thread
import SessionRelay.Xml.Character
import SessionRelay.Xml.Document
import SessionRelay.Xml.Markup
import SessionRelay.Xml.Text
