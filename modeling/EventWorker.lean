import EventWorker.Act
import EventWorker.Bus.Broadcast
import EventWorker.Bus.Endpoint
import EventWorker.Bus.Input
import EventWorker.Bus.Message
import EventWorker.Bus.Output
import EventWorker.Bytes.Base64
import EventWorker.Bytes.Basic
import EventWorker.Catalogue
import EventWorker.CommandLine
import EventWorker.Crypto.Aes
import EventWorker.Crypto.Crc16
import EventWorker.Crypto.Entropy
import EventWorker.Crypto.Gcm
import EventWorker.Crypto.Sha256
import EventWorker.Crypto.XChaCha
import EventWorker.Decimal.Double
import EventWorker.Decimal.Shortest
import EventWorker.Dispatch.Message
import EventWorker.Dispatch.Report
import EventWorker.Dispatch.Stages
import EventWorker.Environment
import EventWorker.Event
import EventWorker.Failure
import EventWorker.Json.Access
import EventWorker.Json.Numeral
import EventWorker.Json.Reader
import EventWorker.Json.Record
import EventWorker.Json.Token
import EventWorker.Json.Value
import EventWorker.Json.Writer
import EventWorker.Keyed
import EventWorker.Ledger
import EventWorker.Logger
import EventWorker.Main
import EventWorker.Memory
import EventWorker.Pipeline.Fragment
import EventWorker.Pipeline.Resolver
import EventWorker.Pipeline.Table
import EventWorker.Processor.Basic
import EventWorker.Processor.Delivery
import EventWorker.Processor.Handshake
import EventWorker.Processor.Registry
import EventWorker.Processor.Sessions
import EventWorker.Proofs.Bus.Counts
import EventWorker.Proofs.Bus.Delivery
import EventWorker.Proofs.Bus.Lines
import EventWorker.Proofs.Bytes.Base64
import EventWorker.Proofs.Bytes.Utf8
import EventWorker.Proofs.Crypto.Crc16
import EventWorker.Proofs.Crypto.Streams
import EventWorker.Proofs.Dispatch.Addressing
import EventWorker.Proofs.Dispatch.Atomicity
import EventWorker.Proofs.Dispatch.Caller
import EventWorker.Proofs.Dispatch.Discipline
import EventWorker.Proofs.Dispatch.Fanout
import EventWorker.Proofs.Dispatch.Gate
import EventWorker.Proofs.Dispatch.Handshake
import EventWorker.Proofs.Dispatch.Host
import EventWorker.Proofs.Dispatch.Keys
import EventWorker.Proofs.Dispatch.Lifted
import EventWorker.Proofs.Dispatch.Observed
import EventWorker.Proofs.Dispatch.Pairing
import EventWorker.Proofs.Dispatch.Printing
import EventWorker.Proofs.Dispatch.Refusal
import EventWorker.Proofs.Dispatch.Rounds
import EventWorker.Proofs.Dispatch.Routed
import EventWorker.Proofs.Dispatch.Writes
import EventWorker.Proofs.Event
import EventWorker.Proofs.Event.NormalForm
import EventWorker.Proofs.Firsts
import EventWorker.Proofs.Json.Lexing
import EventWorker.Proofs.Json.OneLine
import EventWorker.Proofs.Json.RoundTrip
import EventWorker.Proofs.Keyed
import EventWorker.Proofs.Memory
import EventWorker.Proofs.Memory.Calls
import EventWorker.Proofs.MemoryHistory
import EventWorker.Proofs.Pipeline.Check
import EventWorker.Proofs.Pipeline.Construction
import EventWorker.Proofs.Pipeline.Expansion
import EventWorker.Proofs.Pipeline.Flattening
import EventWorker.Proofs.Pipeline.Laws
import EventWorker.Proofs.Pipeline.Origin
import EventWorker.Proofs.Pipeline.References
import EventWorker.Proofs.Pipeline.Sharing
import EventWorker.Proofs.Pipeline.Table
import EventWorker.Proofs.Processor.Acknowledgement
import EventWorker.Proofs.Processor.Addressing
import EventWorker.Proofs.Processor.Answering
import EventWorker.Proofs.Processor.Authentication
import EventWorker.Proofs.Processor.Builtin
import EventWorker.Proofs.Processor.Delivery
import EventWorker.Proofs.Processor.Handout
import EventWorker.Proofs.Processor.Multiplication
import EventWorker.Proofs.Processor.Pairing
import EventWorker.Proofs.Processor.Prepared
import EventWorker.Proofs.Processor.Rekeying
import EventWorker.Proofs.Processor.Selection
import EventWorker.Proofs.Processor.Serving
import EventWorker.Proofs.Retry
import EventWorker.Proofs.Retry.Policy
import EventWorker.Proofs.Sealing.Acceptance
import EventWorker.Proofs.Sealing.Envelope
import EventWorker.Proofs.Sealing.Opening
import EventWorker.Proofs.Sealing.Padding
import EventWorker.Proofs.Sealing.Receiving
import EventWorker.Proofs.Settings
import EventWorker.Proofs.Steps
import EventWorker.Proofs.Store.Admission
import EventWorker.Proofs.Store.Clients
import EventWorker.Proofs.Store.Consistency
import EventWorker.Proofs.Store.Deletion
import EventWorker.Proofs.Store.Interference
import EventWorker.Proofs.Store.Keys
import EventWorker.Proofs.Store.Operations
import EventWorker.Proofs.Store.Places
import EventWorker.Proofs.Store.Runs
import EventWorker.Proofs.Store.Savepoints
import EventWorker.Proofs.Store.Units
import EventWorker.Proofs.Store.Values
import EventWorker.Proofs.Text.Digits
import EventWorker.Proofs.Text.Pieces
import EventWorker.Proofs.Text.Spelling
import EventWorker.Proofs.Validation.Checks
import EventWorker.Proofs.Validation.Requoting
import EventWorker.Proofs.Worker.Lifetime
import EventWorker.Proofs.Worker.Noted
import EventWorker.Proofs.Worker.Printing
import EventWorker.Proofs.Worker.Started
import EventWorker.Rehearsal.Audience
import EventWorker.Rehearsal.Bed
import EventWorker.Rehearsal.Fault
import EventWorker.Rehearsal.Form
import EventWorker.Rehearsal.Rig
import EventWorker.Rehearsal.Roster
import EventWorker.Rehearsal.Script
import EventWorker.Rehearsal.Seed
import EventWorker.Rehearsal.Stand
import EventWorker.Retry
import EventWorker.Sealing.Cipher
import EventWorker.Sealing.Client
import EventWorker.Sealing.Codec
import EventWorker.Sealing.Envelope
import EventWorker.Sealing.Error
import EventWorker.Sealing.KeyState
import EventWorker.Sealing.Negotiation
import EventWorker.Sealing.Padding
import EventWorker.Sealing.Suite
import EventWorker.Sealing.Toolkit
import EventWorker.Sealing.Transport
import EventWorker.Settings
import EventWorker.Store.Basic
import EventWorker.Store.Manager
import EventWorker.Store.Rows
import EventWorker.Store.Tables
import EventWorker.Surroundings
import EventWorker.Text.Blank
import EventWorker.Text.Digits
import EventWorker.Text.Integer
import EventWorker.Text.Word
import EventWorker.Validation
import EventWorker.Worker.Config
import EventWorker.Worker.Provider
import EventWorker.Worker.Run
import EventWorker.Worker.Site
import EventWorker.Worker.Startup
