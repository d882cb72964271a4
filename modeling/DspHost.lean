import DspHost.Number.Format
import DspHost.Number.Single
import DspHost.Number.Decimal
import DspHost.Number.Shortest
import DspHost.Number.Exp2
import DspHost.Text.Blank
import DspHost.Text.Hex
import DspHost.Text.Hidden
import DspHost.Text.Quoted
import DspHost.Json.Value
import DspHost.Json.Numeral
import DspHost.Json.Reader
import DspHost.Json.Writer
import DspHost.Json.Decode
import DspHost.Memory.Region
import DspHost.Memory.Word
import DspHost.Memory.Arena
import DspHost.Memory.Plan
import DspHost.Pitch
import DspHost.Midi
import DspHost.Voices
import DspHost.Control.Event
import DspHost.Control.Queue
import DspHost.Control.Command
import DspHost.Control.EventLog
import DspHost.Metadata.Basic
import DspHost.Metadata.Validation
import DspHost.Metadata.Document
import DspHost.Sha256
import DspHost.Module
import DspHost.Cache.Fingerprint
import DspHost.Cache.Request
import DspHost.Control.Table
import DspHost.Control.TableNotices
import DspHost.Control.Router
import DspHost.Control.Handle
import DspHost.Cache.Error
import DspHost.Notice
import DspHost.Config.Basic
import DspHost.Engine.HostBlock
import DspHost.Engine.Processor
import DspHost.Engine.Apply
import DspHost.Engine.Render
import DspHost.Engine.Process
import DspHost.Engine.Setup
import DspHost.Engine.Session
import DspHost.Storage
import DspHost.Cache.Toolchain
import DspHost.Cache.Bundle
import DspHost.Cache.Store
import DspHost.Programs.Frames
import DspHost.Programs.Organ
import DspHost.Programs.Sample
import DspHost.Programs.Script
import DspHost.CommandLine
import DspHost.Main
import DspHost.Proofs.Memory.Cursor
import DspHost.Proofs.Memory.Placement
import DspHost.Proofs.Memory.Frame
import DspHost.Proofs.Memory.Access
import DspHost.Proofs.Memory.Writes
import DspHost.Proofs.Memory.Area
import DspHost.Proofs.Memory.Exactness
import DspHost.Proofs.Engine.Hosting
import DspHost.Proofs.Engine.Contract
import DspHost.Proofs.Engine.Rendering
import DspHost.Proofs.Programs.Parts
import DspHost.Proofs.Programs.Volume
import DspHost.Proofs.Programs.Organ
import DspHost.Proofs.Engine.VoiceMix
import DspHost.Proofs.Control.Bindings
import DspHost.Proofs.Control.Routing
import DspHost.Proofs.Voices
import DspHost.Proofs.Engine.Commands
import DspHost.Proofs.Engine.Attachment
import DspHost.Proofs.Engine.Run
import DspHost.Proofs.Programs.HostedOrgan
import DspHost.Proofs.Engine.Mirror
import DspHost.Proofs.Engine.Gates
import DspHost.Proofs.Voices.HeldNotes
import DspHost.Proofs.Voices.History
import DspHost.Proofs.Cache.Identity
import DspHost.Proofs.Cache.Transparency
import DspHost.Proofs.Engine.Delivery
import DspHost.Proofs.Engine.Safety
import DspHost.Proofs.Programs.BuiltOrgan
import DspHost.Proofs.Control.Confinement
import DspHost.Proofs.Control.Sources
import DspHost.Proofs.Control.Entries
import DspHost.Proofs.Engine.Status
import DspHost.Proofs.Json.RoundTrip
import DspHost.Proofs.Cache.Consistency
import DspHost.Proofs.Cache.Transport
import DspHost.Proofs.Cache.Provenance
import DspHost.Proofs.Engine.Replay
import DspHost.Proofs.Engine.Underrun
import DspHost.Proofs.Engine.Teardown
import DspHost.Proofs.Metadata.Tree
import DspHost.Proofs.Metadata.Verdict
import DspHost.Proofs.Control.Index
import DspHost.Proofs.Engine.Polyphony
import DspHost.Proofs.Engine.OneVoice
import DspHost.Proofs.Inspection
import DspHost.Proofs.Control.VoiceKeys
import DspHost.Proofs.Control.Advertised
import DspHost.Proofs.Engine.Wiring
import DspHost.Proofs.Engine.Meters
import DspHost.Proofs.Cache.Separation
import DspHost.Proofs.Engine.ReplayCount
import DspHost.Proofs.Number.Nearest
import DspHost.Proofs.Number.Patterns
import DspHost.Proofs.Number.Whole
import DspHost.Proofs.Json.Fields
import DspHost.Proofs.Json.Numerals
import DspHost.Proofs.Metadata.Sizes
import DspHost.Proofs.Number.Gaps
import DspHost.Proofs.Number.Shortest
import DspHost.Proofs.Number.Layouts
import DspHost.Proofs.Number.Scaling
import DspHost.Proofs.Json.Singles
import DspHost.Proofs.Json.Records
import DspHost.Proofs.Metadata.Widgets
import DspHost.Proofs.Metadata.Reread
import DspHost.Proofs.Text.Words
import DspHost.Proofs.Control.Annotations
import DspHost.Proofs.Cache.Logging
import DspHost.Proofs.Number.Rounding
import DspHost.Proofs.Number.Arithmetic
import DspHost.Proofs.Control.Ranges
import DspHost.Proofs.Memory.Words
import DspHost.Proofs.Memory.Transfers
