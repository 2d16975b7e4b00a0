import ControlPlane.Net.AddressText
import ControlPlane.Wire.Record
import ControlPlane.Store.Cursor
import ControlPlane.Store.Index
import ControlPlane.Client.Subscribers
import ControlPlane.Client.Session
import ControlPlane.Tracking.Flow
import ControlPlane.Tracking.Timeouts
import ControlPlane.Tracking.Table
import ControlPlane.Routing.Table
import ControlPlane.Metrics
import ControlPlane.Config.Basic
import ControlPlane.Interfaces.Table
import ControlPlane.Engine.Basic
import ControlPlane.Engine.Dispatch
import ControlPlane.Engine.History
import ControlPlane.Config.Validation
import ControlPlane.Toml.Value
import ControlPlane.Toml.Bare
import ControlPlane.Toml.Quoted
import ControlPlane.Toml.Node
import ControlPlane.Toml.Statement
import ControlPlane.Toml.Document
import ControlPlane.Toml.Library
import ControlPlane.Config.Document
import ControlPlane.Datagram.Network
import ControlPlane.Datagram.Client
import ControlPlane.Datagram.Listener
import ControlPlane.Datagram.Server
import ControlPlane.CommandLine.Invocation
import ControlPlane.CommandLine.Program
import ControlPlane.CommandLine.FileTree
import ControlPlane.CommandLine.Transcript
import ControlPlane.Main
import ControlPlane.Proofs.Store.Sequenced
import ControlPlane.Proofs.Tracking.Table
import ControlPlane.Proofs.Routing.IdIndex
import ControlPlane.Proofs.Tracking.FlowIndex
import ControlPlane.Proofs.Engine.Change
import ControlPlane.Proofs.Engine.Integrity
import ControlPlane.Proofs.Engine.Enumeration
import ControlPlane.Proofs.Engine.Refusal
import ControlPlane.Proofs.Engine.Event
import ControlPlane.Proofs.Engine.Lock
import ControlPlane.Proofs.Engine.Departure
import ControlPlane.Proofs.Engine.Touch
import ControlPlane.Proofs.Engine.Origin
import ControlPlane.Proofs.Engine.Crossing
import ControlPlane.Proofs.Tracking.Addressing
import ControlPlane.Proofs.Engine.Addressing
import ControlPlane.Proofs.Engine.Aging
import ControlPlane.Proofs.Text.Utf8
import ControlPlane.Proofs.Text.Boundary
import ControlPlane.Proofs.Wire.RoundTrip
import ControlPlane.Proofs.Engine.Canonical
import ControlPlane.Proofs.Datagram.Listing
import ControlPlane.Proofs.Datagram.Replies
import ControlPlane.Proofs.Engine.Removal
import ControlPlane.Proofs.Wire.Reading
import ControlPlane.Proofs.Engine.Emission
import ControlPlane.Proofs.Engine.Checks
import ControlPlane.Proofs.Engine.Presence
import ControlPlane.Proofs.Engine.Balance
import ControlPlane.Proofs.Engine.Course
import ControlPlane.Proofs.Engine.Traffic
import ControlPlane.Proofs.Engine.Validation
import ControlPlane.Proofs.Engine.FamilyBits
import ControlPlane.Proofs.Engine.Guard
import ControlPlane.Proofs.Engine.Shutdown
import ControlPlane.Proofs.Engine.Audience
import ControlPlane.Proofs.Engine.SocketCounts
import ControlPlane.Proofs.Engine.Requests
import ControlPlane.Proofs.Engine.Export
import ControlPlane.Proofs.Config.Building
import ControlPlane.Proofs.Engine.Egress
import ControlPlane.Proofs.Datagram.Interfaces
import ControlPlane.Proofs.Datagram.Serving
import ControlPlane.Proofs.Wire.Rewriting
import ControlPlane.Proofs.Wire.Stability
import ControlPlane.Proofs.Text.Digits
import ControlPlane.Proofs.Net.AddressText
import ControlPlane.Proofs.Toml.Quoted
import ControlPlane.Proofs.Toml.Bare
import ControlPlane.Proofs.Toml.Statement
import ControlPlane.Proofs.Toml.Limits
import ControlPlane.Proofs.Toml.Sections
import ControlPlane.Proofs.Toml.Library
import ControlPlane.Proofs.Config.RoundTrip
import ControlPlane.Proofs.Tracking.Lookup
import ControlPlane.Proofs.Engine.Dependents
import ControlPlane.Proofs.Engine.Registration
import ControlPlane.Proofs.Engine.Accounting
import ControlPlane.Proofs.Engine.Survivors
import ControlPlane.Proofs.Datagram.Deliveries
import ControlPlane.Proofs.Datagram.Locking
import ControlPlane.Proofs.Wire.Announcements
import ControlPlane.Proofs.Wire.Truncation
import ControlPlane.Proofs.Net.MacText
