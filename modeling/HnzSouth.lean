import HnzSouth.Machinery.Decimal
import HnzSouth.Machinery.Json
import HnzSouth.Machinery.Run
import HnzSouth.Machinery.Signed
import HnzSouth.Model.Basic
import HnzSouth.Model.Clock
import HnzSouth.Model.Conf
import HnzSouth.Model.Handlers
import HnzSouth.Model.Import
import HnzSouth.Model.Interrogation
import HnzSouth.Model.Link
import HnzSouth.Model.Operation
import HnzSouth.Model.Payload
import HnzSouth.Model.Plugin
import HnzSouth.Model.Reading
import HnzSouth.Model.Reception
import HnzSouth.Model.Request
import HnzSouth.Model.Step
import HnzSouth.Model.System
import HnzSouth.Model.SystemLemmas
import HnzSouth.Model.Timers
import HnzSouth.Path.History
import HnzSouth.Path.Numbers
import HnzSouth.Path.Queues
import HnzSouth.Path.Release
import HnzSouth.Path.Steps
import HnzSouth.Arbitration.Arbiter
import HnzSouth.Arbitration.OneActive
import HnzSouth.Arbitration.OneExtractor
import HnzSouth.Arbitration.Plugin
import HnzSouth.Arbitration.Refinement
import HnzSouth.Arbitration.Steps
import HnzSouth.Interrogation.Acts
import HnzSouth.Interrogation.Armed
import HnzSouth.Interrogation.Course
import HnzSouth.Interrogation.Delayed
import HnzSouth.Interrogation.Emissions
import HnzSouth.Interrogation.Ends
import HnzSouth.Interrogation.Gi
import HnzSouth.Interrogation.Missing
import HnzSouth.Interrogation.Repetition
import HnzSouth.Behaviour.Events
import HnzSouth.Behaviour.Frames
import HnzSouth.Behaviour.Interrogations
import HnzSouth.Behaviour.Life
import HnzSouth.Behaviour.Links
import HnzSouth.Behaviour.Pieces
import HnzSouth.Behaviour.Reports
import HnzSouth.Behaviour.Work
import HnzSouth.Reception.Decoding
import HnzSouth.Reception.Handlers
import HnzSouth.Reception.Payload
import HnzSouth.Reception.Safety
import HnzSouth.Reception.Sarm
import HnzSouth.Reception.Sequence
import HnzSouth.Reception.Splitting
import HnzSouth.Timestamp.ClockSet
import HnzSouth.Timestamp.Section
import HnzSouth.Sending.Queues
import HnzSouth.Sending.Transmissions
import HnzSouth.Sending.Window
import HnzSouth.Lifecycle.Documents
import HnzSouth.Lifecycle.Start
import HnzSouth.Lifecycle.Station
import HnzSouth.Behaviour.Times
import HnzSouth.Machinery.Alarm
import HnzSouth.Interrogation.Schedule
import HnzSouth.Sending.InitMessages
import HnzSouth.Sending.Order
import HnzSouth.Configuration.Accepted
import HnzSouth.Configuration.Wire
import HnzSouth.Configuration.Durations
import HnzSouth.Configuration.Entries
import HnzSouth.Machinery.Fill
import HnzSouth.Configuration.Tables
import HnzSouth.Lifecycle.Requests
import HnzSouth.Configuration.Startable
import HnzSouth.Interrogation.Mismatch
import HnzSouth.Timestamp.TimeSetting
import HnzSouth.Configuration.Strings
import HnzSouth.Lifecycle.Outdated
import HnzSouth.Lifecycle.Refused
import HnzSouth.Sending.Retransmission
import HnzSouth.Machinery.Logbook
import HnzSouth.Behaviour.Audits
import HnzSouth.Arbitration.Audits
import HnzSouth.Commands.Encoding
import HnzSouth.Timestamp.LocalTime
import HnzSouth.Commands.Requests
import HnzSouth.Exchange.Frames
import HnzSouth.Exchange.Streams
import HnzSouth.Exchange.Outgoing
import HnzSouth.Exchange.Incoming
import HnzSouth.Effects.Effect
import HnzSouth.Effects.Messages
import HnzSouth.Effects.Events
import HnzSouth.Effects.Replay
import HnzSouth.Arbitration.Exclusive
import HnzSouth.Exchange.Line
import HnzSouth.Machinery.Numbering
import HnzSouth.Exchange.Joint
import HnzSouth.Exchange.Counting
import HnzSouth.Exchange.Synchrony
import HnzSouth.Lifecycle.Unfailing
import HnzSouth.Interrogation.Answered
import HnzSouth.Effects.Values
