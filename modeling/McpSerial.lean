import McpSerial.Interaction.Program
import McpSerial.Interaction.Schedule
import McpSerial.Text.Utf8
import McpSerial.Config
import McpSerial.Policy
import McpSerial.Parser
import McpSerial.Interaction.Fallible
import McpSerial.Manager.Table
import McpSerial.Manager.Machine
import McpSerial.Manager.Operations
import McpSerial.Manager.Lifecycle
import McpSerial.Manager.Rules
import McpSerial.Manager.Moves
import McpSerial.Manager.Calls
import McpSerial.Manager.TableInvariant
import McpSerial.Manager.Footprint
import McpSerial.Manager.InFlight
import McpSerial.Manager.NoLeak
import McpSerial.Manager.CloseBarrier
import McpSerial.Manager.Identity
import McpSerial.Manager.IoLog
import McpSerial.Interaction.Blocks
import McpSerial.Manager.Atomicity
import McpSerial.Manager.Races
import McpSerial.Mcp.Confirmation
import McpSerial.Mcp.Handlers
import McpSerial.Mcp.Rules
import McpSerial.Mcp.Calls
import McpSerial.Mcp.SideEffects
import McpSerial.Mcp.WriteGate
import McpSerial.Text.Framing
import McpSerial.Mcp.GuardedLines
import McpSerial.Mcp.TwoRounds
import McpSerial.Selection.FirstMatch
import McpSerial.ProfileOrder
import McpSerial.Text.Lossy
import McpSerial.Matching.Window
import McpSerial.Matching.Echo
import McpSerial.Manager.Intake
import McpSerial.Manager.MatchReports
import McpSerial.Mcp.Presentation
import McpSerial.Manager.Delivery
import McpSerial.Mcp.MatchOffsets
import McpSerial.Osc.Command
import McpSerial.Mcp.Tightening
import McpSerial.Mcp.Rendering
import McpSerial.Selection.Fields
import McpSerial.Mcp.Journal
import McpSerial.Mcp.NonInterference
import McpSerial.Matching.Suffix
import McpSerial.ProfileListing
import McpSerial.Text.Transducer
import McpSerial.Mcp.Escaping
import McpSerial.Mcp.Usability
import McpSerial.Terminal.Normalization
import McpSerial.Terminal.Exposure
import McpSerial.Osc.Places
import McpSerial.Selection.LastWins
import McpSerial.Osc.Conflicts
import McpSerial.Manager.CancelledStart
import McpSerial.Text.Json
import McpSerial.Journal.Timestamps
import McpSerial.Journal.Rows
import McpSerial.Interaction.BufWriter
import McpSerial.Journal.Writer
import McpSerial.MachineInt
import McpSerial.Matching.Offsets
import McpSerial.Text.Boundaries
import McpSerial.Time.Gregorian
import McpSerial.Text.FixedWidth
import McpSerial.Journal.Dates
import McpSerial.Journal.Order
import McpSerial.Manager.Exclusive
import McpSerial.Manager.Openings
import McpSerial.Interaction.Progress
import McpSerial.Manager.Progress
import McpSerial.Interaction.Layers
import McpSerial.Mcp.Gone
import McpSerial.Mcp.Operator
import McpSerial.Selection.Sorted
import McpSerial.Text.JsonReader
import McpSerial.Journal.Reading
import McpSerial.Mcp.Audit
import McpSerial.Mcp.AuditTrail
import McpSerial.Selection.Codec
import McpSerial.Mcp.Parameters
import McpSerial.Mcp.Attribution
import McpSerial.Mcp.Aliases
import McpSerial.Mcp.Transcript
import McpSerial.Mcp.SeededIds
import McpSerial.Bits.Mixing
import McpSerial.Mcp.DeviceInput
import McpSerial.Mcp.Standing
