import RingScan.Config.Conversion
import RingScan.Config.Setting
import RingScan.Dialogue
import RingScan.Digest.Md5
import RingScan.Digest.Murmur
import RingScan.Digest.Word
import RingScan.Duration
import RingScan.Fault
import RingScan.Http.Client
import RingScan.Http.Location
import RingScan.Http.RestError
import RingScan.Http.RetryPolicy
import RingScan.Json.Encoding
import RingScan.Json.Parser
import RingScan.Json.Printer
import RingScan.Node.Basic
import RingScan.Node.Paths
import RingScan.Numeric.Binary64
import RingScan.Numeric.Decimal
import RingScan.Numeric.Integer
import RingScan.Numeric.PowerOfTen
import RingScan.Numeric.Rounding
import RingScan.Plan.Assemble
import RingScan.Plan.Collection
import RingScan.Plan.Context
import RingScan.Plan.Error
import RingScan.Plan.Planner
import RingScan.Plan.Proposal
import RingScan.Plan.Replicas
import RingScan.Plan.Restrict
import RingScan.Plan.Settings
import RingScan.Plan.Split
import RingScan.Plan.Task
import RingScan.Plan.Topology
import RingScan.Ring.Arc
import RingScan.Ring.Key
import RingScan.Ring.Partitioner
import RingScan.Ring.Segment
import RingScan.Ring.Token
import RingScan.Ring.TokenArc
import RingScan.Text.Blank
import RingScan.Text.Digit
import RingScan.Text.Flips
import RingScan.Text.Hex
import RingScan.Text.LowerCase
import RingScan.Text.Order
import RingScan.Text.Percent
import RingScan.Text.Printable
import RingScan.Text.Quoted
import RingScan.Text.Surrogate
import RingScan.Text.Template
import RingScan.Text.Utf8
import RingScan.Value.Basic
import RingScan.Value.Comparison
import RingScan.Value.Display
import RingScan.Wire.Messages
import RingScan.Wire.Schema
import RingScan.Proofs.Plan.ExactlyOnce
import RingScan.Proofs.Plan.RetryBudget
import RingScan.Proofs.Ring.Points
import RingScan.Proofs.Ring.Intersection
import RingScan.Proofs.Ring.TokenText
import RingScan.Proofs.Plan.Coverage
import RingScan.Proofs.Node.Calls
import RingScan.Proofs.Plan.Cluster
import RingScan.Proofs.Plan.Failover
import RingScan.Proofs.Dialogue.Errors
import RingScan.Proofs.Text.ByteOrder
import RingScan.Proofs.Plan.UnevenReplicas
import RingScan.Proofs.Plan.PlanningErrors
import RingScan.Proofs.Plan.KeyInterval
import RingScan.Proofs.Dialogue.Transcript
import RingScan.Proofs.Node.Exchanges
import RingScan.Proofs.Plan.Connections
import RingScan.Proofs.Plan.Talks
import RingScan.Proofs.Plan.Handshakes
import RingScan.Proofs.Plan.Seeds
import RingScan.Proofs.Plan.ConnectionProtocol
import RingScan.Proofs.Node.Rejections
import RingScan.Proofs.Plan.Fallback
import RingScan.Proofs.Plan.Configuration
import RingScan.Proofs.Plan.Locality
import RingScan.Proofs.Ring.Overlap
import RingScan.Proofs.Plan.Failures
import RingScan.Proofs.Plan.Refusal
import RingScan.Proofs.Dialogue.Relabel
import RingScan.Proofs.Plan.Confinement
import RingScan.Proofs.Json.RoundTrip
import RingScan.Proofs.Wire.VersionSkew
import RingScan.Proofs.Wire.RoundTrip
import RingScan.Proofs.Ring.Pieces
import RingScan.Proofs.Plan.Narrowing
import RingScan.Proofs.Plan.Reassembly
import RingScan.Proofs.Plan.Linearisation
import RingScan.Proofs.Ring.Waypoints
import RingScan.Proofs.Plan.Pairing
import RingScan.Proofs.Plan.Replicas
import RingScan.Proofs.Node.Operations
import RingScan.Proofs.Numeric.Rounding
import RingScan.Proofs.Config.Durations
import RingScan.Proofs.Ring.Bounds
import RingScan.Proofs.Plan.WrittenBounds
import RingScan.Proofs.Text.Utf8RoundTrip
import RingScan.Proofs.Plan.KeyOrder
import RingScan.Proofs.Plan.KeyPositions
import RingScan.Proofs.Numeric.Numerals
import RingScan.Proofs.Config.DurationGrammar
import RingScan.Proofs.Ring.TokenReading
import RingScan.Proofs.Plan.Assembly
import RingScan.Proofs.Text.PercentRoundTrip
import RingScan.Proofs.Node.Resources
import RingScan.Proofs.Text.Conversions
import RingScan.Proofs.Text.Directives
import RingScan.Proofs.Text.Templates
import RingScan.Proofs.Http.ErrorTexts
