import ClusterMembership.Wire.PacketForm
import ClusterMembership.Codec
import ClusterMembership.Shuffle.Weak
import ClusterMembership.Network.Links
import ClusterMembership.Notice.Listener
import ClusterMembership.Table.Selection
import ClusterMembership.Table.Sweep
import ClusterMembership.Settings.Basic
import ClusterMembership.Settings.Form
import ClusterMembership.Participant.Basic
import ClusterMembership.Participant.Dissemination
import ClusterMembership.Participant.Probe
import ClusterMembership.Participant.Reception
import ClusterMembership.Simulation.Run
import ClusterMembership.Simulation.Node
import ClusterMembership.Calendar
import ClusterMembership.Notice.ChangeLine
import ClusterMembership.Settings.Overrides
import ClusterMembership.Settings.Document
import ClusterMembership.Yaml.BlockScalar
import ClusterMembership.Yaml.Plain
import ClusterMembership.Yaml.Quoted
import ClusterMembership.Yaml.Token
import ClusterMembership.Yaml.Property
import ClusterMembership.Yaml.Layout
import ClusterMembership.Yaml.Node
import ClusterMembership.Settings.Yaml
import ClusterMembership.Decimal.Binary64
import ClusterMembership.Decimal.Literal
import ClusterMembership.Decimal.Shortest
import ClusterMembership.Yaml.Writing
import ClusterMembership.Files.Basic
import ClusterMembership.Files.Folder
import ClusterMembership.Settings.File
import ClusterMembership.Text.Case
import ClusterMembership.Layers.KeyPath
import ClusterMembership.Layers.Merge
import ClusterMembership.Layers.Variables
import ClusterMembership.Layers.Yaml
import ClusterMembership.Settings.Load
import ClusterMembership.Simulation.Lone
import ClusterMembership.Command.Arguments
import ClusterMembership.Command.Daemon
import ClusterMembership.Main
import ClusterMembership.Proofs.Table.Growth
import ClusterMembership.Proofs.Table.Acks
import ClusterMembership.Proofs.Table.Decisions
import ClusterMembership.Proofs.Table.Lineage
import ClusterMembership.Proofs.Participant.Backing
import ClusterMembership.Proofs.Participant.Steady
import ClusterMembership.Proofs.Participant.Expansion
import ClusterMembership.Proofs.Codec.Fitting
import ClusterMembership.Proofs.Codec.Batching
import ClusterMembership.Proofs.Cluster.Run
import ClusterMembership.Proofs.Cluster.Exchange
import ClusterMembership.Proofs.Cluster.Acknowledgement
import ClusterMembership.Proofs.Cluster.Agreement
import ClusterMembership.Proofs.Cluster.Schedule
import ClusterMembership.Proofs.Cluster.Convergence
import ClusterMembership.Proofs.Table.Operation
import ClusterMembership.Proofs.Participant.Stamping
import ClusterMembership.Proofs.Table.OwnRow
import ClusterMembership.Proofs.Table.Merging
import ClusterMembership.Proofs.Cluster.History
import ClusterMembership.Proofs.Cluster.RelayedCheck
import ClusterMembership.Proofs.Cluster.Probing
import ClusterMembership.Proofs.Wire.Forms
import ClusterMembership.Proofs.Wire.Packing
import ClusterMembership.Proofs.Frame.Acceptance
import ClusterMembership.Proofs.Table.Slots
import ClusterMembership.Proofs.Table.Progress
import ClusterMembership.Proofs.Table.Census
import ClusterMembership.Proofs.Table.Handles
import ClusterMembership.Proofs.Table.Handshake
import ClusterMembership.Proofs.Notice.Subscription
import ClusterMembership.Proofs.Table.Notices
import ClusterMembership.Proofs.Table.Issuance
import ClusterMembership.Proofs.Table.Replay
import ClusterMembership.Proofs.Shuffle.Proper
import ClusterMembership.Proofs.Shuffle.Cycle
import ClusterMembership.Proofs.Shuffle.Weak
import ClusterMembership.Proofs.Participant.Sections
import ClusterMembership.Proofs.Participant.Targets
import ClusterMembership.Proofs.Codec.Cutting
import ClusterMembership.Proofs.Table.Expiry
import ClusterMembership.Proofs.Table.Retention
import ClusterMembership.Proofs.Participant.Departure
import ClusterMembership.Proofs.Table.Backlog
import ClusterMembership.Proofs.Shuffle.Selection
import ClusterMembership.Proofs.Table.Strictness
import ClusterMembership.Proofs.Cluster.Relaying
import ClusterMembership.Proofs.Notice.LineBreaks
import ClusterMembership.Proofs.Settings.Advertising
import ClusterMembership.Proofs.Network.Delivery
import ClusterMembership.Proofs.Simulation.Answers
