import DemandFlow.Config.File
import DemandFlow.Data.Decode
import DemandFlow.Data.Report
import DemandFlow.Data.ScriptForm
import DemandFlow.Graph.Builder
import DemandFlow.Graph.Dot
import DemandFlow.Interpreter.Pull
import DemandFlow.Rate.Declare
import DemandFlow.Stream.Compiler
import DemandFlow.Work.Body
import DemandFlow.Yaml.BlockText
import DemandFlow.Yaml.Gap
import DemandFlow.Yaml.PlainText
import DemandFlow.Yaml.QuotedText
import DemandFlow.Proofs.Graph.Firing
import DemandFlow.Proofs.Graph.Wiring
import DemandFlow.Proofs.Graph.Assembly
import DemandFlow.Proofs.Interpreter.Section
import DemandFlow.Proofs.Interpreter.Run
import DemandFlow.Proofs.Messages.Queue
import DemandFlow.Proofs.Messages.Deadline
import DemandFlow.Proofs.Messages.Delivery
import DemandFlow.Proofs.Graph.Locality
import DemandFlow.Proofs.Interpreter.Stall
import DemandFlow.Proofs.Stream.Meaning
import DemandFlow.Proofs.Stream.Progress
import DemandFlow.Proofs.Stream.Expansion
import DemandFlow.Proofs.Stream.Denotation
import DemandFlow.Proofs.Stream.Tracking
import DemandFlow.Proofs.Stream.Auditing
import DemandFlow.Proofs.Stream.Carrying
import DemandFlow.Proofs.Stream.Demand
import DemandFlow.Proofs.Stream.Installation
import DemandFlow.Proofs.Stream.Compilation
import DemandFlow.Proofs.Stream.Refinement
import DemandFlow.Proofs.Stream.Handling
import DemandFlow.Proofs.Stream.Standard
import DemandFlow.Proofs.Graph.Representation
import DemandFlow.Proofs.Graph.Passage
import DemandFlow.Proofs.Interpreter.Isolation
import DemandFlow.Proofs.Interpreter.Jam
import DemandFlow.Proofs.Interpreter.Fixpoint
import DemandFlow.Proofs.Net.Commutation
import DemandFlow.Proofs.Net.Embedding
import DemandFlow.Proofs.Interpreter.Confluence
import DemandFlow.Proofs.Messages.Custody
import DemandFlow.Proofs.Graph.Indifference
import DemandFlow.Proofs.Graph.Instrumentation
import DemandFlow.Proofs.Graph.Supply
import DemandFlow.Proofs.Interpreter.Transparency
import DemandFlow.Proofs.Stream.Admission
import DemandFlow.Proofs.Stream.Topology
import DemandFlow.Proofs.Graph.Metering
import DemandFlow.Proofs.Graph.Candor
import DemandFlow.Proofs.Interpreter.Exactness
import DemandFlow.Proofs.Interpreter.Limit
import DemandFlow.Proofs.Interpreter.Answer
import DemandFlow.Proofs.Messages.Concord
import DemandFlow.Proofs.Graph.Trim
import DemandFlow.Proofs.Interpreter.Window
import DemandFlow.Proofs.Stream.Freezing
import DemandFlow.Proofs.Interpreter.Halting
import DemandFlow.Proofs.Interpreter.Consumption
import DemandFlow.Proofs.Messages.Typing
import DemandFlow.Proofs.Net.Line
import DemandFlow.Proofs.Interpreter.Pipeline
import DemandFlow.Proofs.Interpreter.Sparing
import DemandFlow.Proofs.Interpreter.Joining
import DemandFlow.Proofs.Interpreter.Shape
import DemandFlow.Proofs.Interpreter.Statistics
import DemandFlow.Proofs.Interpreter.Productivity
import DemandFlow.Proofs.Graph.Glimpse
import DemandFlow.Proofs.Interpreter.Lockstep
import DemandFlow.Proofs.Stream.Inspection
import DemandFlow.Proofs.Graph.Growth
import DemandFlow.Proofs.Interpreter.Complement
import DemandFlow.Proofs.Interpreter.Conformance
import DemandFlow.Proofs.Stream.Rounds
import DemandFlow.Proofs.Stream.Dealing
import DemandFlow.Proofs.Messages.Backlog
import DemandFlow.Proofs.Channel.Fifo
import DemandFlow.Proofs.Graph.Reachability
import DemandFlow.Proofs.Yaml.Words
import DemandFlow.Proofs.Yaml.Settings
import DemandFlow.Proofs.Config.RoundTrip
