import DemandFlow.Config.Basic
import DemandFlow.Data.Value
import DemandFlow.Graph.Basic
import DemandFlow.Interpreter.Section

/-!
The plain-data form of rates, ports, boundaries, configurations, statistics and
graphs. Names are in lower case, with underscores between words.
-/

set_option autoImplicit false

namespace DemandFlow

def RateBound.encode : RateBound → Value
  | .known count => .record [("known", .nat count)]
  | .dynamic => .text "dynamic"

def Rate.encode (rate : Rate) : Value :=
  .record [("min", rate.min.encode), ("max", rate.max.encode), ("avg", rate.avg.encode)]

def WorkerRates.encode (rates : WorkerRates) : Value :=
  .record
    [("peek", .ofList Rate.encode rates.peek),
      ("pop", .ofList Rate.encode rates.pop),
      ("push", .ofList Rate.encode rates.push)]

def Port.encode (port : Port) : Value :=
  .record [("peer", .ofOption Value.nat port.peer), ("channel", .nat port.channel)]

def BoundaryChannel.encode (boundary : BoundaryChannel) : Value :=
  .record
    [("channel", .nat boundary.channel),
      ("upstream", .ofOption Value.nat boundary.producer),
      ("downstream", .ofOption Value.nat boundary.consumer),
      ("direction", .text boundary.direction.text)]

def Config.encode (config : Config) : Value :=
  .record
    [("audit_rates", .bool config.auditRates),
      ("channel", .text config.channel.text),
      ("channel_capacity", .nat config.channelCapacity),
      ("max_passes", .ofOption Value.nat config.maxPasses),
      ("check_pending_messages", .bool config.checkPendingMessages)]

def InterpreterStats.encode (stats : InterpreterStats) : Value :=
  .record
    [("interpret_calls", .nat stats.interpretCalls),
      ("passes", .nat stats.passes),
      ("pulls", .nat stats.pulls),
      ("stalled_pulls", .nat stats.stalledPulls),
      ("firings", .nat stats.firings)]

def ConstraintSummary.encode (summary : ConstraintSummary) : Value :=
  .record
    [("sender", .nat summary.route.sender),
      ("recipient", .nat summary.route.recipient),
      ("portal", .nat summary.route.portal),
      ("schedule", .text summary.schedule)]

def Worker.encode {β μ : Type} (worker : Worker β μ) : Value :=
  .record
    [("id", .nat worker.id),
      ("name", .text worker.name),
      ("kind", .text worker.kind.text),
      ("inputs", .ofList Port.encode worker.inputs),
      ("outputs", .ofList Port.encode worker.outputs),
      ("rates", worker.rates.encode),
      ("executions", .nat worker.executions),
      ("pending_messages", .nat worker.queue.size)]

def Graph.encode {β α μ : Type} (graph : Graph β α μ) : Value :=
  .record
    [("workers", .ofList Worker.encode graph.workers),
      ("channels", .list ((List.range graph.channelCount).map fun id =>
        .record [("id", .nat id), ("size", .nat (graph.bank.channel id).size)])),
      ("constraints", .ofList (fun constraint => constraint.summary.encode) graph.constraints)]

end DemandFlow
