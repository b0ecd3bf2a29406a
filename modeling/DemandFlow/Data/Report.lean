import DemandFlow.Data.Encode

/-!
Reports in plain data: everything there is to know about a rate, a channel, a worker,
a graph or an interpreter at one moment.
-/

set_option autoImplicit false

namespace DemandFlow

namespace Value

def ids (ids : List Nat) : Value :=
  .ofList .nat ids

def texts (texts : List String) : Value :=
  .ofList .text texts

end Value

def RateBound.report (bound : RateBound) : Value :=
  .list [.text bound.text, .ofOption Value.nat bound.known?, .bool bound.isDynamic]

def Rate.report (rate : Rate) (observed : List Nat) : Value :=
  .record
    [("display", .text rate.text),
      ("debug", .text rate.detail),
      ("json", rate.encode),
      ("min", rate.min.report),
      ("max", rate.max.report),
      ("avg", rate.avg.report),
      ("partially", .bool rate.isPartiallyDynamic),
      ("fully", .bool rate.isFullyDynamic),
      ("dynamic", .bool rate.isDynamic),
      ("admits", .ofList (fun count => .bool (rate.admits count)) observed)]

def ChannelStats.report (stats : ChannelStats) : Value :=
  .record
    [("max_peek_index", .ofOption Value.nat stats.maxPeekIndex),
      ("pop_count", .nat stats.popCount),
      ("push_count", .nat stats.pushCount),
      ("peek_extent", .nat stats.peekExtent)]

def Channel.report {α : Type} (channel : Option (Channel α)) : Value :=
  .record
    [("size", .ofOption (fun channel => .nat channel.size) channel),
      ("empty", .ofOption (fun channel => .bool channel.isEmpty) channel),
      ("stats", .ofOption ChannelStats.report (channel.bind Channel.stats))]

def Message.report {μ : Type} (message : Message μ) : Value :=
  .ids [message.portal, message.deliveryTime]

def MessageQueue.report {μ : Type} (queue : MessageQueue μ) : Value :=
  .ofList Message.report queue.messages

def Worker.report {β μ : Type} (worker : Worker β μ) : Value :=
  .record
    [("id", .nat worker.id),
      ("name", .text worker.name),
      ("kind", .text worker.kind.text),
      ("label", .text worker.label.text),
      ("executions", .nat worker.executions),
      ("inputs", .ofList Port.encode worker.inputs),
      ("outputs", .ofList Port.encode worker.outputs),
      ("peek", .texts (worker.rates.peek.map Rate.text)),
      ("pop", .texts (worker.rates.pop.map Rate.text)),
      ("push", .texts (worker.rates.push.map Rate.text)),
      ("rates", worker.rates.encode),
      ("pending", .nat worker.queue.size),
      ("front", .ofOption Value.nat worker.queue.frontTime?),
      ("empty", .bool worker.queue.isEmpty),
      ("debug", .text worker.detail)]

namespace Graph

variable {β α μ : Type}

def workerReport (graph : Graph β α μ) (id : WorkerId) : Value :=
  let known := graph.worker? id
  let peers (ids : List (Option WorkerId)) : Value := .ofList (.ofOption Value.nat) ids
  .record
    [("known", .bool known.isSome),
      ("node", .ofOption Worker.report known),
      ("executions", .ofOption Value.nat (graph.executions? id)),
      ("predecessors", peers ((known.map Worker.predecessors).getD [])),
      ("successors", peers ((known.map Worker.successors).getD [])),
      ("input_channels", .ids ((known.map Worker.inputChannels).getD [])),
      ("output_channels", .ids ((known.map Worker.outputChannels).getD [])),
      ("reachable", .ids (graph.reachableFrom id))]

def snapshot (graph : Graph β α μ) : Value :=
  .record
    [("exec", .ids (graph.workers.map Worker.executions)),
      ("sizes", .ids graph.channelSizes),
      ("queues", .ofList (fun worker => worker.queue.report) graph.workers),
      ("pending", .nat graph.pendingMessages)]

def counts (graph : Graph β α μ) : Value :=
  .record
    [("workers", .nat graph.workers.length),
      ("channels", .nat graph.channelCount),
      ("sinks", .ids graph.sinks),
      ("sources", .ids graph.sources),
      ("constraints",
        .texts (graph.constraints.map (fun constraint => constraint.summary.text)))]

end Graph

def Interpreter.report {β α μ : Type} (interpreter : Interpreter β α μ) : Value :=
  .record
    [("workers", .ids interpreter.members),
      ("sinks", .ids interpreter.sinks),
      ("inputs", .ids (interpreter.tokens .input)),
      ("outputs", .ids (interpreter.tokens .output)),
      ("boundaries", .ofList BoundaryChannel.encode interpreter.boundaries)]

end DemandFlow
