import DemandFlow.Graph.Basic

/-!
Auditing a firing. After a firing the counts on the channels of the worker tell what
it did: how far it peeked, how much it popped and how much it pushed. Each count must
lie inside the declared rate. A channel's counts are reset once they are checked.
-/

set_option autoImplicit false

namespace DemandFlow.Graph

variable {β α μ : Type}

def checkRate (worker : Label) (port : Nat) (kind : RateKind) (declared : Rate)
    (observed : Nat) : Except Error Unit :=
  if declared.admits observed then .ok ()
  else .error (.rateViolation worker port kind declared observed)

def auditStats (graph : Graph β α μ) (worker : Label) (channel : ChannelId) :
    Except Error ChannelStats :=
  match (graph.bank.channel channel).stats with
  | none => .error (.configuration (.uninstrumented channel worker))
  | some stats => .ok stats

def checkInput (graph : Graph β α μ) (worker : Label) (port : Nat) (channel : ChannelId)
    (peek pop : Rate) : Except Error Unit :=
  match graph.auditStats worker channel with
  | .error error => .error error
  | .ok stats =>
      match checkRate worker port .peek peek stats.peekExtent with
      | .error error => .error error
      | .ok () => checkRate worker port .pop pop stats.popCount

def checkOutput (graph : Graph β α μ) (worker : Label) (port : Nat) (channel : ChannelId)
    (push : Rate) : Except Error Unit :=
  match graph.auditStats worker channel with
  | .error error => .error error
  | .ok stats => checkRate worker port .push push stats.pushCount

def resetStats (graph : Graph β α μ) (channel : ChannelId) : Graph β α μ :=
  { graph with bank := graph.bank.resetStats channel }

/-- Audits the inputs from number `port` on, up to the first violation. -/
def auditInputs (graph : Graph β α μ) (worker : Label) (port : Nat) :
    List (ChannelId × Rate × Rate) → Outcome Unit (Graph β α μ)
  | [] => (.ok (), graph)
  | (channel, peek, pop) :: rest =>
      match graph.checkInput worker port channel peek pop with
      | .error error => (.error error, graph)
      | .ok () => (graph.resetStats channel).auditInputs worker (port + 1) rest

/-- Audits the outputs from number `port` on, up to the first violation. -/
def auditOutputs (graph : Graph β α μ) (worker : Label) (port : Nat) :
    List (ChannelId × Rate) → Outcome Unit (Graph β α μ)
  | [] => (.ok (), graph)
  | (channel, push) :: rest =>
      match graph.checkOutput worker port channel push with
      | .error error => (.error error, graph)
      | .ok () => (graph.resetStats channel).auditOutputs worker (port + 1) rest

def audit (graph : Graph β α μ) (id : WorkerId) : Outcome Unit (Graph β α μ) :=
  match graph.worker? id with
  | none => (.error (.invalidGraph (.unknownWorker id)), graph)
  | some worker =>
      let inputs := worker.inputChannels.zip (worker.rates.peek.zip worker.rates.pop)
      let outputs := worker.outputChannels.zip worker.rates.push
      match graph.auditInputs worker.label 0 inputs with
      | (.error error, graph) => (.error error, graph)
      | (.ok (), graph) => graph.auditOutputs worker.label 0 outputs

end DemandFlow.Graph
