import DemandFlow.Config.Basic
import DemandFlow.Graph.Builder
import DemandFlow.Interpreter.Pull

/-!
Compiled streams: a graph with one input and one output behind an interpreter.
Elements are offered one at a time, results are polled, and draining stops the intake
and reports whether anything was left behind.
-/

set_option autoImplicit false

namespace DemandFlow

structure CompiledStream (β α μ : Type) where
  interpreter : Interpreter β α μ
  /-- The token of the one input. -/
  input : BoundaryToken
  /-- The token of the one output. -/
  output : BoundaryToken
  draining : Bool := false
  checkPendingMessages : Bool

namespace CompiledStream

variable {β α μ : Type}

def attaches (interpreter : Interpreter β α μ) (token : BoundaryToken) (worker : WorkerId) :
    Bool :=
  (interpreter.boundary? token).bind BoundaryChannel.worker == some worker

def create (interpreter : Interpreter β α μ) (head tail : WorkerId)
    (checkPendingMessages : Bool) : Except Error (CompiledStream β α μ) :=
  match interpreter.tokens .input, interpreter.tokens .output with
  | [input], [output] =>
      if attaches interpreter input head && attaches interpreter output tail then
        .ok
          { interpreter := interpreter
            input := input
            output := output
            checkPendingMessages := checkPendingMessages }
      else
        .error (.invalidGraph (.boundaryEnds head tail))
  | inputs, outputs => .error (.invalidGraph (.boundaryCount inputs.length outputs.length))

def interpret [Recipient β μ] [Work β α μ] (fuel : Nat) (stream : CompiledStream β α μ) :
    Option (Outcome Bool (CompiledStream β α μ)) :=
  (stream.interpreter.interpret fuel).map fun (answer, interpreter) =>
    (answer, { stream with interpreter := interpreter })

/-- Puts one element in and interprets. Once draining has begun the element is turned
away. -/
def offer [Recipient β μ] [Work β α μ] (fuel : Nat) (stream : CompiledStream β α μ)
    (element : α) : Option (Outcome Bool (CompiledStream β α μ)) :=
  if stream.draining then
    some (.ok false, stream)
  else
    match stream.interpreter.pushAll? stream.input [element] with
    | none => some (.error (.invalidGraph (.missingBoundary stream.input)), stream)
    | some interpreter =>
        match interpret fuel { stream with interpreter := interpreter } with
        | none => none
        | some (.error error, stream) => some (.error error, stream)
        | some (.ok _, stream) => some (.ok true, stream)

def poll (stream : CompiledStream β α μ) : Option α × CompiledStream β α μ :=
  match stream.interpreter.pop? stream.output with
  | none => (none, stream)
  | some (answer, interpreter) =>
      (answer.toOption, { stream with interpreter := interpreter })

def pollAll (stream : CompiledStream β α μ) : List α × CompiledStream β α μ :=
  match stream.interpreter.popAll? stream.output with
  | none => ([], stream)
  | some (elements, interpreter) => (elements, { stream with interpreter := interpreter })

def peek? (stream : CompiledStream β α μ) (token : BoundaryToken) (index : Nat) :
    Option (Outcome α (CompiledStream β α μ)) :=
  (stream.interpreter.peek? token index).map fun (answer, interpreter) =>
    (answer, { stream with interpreter := interpreter })

def undrained (stream : CompiledStream β α μ) : Nat :=
  let graph := stream.interpreter.graph
  let output := stream.interpreter.channelId? stream.output
  tally (fun id => (graph.bank.channel id).size)
    ((List.range graph.channelCount).filter (fun id => some id != output))

def isDrained (stream : CompiledStream β α μ) : Bool :=
  stream.undrained == 0 &&
    (!stream.checkPendingMessages || stream.interpreter.graph.pendingMessages == 0)

/-- Stops the intake, interprets, and tells whether nothing is left behind. -/
def drain [Recipient β μ] [Work β α μ] (fuel : Nat) (stream : CompiledStream β α μ) :
    Option (Outcome Bool (CompiledStream β α μ)) :=
  match interpret fuel { stream with draining := true } with
  | none => none
  | some (.error error, stream) => some (.error error, stream)
  | some (.ok _, stream) => some (.ok stream.isDrained, stream)

end CompiledStream

end DemandFlow
