import DemandFlow.Interpreter.Section

/-!
Pulling a worker. A pull fires a worker once, and before it whatever the worker
depends on: the producers of its starved inputs, and the senders whose next message
would be due at or before its next firing. The workers waiting for each other form a
stack; a worker that comes to wait for itself can never fire.
-/

set_option autoImplicit false

namespace DemandFlow

/-- How many elements an input must hold before its worker may fire, if both rates have a
known maximum. -/
def demand? (peek pop : Rate) : Option Nat :=
  match peek.max.known?, pop.max.known? with
  | some peekMax, some popMax => some (max peekMax popMax)
  | _, _ => none

namespace Worker

variable {β α μ : Type}

def starvedFrom (worker : Worker β μ) (bank : Bank α) (input : Nat) :
    List (Port × Rate × Rate) → Except Error (Option Nat)
  | [] => .ok none
  | (port, peek, pop) :: rest =>
      match demand? peek pop with
      | none => .error (.unsupportedRate worker.label input peek pop)
      | some required =>
          if (bank.channel port.channel).size < required then .ok (some input)
          else worker.starvedFrom bank (input + 1) rest

def starvedInput (worker : Worker β μ) (bank : Bank α) : Except Error (Option Nat) :=
  worker.starvedFrom bank 0 (worker.inputs.zip (worker.rates.peek.zip worker.rates.pop))

end Worker

/-- What a pull comes to after a look at the top of its stack. -/
inductive PullStep (β α μ : Type) where
  /-- The pull is over. -/
  | stop (answer : Except Error Bool) (interpreter : Interpreter β α μ)
  /-- The pull goes on with the given stack, top first. -/
  | proceed (stack : List WorkerId) (interpreter : Interpreter β α μ)

namespace Interpreter

variable {β α μ : Type}

/-- Whether a message that the sender would send next is due at or before the given
firing of the recipient. -/
def isDue (interpreter : Interpreter β α μ) (firing : Nat) (constraint : Constraint) : Bool :=
  match interpreter.graph.executions? constraint.sender with
  | none => false
  | some sent => decide (constraint.deliveryTime sent ≤ firing)

/-- A sender that must fire before a given firing of the recipient. -/
def dueSender? (interpreter : Interpreter β α μ) (recipient : WorkerId) (firing : Nat) :
    Option WorkerId :=
  (interpreter.constraints.find? (fun constraint =>
    constraint.recipient == recipient && interpreter.isDue firing constraint)).map
    Constraint.sender

def producer? (interpreter : Interpreter β α μ) (worker : Worker β μ) (input : Nat) :
    Option WorkerId :=
  (worker.inputs[input]?.bind Port.peer).filter interpreter.members.contains

def countStall (interpreter : Interpreter β α μ) : Interpreter β α μ :=
  { interpreter with
    stats := { interpreter.stats with stalledPulls := interpreter.stats.stalledPulls + 1 } }

def countFiring (interpreter : Interpreter β α μ) (worker : WorkerId) : Interpreter β α μ :=
  { interpreter with
    stats := { interpreter.stats with firings := interpreter.stats.firings + 1 }
    journal := interpreter.journal ++ [worker] }

/-- Fires the top of the stack and has the firing followed up. -/
def fireTop [Recipient β μ] [Work β α μ] (interpreter : Interpreter β α μ)
    (current : WorkerId) (waiting : List WorkerId) : PullStep β α μ :=
  match interpreter.graph.fire current with
  | (.error error, graph) => .stop (.error error) { interpreter with graph := graph }
  | (.ok (), graph) =>
      let fired := countFiring { interpreter with graph := graph } current
      match fired.delegate.afterFire fired.stats.firings fired.graph current with
      | (.error error, graph) => .stop (.error error) { fired with graph := graph }
      | (.ok (), graph) => .proceed waiting { fired with graph := graph }

/-- One step of a pull: `current` is on top of the stack, over the workers that wait. -/
def pullStep [Recipient β μ] [Work β α μ] (interpreter : Interpreter β α μ)
    (current : WorkerId) (waiting : List WorkerId) : PullStep β α μ :=
  match interpreter.graph.worker? current with
  | none => .stop (.error (.invalidGraph (.unknownWorker current))) interpreter
  | some worker =>
      if waiting.contains current then
        .stop (.error (.unsatisfiableConstraints worker.label)) interpreter
      else
        match worker.starvedInput interpreter.graph.bank with
        | .error error => .stop (.error error) interpreter
        | .ok (some input) =>
            match interpreter.producer? worker input with
            | some producer => .proceed (producer :: current :: waiting) interpreter
            | none => .stop (.ok false) interpreter.countStall
        | .ok none =>
            match interpreter.dueSender? current worker.upcoming with
            | some sender => .proceed (sender :: current :: waiting) interpreter
            | none => interpreter.fireTop current waiting

/-- At most `fuel` steps of a pull. There is no answer if they do not suffice; the answer
is whether the pull fired the worker at the bottom of the stack. -/
def pullSteps [Recipient β μ] [Work β α μ] :
    Nat → List WorkerId → Interpreter β α μ → Option (Outcome Bool (Interpreter β α μ))
  | 0, _, _ => none
  | _ + 1, [], interpreter => some (.ok true, interpreter)
  | fuel + 1, current :: waiting, interpreter =>
      match interpreter.pullStep current waiting with
      | .stop answer interpreter => some (answer, interpreter)
      | .proceed stack interpreter => pullSteps fuel stack interpreter

/-- Fires a worker once, after whatever it depends on. The answer is false if elements are
needed from outside the section. -/
def pull [Recipient β μ] [Work β α μ] (fuel : Nat) (interpreter : Interpreter β α μ)
    (worker : WorkerId) : Option (Outcome Bool (Interpreter β α μ)) :=
  pullSteps fuel [worker]
    { interpreter with
      stats := { interpreter.stats with pulls := interpreter.stats.pulls + 1 } }

/-- Pulls each of the sinks once and tells whether one of them fired by it. -/
def pass [Recipient β μ] [Work β α μ] (fuel : Nat) (fired : Bool) :
    List WorkerId → Interpreter β α μ → Option (Outcome Bool (Interpreter β α μ))
  | [], interpreter => some (.ok fired, interpreter)
  | sink :: rest, interpreter =>
      match interpreter.pull fuel sink with
      | none => none
      | some (.error error, interpreter) => some (.error error, interpreter)
      | some (.ok progress, interpreter) => pass fuel (fired || progress) rest interpreter

def passes [Recipient β μ] [Work β α μ] (pullFuel : Nat) :
    Nat → Option Nat → Bool → Interpreter β α μ →
      Option (Outcome Bool (Interpreter β α μ))
  | 0, _, _, _ => none
  | _ + 1, some 0, everFired, interpreter => some (.ok everFired, interpreter)
  | fuel + 1, remaining, everFired, interpreter =>
      match pass pullFuel false interpreter.sinks
          { interpreter with
            stats := { interpreter.stats with passes := interpreter.stats.passes + 1 } } with
      | none => none
      | some (.error error, interpreter) => some (.error error, interpreter)
      | some (.ok false, interpreter) => some (.ok everFired, interpreter)
      | some (.ok true, interpreter) =>
          passes pullFuel fuel (remaining.map (· - 1)) true interpreter

/-- Pulls every sink until a whole pass fires none of them. The answer is whether a sink
fired in this call. Every pull and the sequence of passes have `fuel` steps each; if they
do not suffice there is no answer. -/
def interpret [Recipient β μ] [Work β α μ] (fuel : Nat) (interpreter : Interpreter β α μ) :
    Option (Outcome Bool (Interpreter β α μ)) :=
  passes fuel fuel interpreter.maxPasses false
    { interpreter with
      stats := { interpreter.stats with
        interpretCalls := interpreter.stats.interpretCalls + 1 } }

end Interpreter

end DemandFlow
