import DemandFlow.Channel.Bank
import DemandFlow.Messages.Queue

/-!
Work routines. A routine is a tree of requests: each node asks for one operation on
a port, or sends a message, and continues with the answer. So a routine can do
nothing to a graph except through the ports of its worker.
-/

set_option autoImplicit false

namespace DemandFlow

/-- What a firing does, ending in a result of type `ρ`. Elements have type `α`,
messages type `μ`. -/
inductive Routine (α μ ρ : Type) where
  | done (result : ρ)
  | pop (input : Nat) (next : Except Error α → Routine α μ ρ)
  | peek (input index : Nat) (next : Except Error α → Routine α μ ρ)
  | available (input : Nat) (next : Except Error Nat → Routine α μ ρ)
  | push (output : Nat) (element : α) (next : Except Error Unit → Routine α μ ρ)
  | send (portal : Portal) (payload : μ) (next : Routine α μ ρ)

namespace Routine

variable {α μ ρ σ : Type}

def bind : Routine α μ ρ → (ρ → Routine α μ σ) → Routine α μ σ
  | .done result, rest => rest result
  | .pop input next, rest => .pop input (fun answer => (next answer).bind rest)
  | .peek input index next, rest => .peek input index (fun answer => (next answer).bind rest)
  | .available input next, rest => .available input (fun answer => (next answer).bind rest)
  | .push output element next, rest =>
      .push output element (fun answer => (next answer).bind rest)
  | .send portal payload next, rest => .send portal payload (next.bind rest)

/-- The state a routine works on: the channels, and what it has sent so far. -/
structure Scene (α μ : Type) where
  bank : Bank α
  outbox : List (Outgoing μ) := []

/-- Answers the requests of a routine from the channels on the ports of `worker`. -/
def run (worker : WorkerId) (inputs outputs : List Port) :
    Routine α μ ρ → Scene α μ → ρ × Scene α μ
  | .done result, scene => (result, scene)
  | .pop input next, scene =>
      match inputs[input]? with
      | none => (next (.error (.invalidGraph (.missingInput worker input)))).run
          worker inputs outputs scene
      | some port =>
          let (answer, bank) := scene.bank.pop port.channel
          (next answer).run worker inputs outputs { scene with bank := bank }
  | .peek input index next, scene =>
      match inputs[input]? with
      | none => (next (.error (.invalidGraph (.missingInput worker input)))).run
          worker inputs outputs scene
      | some port =>
          let (answer, bank) := scene.bank.peek port.channel index
          (next answer).run worker inputs outputs { scene with bank := bank }
  | .available input next, scene =>
      match inputs[input]? with
      | none => (next (.error (.invalidGraph (.missingInput worker input)))).run
          worker inputs outputs scene
      | some port =>
          (next (.ok (scene.bank.channel port.channel).size)).run worker inputs outputs scene
  | .push output element next, scene =>
      match outputs[output]? with
      | none => (next (.error (.invalidGraph (.missingOutput worker output)))).run
          worker inputs outputs scene
      | some port =>
          (next (.ok ())).run worker inputs outputs
            { scene with bank := scene.bank.push port.channel element }
  | .send portal payload next, scene =>
      next.run worker inputs outputs
        { scene with outbox := scene.outbox ++ [{ portal := portal, payload := payload }] }

/-- A sequence runs its first part and then the second one on what the first has left. -/
theorem run_bind (worker : WorkerId) (inputs outputs : List Port) (routine : Routine α μ ρ)
    (rest : ρ → Routine α μ σ) (scene : Scene α μ) :
    (routine.bind rest).run worker inputs outputs scene =
      let (result, scene) := routine.run worker inputs outputs scene
      (rest result).run worker inputs outputs scene := by
  induction routine generalizing scene with
  | done result => rfl
  | pop input next inductionHypothesis =>
      simp only [bind, run]
      cases inputs[input]? <;> simp [inductionHypothesis]
  | peek input index next inductionHypothesis =>
      simp only [bind, run]
      cases inputs[input]? <;> simp [inductionHypothesis]
  | available input next inductionHypothesis =>
      simp only [bind, run]
      cases inputs[input]? <;> simp [inductionHypothesis]
  | push output element next inductionHypothesis =>
      simp only [bind, run]
      cases outputs[output]? <;> simp [inductionHypothesis]
  | send portal payload next inductionHypothesis => simp only [bind, run, inductionHypothesis]

end Routine

/-- What a body is told about the firing it is asked for. -/
structure Firing where
  worker : WorkerId
  /-- Firings completed before this one. -/
  executions : Nat
  shape : PortShape

/-- What a graph asks of a body when it is built: the type of the body, and its rates
for the final port counts. -/
class Signature (β : Type) where
  typeOf : β → BodyType
  rates : β → PortShape → WorkerRates

/-- What a delivered message does to a body. -/
class Recipient (β μ : Type) where
  receive : β → μ → β

/-- How a body works. One firing ends in success or failure and in the next state of the
body, also when it fails. -/
class Work (β α μ : Type) where
  work : β → Firing → Routine α μ (Except Error Unit × β)

end DemandFlow
