import DemandFlow.Work.Routine

/-!
The standard bodies: passing elements on, copying them to every output, dealing
them out in turn and collecting them in turn. They work for elements of any type
and ignore messages.
-/

set_option autoImplicit false

namespace DemandFlow

namespace Routine

variable {α μ : Type}

def andThen (first : Routine α μ (Except Error Unit))
    (next : Unit → Routine α μ (Except Error Unit)) : Routine α μ (Except Error Unit) :=
  first.bind fun
    | .error error => .done (.error error)
    | .ok () => next ()

def forEach (action : Nat → Routine α μ (Except Error Unit)) :
    List Nat → Routine α μ (Except Error Unit)
  | [] => .done (.ok ())
  | item :: rest => (action item).andThen (fun _ => forEach action rest)

def times (action : Routine α μ (Except Error Unit)) : Nat → Routine α μ (Except Error Unit)
  | 0 => .done (.ok ())
  | count + 1 => action.andThen (fun _ => times action count)

def transfer (input output : Nat) : Routine α μ (Except Error Unit) :=
  .pop input fun
    | .error error => .done (.error error)
    | .ok element => .push output element .done

/-- Takes one element and puts a copy of it on each of the first outputs. -/
def spread (input outputs : Nat) : Routine α μ (Except Error Unit) :=
  .pop input fun
    | .error error => .done (.error error)
    | .ok element => forEach (fun output => .push output element .done) (List.range outputs)

end Routine

inductive Standard where
  /-- Passes each element on unchanged. -/
  | identity
  /-- Copies each element to every output. -/
  | duplicate
  /-- Deals `weight` consecutive elements to each output in turn. -/
  | roundRobinSplit (weight : Nat)
  /-- Collects `weight` consecutive elements from each input in turn. -/
  | roundRobinJoin (weight : Nat)
  deriving DecidableEq

namespace Standard

def typeOf : Standard → BodyType
  | .identity => .identity
  | .duplicate => .duplicate
  | .roundRobinSplit _ => .roundRobinSplit
  | .roundRobinJoin _ => .roundRobinJoin

def rates (body : Standard) (shape : PortShape) : WorkerRates :=
  match body with
  | .identity => .single (.exact 0) (.exact 1) (.exact 1)
  | .duplicate =>
      { peek := [.exact 0], pop := [.exact 1], push := .replicate shape.outputs (.exact 1) }
  | .roundRobinSplit weight =>
      { peek := [.exact 0]
        pop := [.exact (countProduct weight shape.outputs)]
        push := .replicate shape.outputs (.exact weight) }
  | .roundRobinJoin weight =>
      { peek := .replicate shape.inputs (.exact 0)
        pop := .replicate shape.inputs (.exact weight)
        push := [.exact (countProduct weight shape.inputs)] }

/-- The products in the rates are counts. With others a body does not keep to its rates. -/
def Countable (body : Standard) (shape : PortShape) : Prop :=
  match body with
  | .identity | .duplicate => True
  | .roundRobinSplit weight => weight * shape.outputs ≤ maxCount
  | .roundRobinJoin weight => weight * shape.inputs ≤ maxCount

instance (body : Standard) (shape : PortShape) : Decidable (body.Countable shape) :=
  match body with
  | .identity => isTrue trivial
  | .duplicate => isTrue trivial
  | .roundRobinSplit weight => inferInstanceAs (Decidable (weight * shape.outputs ≤ maxCount))
  | .roundRobinJoin weight => inferInstanceAs (Decidable (weight * shape.inputs ≤ maxCount))

def routine {α μ : Type} (body : Standard) (shape : PortShape) :
    Routine α μ (Except Error Unit) :=
  match body with
  | .identity => .transfer 0 0
  | .duplicate => .spread 0 shape.outputs
  | .roundRobinSplit weight =>
      .forEach (fun output => .times (.transfer 0 output) weight) (List.range shape.outputs)
  | .roundRobinJoin weight =>
      .forEach (fun input => .times (.transfer input 0) weight) (List.range shape.inputs)

def work {α μ : Type} (body : Standard) (firing : Firing) :
    Routine α μ (Except Error Unit × Standard) :=
  (body.routine firing.shape).bind (fun answer => .done (answer, body))

end Standard

instance : Signature Standard where
  typeOf := Standard.typeOf
  rates := Standard.rates

instance {α μ : Type} : Work Standard α μ where
  work := Standard.work

instance {μ : Type} : Recipient Standard μ where
  receive := fun body _ => body

end DemandFlow
