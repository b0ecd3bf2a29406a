import DemandFlow.Work.Standard
import DemandFlow.Work.Script

/-!
The bodies of graphs over signed 64-bit elements: the standard ones, scripted bodies
with a type of their own, and filters made from a script alone.
-/

set_option autoImplicit false

namespace DemandFlow

/-- Declared rates of the ports on one side: listed one by one, or one for each port
there turns out to be. -/
inductive PortRates where
  | listed (rates : List Rate)
  | each (rate : Rate)

def PortRates.forPorts (rates : PortRates) (count : Nat) : List Rate :=
  match rates with
  | .listed rates => rates
  | .each rate => .replicate count rate

structure Scripted where
  /-- The name of its body type. -/
  typeName : String
  peek : PortRates
  pop : PortRates
  push : PortRates
  script : Script
  memory : Memory := {}

/-- A filter that is only a routine with rates. Nothing can be sent to it. -/
structure ClosureFilter where
  peek : Rate := .exact 0
  pop : Rate
  push : Rate
  script : Script
  memory : Memory := {}

def ClosureFilter.detail (filter : ClosureFilter) : String :=
  Text.partialRecord "FnFilter"
    [("peek", filter.peek.detail), ("pop", filter.pop.detail), ("push", filter.push.detail)]

inductive Body where
  | standard (body : Standard)
  | scripted (body : Scripted)
  | closure (filter : ClosureFilter)

namespace Body

def typeOf : Body → BodyType
  | .standard body => body.typeOf
  | .scripted body => .named body.typeName
  | .closure _ => .closure

def rates (body : Body) (shape : PortShape) : WorkerRates :=
  match body with
  | .standard body => body.rates shape
  | .scripted body =>
      { peek := body.peek.forPorts shape.inputs
        pop := body.pop.forPorts shape.inputs
        push := body.push.forPorts shape.outputs }
  | .closure filter => .single filter.peek filter.pop filter.push

def work (body : Body) (firing : Firing) :
    Routine Int64 Notice (Except Error Unit × Body) :=
  match body with
  | .standard body =>
      (body.work firing).bind (fun (answer, body) => .done (answer, .standard body))
  | .scripted body =>
      (body.script.run firing { memory := body.memory }).bind (fun (answer, machine) =>
        .done (answer, .scripted { body with memory := machine.memory }))
  | .closure filter =>
      (filter.script.run firing { memory := filter.memory }).bind (fun (answer, machine) =>
        .done (answer, .closure { filter with memory := machine.memory }))

def receive (body : Body) (notice : Notice) : Body :=
  match body with
  | .scripted body => .scripted { body with memory := body.memory.receive notice }
  | other => other

def memory? (body : Body) (typeName : String) : Option Memory :=
  match body with
  | .scripted body => if body.typeName = typeName then some body.memory else none
  | _ => none

def setRegister? (body : Body) (typeName : String) (value : Int64) : Option (Int64 × Body) :=
  match body with
  | .scripted body =>
      if body.typeName = typeName then
        some (body.memory.register,
          .scripted { body with memory := { body.memory with register := value } })
      else
        none
  | _ => none

end Body

instance : Signature Body where
  typeOf := Body.typeOf
  rates := Body.rates

instance : Work Body Int64 Notice where
  work := Body.work

instance : Recipient Body Notice where
  receive := Body.receive

end DemandFlow
