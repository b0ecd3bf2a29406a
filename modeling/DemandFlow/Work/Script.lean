import DemandFlow.Work.Routine

/-!
Scripts: small programs for work bodies over signed 64-bit elements. A script runs
on a stack that is fresh in every firing; what lasts from firing to firing is a
register and a log. Arithmetic wraps around, and taking from an empty stack gives
zero.
-/

set_option autoImplicit false

namespace DemandFlow

/-- What a message does to the state of the body it reaches. -/
inductive Directive where
  | setRegister
  | addToRegister
  | appendToLog
  deriving DecidableEq

structure Notice where
  directive : Directive
  value : Int64
  deriving DecidableEq

/-- The part of a scripted body that lasts. -/
structure Memory where
  register : Int64 := 0
  log : List Int64 := []
  deriving DecidableEq

def Memory.receive (memory : Memory) (notice : Notice) : Memory :=
  match notice.directive with
  | .setRegister => { memory with register := notice.value }
  | .addToRegister => { memory with register := memory.register + notice.value }
  | .appendToLog => { memory with log := memory.log ++ [notice.value] }

structure Machine where
  memory : Memory
  stack : List Int64 := []
  deriving DecidableEq

namespace Machine

def take (machine : Machine) : Int64 × Machine :=
  match machine.stack with
  | [] => (0, machine)
  | top :: rest => (top, { machine with stack := rest })

def put (machine : Machine) (value : Int64) : Machine :=
  { machine with stack := value :: machine.stack }

/-- Takes two values and puts back what `combine` makes of the lower and the upper. -/
def combine (machine : Machine) (operation : Int64 → Int64 → Int64) : Machine :=
  let (upper, machine) := machine.take
  let (lower, machine) := machine.take
  machine.put (operation lower upper)

end Machine

inductive Instruction where
  | pop (input : Nat)
  | peek (input index : Nat)
  | push (output : Nat)
  | available (input : Nat)
  | const (value : Int64)
  | register
  | executions
  | worker
  | inputs
  | outputs
  | setRegister
  | log
  | drop
  | add
  | sub
  | mul
  | dup
  | swap
  | send (portal : Portal) (directive : Directive)
  | fail (error : Error)

abbrev ScriptRun := Routine Int64 Notice (Except Error Unit × Machine)

namespace Instruction

/-- Puts the answer of a request on the stack, or fails with it. -/
def putAnswer (machine : Machine) (answer : Except Error Int64) : ScriptRun :=
  match answer with
  | .ok value => .done (.ok (), machine.put value)
  | .error error => .done (.error error, machine)

def run (instruction : Instruction) (firing : Firing) (machine : Machine) : ScriptRun :=
  match instruction with
  | .pop input => .pop input (putAnswer machine)
  | .peek input index => .peek input index (putAnswer machine)
  | .push output =>
      let (top, machine) := machine.take
      .push output top (fun answer => .done (answer, machine))
  | .available input => .available input (fun answer => putAnswer machine (answer.map Int64.ofNat))
  | .const value => .done (.ok (), machine.put value)
  | .register => .done (.ok (), machine.put machine.memory.register)
  | .executions => .done (.ok (), machine.put (Int64.ofNat firing.executions))
  | .worker => .done (.ok (), machine.put (Int64.ofNat firing.worker))
  | .inputs => .done (.ok (), machine.put (Int64.ofNat firing.shape.inputs))
  | .outputs => .done (.ok (), machine.put (Int64.ofNat firing.shape.outputs))
  | .setRegister =>
      let (top, machine) := machine.take
      .done (.ok (), { machine with memory := { machine.memory with register := top } })
  | .log =>
      let (top, machine) := machine.take
      .done (.ok (),
        { machine with memory := { machine.memory with log := machine.memory.log ++ [top] } })
  | .drop => .done (.ok (), machine.take.2)
  | .add => .done (.ok (), machine.combine (· + ·))
  | .sub => .done (.ok (), machine.combine (· - ·))
  | .mul => .done (.ok (), machine.combine (· * ·))
  | .dup =>
      let (top, machine) := machine.take
      .done (.ok (), (machine.put top).put top)
  | .swap =>
      let (upper, machine) := machine.take
      let (lower, machine) := machine.take
      .done (.ok (), (machine.put upper).put lower)
  | .send portal directive =>
      let (top, machine) := machine.take
      .send portal { directive := directive, value := top } (.done (.ok (), machine))
  | .fail error => .done (.error error, machine)

end Instruction

inductive Script where
  | finish
  | step (instruction : Instruction) (rest : Script)
  /-- The block so many times. -/
  | times (count : Nat) (block rest : Script)
  /-- The block as many times as the input holds elements on arrival. -/
  | timesAvailable (input : Nat) (block rest : Script)
  /-- The block on firings whose number leaves the remainder; a modulus of zero counts
  as one. -/
  | onTurn (modulus remainder : Nat) (block rest : Script)
  /-- The first block and, if it fails, the second one from where the first stopped. -/
  | attempt (first second rest : Script)

namespace Script

def onSuccess (routine : ScriptRun) (next : Machine → ScriptRun) : ScriptRun :=
  routine.bind fun
    | (.error error, machine) => .done (.error error, machine)
    | (.ok (), machine) => next machine

/-- Runs a block so many times, up to the first failure. -/
def repeated (block : Machine → ScriptRun) : Nat → Machine → ScriptRun
  | 0, machine => .done (.ok (), machine)
  | count + 1, machine => onSuccess (block machine) (repeated block count)

/-- One firing's run of a script. Whatever was done before a failure stays done. -/
def run (firing : Firing) : Script → Machine → ScriptRun
  | .finish, machine => .done (.ok (), machine)
  | .step instruction rest, machine =>
      onSuccess (instruction.run firing machine) (rest.run firing)
  | .times count block rest, machine =>
      onSuccess (repeated (block.run firing) count machine) (rest.run firing)
  | .timesAvailable input block rest, machine =>
      .available input fun
        | .error error => .done (.error error, machine)
        | .ok count =>
            onSuccess (repeated (block.run firing) count machine) (rest.run firing)
  | .onTurn modulus remainder block rest, machine =>
      if firing.executions % max modulus 1 = remainder then
        onSuccess (block.run firing machine) (rest.run firing)
      else
        rest.run firing machine
  | .attempt first second rest, machine =>
      (first.run firing machine).bind fun
        | (.ok (), machine) => rest.run firing machine
        | (.error _, machine) => onSuccess (second.run firing machine) (rest.run firing)

end Script

end DemandFlow
