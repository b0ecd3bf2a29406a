import DemandFlow.Data.Decode
import DemandFlow.Work.Script

/-!
The plain-data form of scripts: a list of instructions, each of them a list of its name
and its arguments. Portals are named by their place among the handles at hand.
-/

set_option autoImplicit false

namespace DemandFlow

def Value.element? : Value → Option Int64
  | .int value => some (Int64.ofInt value)
  | _ => none

def Value.text? : Value → Option String
  | .text value => some value
  | _ => none

def Directive.ofText? (text : String) : Option Directive :=
  match text with
  | "set" => some .setRegister
  | "add" => some .addToRegister
  | "log" => some .appendToLog
  | _ => none

def Instruction.decode? (portals : List Portal) (name : String) (arguments : List Value) :
    Option Instruction :=
  match name, arguments with
  | "pop", [] => some (.pop 0)
  | "pop", [input] => input.count?.map .pop
  | "peek", [index] => index.count?.map (.peek 0)
  | "peek", [input, index] => do some (.peek (← input.count?) (← index.count?))
  | "push", [] => some (.push 0)
  | "push", [output] => output.count?.map .push
  | "avail", [input] => input.count?.map .available
  | "const", [value] => value.element?.map .const
  | "reg", [] => some .register
  | "exec", [] => some .executions
  | "worker", [] => some .worker
  | "inputs", [] => some .inputs
  | "outputs", [] => some .outputs
  | "setreg", [] => some .setRegister
  | "log", [] => some .log
  | "drop", [] => some .drop
  | "add", [] => some .add
  | "sub", [] => some .sub
  | "mul", [] => some .mul
  | "dup", [] => some .dup
  | "swap", [] => some .swap
  | "send", [handle, mode] => do
      let portal ← portals[← handle.count?]?
      some (.send portal (← Directive.ofText? (← mode.text?)))
  | "fail", [text] => text.text?.map (fun text => .fail (.other text))
  | "failio", [text] => text.text?.map (fun text => .fail (.io text))
  | _, _ => none

def Script.decode? (portals : List Portal) : List Value → Option Script
  | [] => some .finish
  | .list [.text "rep", count, .list block] :: rest => do
      some (.times (← count.count?) (← decode? portals block) (← decode? portals rest))
  | .list [.text "repavail", input, .list block] :: rest => do
      some (.timesAvailable (← input.count?) (← decode? portals block) (← decode? portals rest))
  | .list [.text "when", modulus, remainder, .list block] :: rest => do
      some (.onTurn (← modulus.count?) (← remainder.count?) (← decode? portals block)
        (← decode? portals rest))
  | .list [.text "try", .list first, .list second] :: rest => do
      some (.attempt (← decode? portals first) (← decode? portals second)
        (← decode? portals rest))
  | .list (.text name :: arguments) :: rest => do
      some (.step (← Instruction.decode? portals name arguments) (← decode? portals rest))
  | _ :: _ => none

end DemandFlow
