import DemandFlow.Stream.Compiled

/-!
Compiling: from a description of a stream, and a configuration, to a stream that runs.
-/

set_option autoImplicit false

namespace DemandFlow

/-- A compiler is its configuration. The elements of the streams it compiles are known by their
size in bytes. -/
structure Compiler where
  config : Config := {}
  elementSize : Nat := 8
  deriving DecidableEq

namespace Compiler

variable {β α μ : Type}

def auditing : Compiler :=
  { config := { auditRates := true, channel := .debug } }

def ofConfig (config : Config) : Except Error Compiler :=
  match config.validate with
  | .error error => .error error
  | .ok () => .ok { config := config }

def factory (compiler : Compiler) : ChannelFactory :=
  { kind := compiler.config.effectiveChannel
    capacity := compiler.config.channelCapacity
    elementSize := compiler.elementSize }

def builder (compiler : Compiler) : Builder β α :=
  { factory := compiler.factory }

/-- Compiles an assembled graph with the given first and last worker. They must own the
only boundary channels. -/
def compileBuilt [Signature β] (compiler : Compiler) (builder : Builder β α)
    (head tail : WorkerId) : Except Error (CompiledStream β α μ) :=
  match builder.build.1 with
  | .error error => .error error
  | .ok graph =>
      match Interpreter.forGraph graph with
      | .error error => .error error
      | .ok interpreter =>
          CompiledStream.create
            { interpreter with
              delegate := { audits := compiler.config.auditRates }
              maxPasses := compiler.config.maxPasses }
            head tail compiler.config.checkPendingMessages

def compile [Signature β] (compiler : Compiler) (element : Element β) :
    Except Error (CompiledStream β α μ) :=
  match (compiler.builder : Builder β α).addStream element with
  | (.error error, _) => .error error
  | (.ok (head, tail), builder) => compiler.compileBuilt builder head tail

end Compiler

end DemandFlow
