import DemandFlow.Channel.Basic

/-!
Configuration of compiled streams, and the text of a configuration file.
-/

set_option autoImplicit false

namespace DemandFlow

structure Config where
  /-- Check every firing against the declared rates. -/
  auditRates : Bool := false
  /-- The kind of every channel made; audited streams use `debug` in place of `array`. -/
  channel : ChannelKind := .array
  /-- The capacity a channel starts with. -/
  channelCapacity : Nat := 16
  /-- The most passes one call of the interpreter makes. -/
  maxPasses : Option Nat := none
  /-- Whether undelivered messages count as undrained. -/
  checkPendingMessages : Bool := true
  deriving DecidableEq

namespace Config

def fileName : String := "streamflow.yaml"

def fault? (config : Config) : Option ConfigFault :=
  if config.auditRates && config.channel == .synchronized then some .auditedSynchronized
  else if config.maxPasses == some 0 then some .zeroPasses
  else if config.channelCapacity == 0 then some .zeroCapacity
  else none

def validate (config : Config) : Except Error Unit :=
  match config.fault? with
  | some fault => .error (.configuration fault)
  | none => .ok ()

def effectiveChannel (config : Config) : ChannelKind :=
  match config.channel with
  | .array => if config.auditRates then .debug else .array
  | kind => kind

def boolText (value : Bool) : String :=
  if value then "true" else "false"

def toYaml (config : Config) : String :=
  "audit_rates: " ++ boolText config.auditRates ++ "\n" ++
    "channel: " ++ config.channel.text ++ "\n" ++
    "channel_capacity: " ++ toString config.channelCapacity ++ "\n" ++
    "max_passes: " ++ (config.maxPasses.map toString).getD "null" ++ "\n" ++
    "check_pending_messages: " ++ boolText config.checkPendingMessages ++ "\n"

end Config

end DemandFlow
