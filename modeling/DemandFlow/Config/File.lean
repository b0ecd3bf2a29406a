import DemandFlow.Config.Basic
import DemandFlow.Yaml.Scalar

/-!
Reading configurations from text and from files. Settings that are not mentioned keep
their defaults and unknown settings are ignored; a setting may be mentioned only once.
-/

set_option autoImplicit false

namespace DemandFlow

namespace ChannelKind

def ofText? (text : String) : Option ChannelKind :=
  if text = "array" then some .array
  else if text = "debug" then some .debug
  else if text = "synchronized" then some .synchronized
  else none

end ChannelKind

structure Mentioned where
  auditRates : Option Bool := none
  channel : Option ChannelKind := none
  channelCapacity : Option Nat := none
  maxPasses : Option (Option Nat) := none
  checkPendingMessages : Option Bool := none

namespace Mentioned

def once {ρ : Type} (before : Option ρ) (value : Option ρ) : Option (Option ρ) :=
  match before, value with
  | none, some value => some (some value)
  | _, _ => none

def addNamed (mentioned : Mentioned) (name : String) (value : Yaml.Node) : Option Mentioned :=
  if name = "audit_rates" then
    (once mentioned.auditRates value.bool?).map fun value =>
      { mentioned with auditRates := value }
  else if name = "channel" then
    (once mentioned.channel (value.name?.bind ChannelKind.ofText?)).map fun value =>
      { mentioned with channel := value }
  else if name = "channel_capacity" then
    (once mentioned.channelCapacity value.count?).map fun value =>
      { mentioned with channelCapacity := value }
  else if name = "max_passes" then
    (once mentioned.maxPasses value.optionalCount?).map fun value =>
      { mentioned with maxPasses := value }
  else if name = "check_pending_messages" then
    (once mentioned.checkPendingMessages value.bool?).map fun value =>
      { mentioned with checkPendingMessages := value }
  else
    some mentioned

def add (root : Yaml.Node) (mentioned : Mentioned) (entry : Yaml.Node × Yaml.Node) :
    Option Mentioned :=
  match (root.resolve? entry.1).bind Yaml.Node.text?, root.resolve? entry.2 with
  | some name, some value => mentioned.addNamed name value
  | _, _ => none

def config (mentioned : Mentioned) : Config :=
  let default : Config := {}
  { auditRates := mentioned.auditRates.getD default.auditRates
    channel := mentioned.channel.getD default.channel
    channelCapacity := mentioned.channelCapacity.getD default.channelCapacity
    maxPasses := mentioned.maxPasses.getD default.maxPasses
    checkPendingMessages := mentioned.checkPendingMessages.getD default.checkPendingMessages }

end Mentioned

namespace Config

/-- The configuration a document describes: a mapping, or nothing at all. -/
def ofDocument? : Option Yaml.Node → Option Config
  | none => some {}
  | some (.map properties entries) =>
      (entries.foldlM (Mentioned.add (.map properties entries)) {}).map Mentioned.config
  | some (.scalar _ .plain "") => some {}
  | some _ => none

def ofYaml (text : String) : Except Error Config :=
  match (Yaml.parse text).bind ofDocument? with
  | none => .error (.configuration .malformed)
  | some config =>
      match config.fault? with
      | some fault => .error (.configuration fault)
      | none => .ok config

end Config

inductive FileContent where
  | missing
  | directory
  | bytes (content : ByteArray)

def FileContent.text (file : FileContent) : Except FileFault String :=
  match file with
  | .missing => .error .missing
  | .directory => .error .isDirectory
  | .bytes content =>
      match String.fromUTF8? content with
      | none => .error .notText
      | some text => .ok text

namespace Config

def pathIn (directory : String) : String :=
  directory ++ "/" ++ fileName

def load (directory : String) (file : FileContent) : Except Error Config :=
  match file.text with
  | .error fault => .error (.configuration (.unreadable (pathIn directory) fault))
  | .ok text =>
      match ofYaml text with
      | .error (.configuration fault) =>
          .error (.configuration (.inFile (pathIn directory) fault))
      | answer => answer

def loadOrDefault (directory : String) (file : FileContent) : Config :=
  match load directory file with
  | .ok config => config
  | .error _ => {}

end Config

end DemandFlow
