import DemandFlow.Config.File
import DemandFlow.Data.Value
import DemandFlow.Interpreter.Boundary

/-!
Reading plain data back. A structure is read from a record, whose further fields are
ignored, or from the list of its fields in order. A case without content is read from
its name, or from a record with null under its name. Values are taken as they are;
whether they make sense is checked elsewhere.
-/

set_option autoImplicit false

namespace DemandFlow

namespace Value

def bool? : Value → Option Bool
  | .bool value => some value
  | _ => none

/-- An integer from zero to the largest count. -/
def count? : Value → Option Nat
  | .int value => if 0 ≤ value ∧ value ≤ maxCount then some value.toNat else none
  | _ => none

def optional? {ρ : Type} (decode : Value → Option ρ) : Value → Option (Option ρ)
  | .null => some none
  | value => (decode value).map some

def list? {ρ : Type} (decode : Value → Option ρ) : Value → Option (List ρ)
  | .list items => items.mapM decode
  | _ => none

def case? : Value → Option (String × Option Value)
  | .text name => some (name, none)
  | .record [(name, content)] => some (name, some content)
  | _ => none

def plainCase? {ρ : Type} (ofName : String → Option ρ) (value : Value) : Option ρ :=
  match value.case? with
  | some (name, none) => ofName name
  | some (name, some .null) => ofName name
  | _ => none

/-- The fields of a structure by their names. Missing fields of a record are not there;
a list has them all. -/
def fields? (names : List String) : Value → Option (List (Option Value))
  | .record fields => some (names.map (fun name => fields.lookup name))
  | .list items => if items.length = names.length then some (items.map some) else none
  | _ => none

def required? {ρ : Type} (decode : Value → Option ρ) (field : Option Value) : Option ρ :=
  field.bind decode

def nullable? {ρ : Type} (decode : Value → Option ρ) (field : Option Value) :
    Option (Option ρ) :=
  optional? decode (field.getD .null)

/-- A field that may be missing and then has its default. -/
def defaulted? {ρ : Type} (default : ρ) (decode : Value → Option ρ) (field : Option Value) :
    Option ρ :=
  match field with
  | none => some default
  | some value => decode value

end Value

def RateBound.decode? (value : Value) : Option RateBound :=
  match value.case? with
  | some ("known", some content) => content.count?.map .known
  | some ("dynamic", none) | some ("dynamic", some .null) => some .dynamic
  | _ => none

def Rate.decode? (value : Value) : Option Rate := do
  match ← value.fields? ["min", "max", "avg"] with
  | [min, max, avg] =>
      let min ← Value.required? RateBound.decode? min
      let max ← Value.required? RateBound.decode? max
      let avg ← Value.required? RateBound.decode? avg
      some { min := min, max := max, avg := avg }
  | _ => none

def WorkerRates.decode? (value : Value) : Option WorkerRates := do
  match ← value.fields? ["peek", "pop", "push"] with
  | [peek, pop, push] =>
      let peek ← Value.required? (Value.list? Rate.decode?) peek
      let pop ← Value.required? (Value.list? Rate.decode?) pop
      let push ← Value.required? (Value.list? Rate.decode?) push
      some { peek := peek, pop := pop, push := push }
  | _ => none

def Port.decode? (value : Value) : Option Port := do
  match ← value.fields? ["peer", "channel"] with
  | [peer, channel] =>
      let peer ← Value.nullable? Value.count? peer
      let channel ← Value.required? Value.count? channel
      some { peer := peer, channel := channel }
  | _ => none

def WorkerKind.decode? (value : Value) : Option WorkerKind :=
  value.plainCase? fun name =>
    if name = "filter" then some .filter
    else if name = "splitter" then some .splitter
    else if name = "joiner" then some .joiner
    else none

def ChannelKind.decode? (value : Value) : Option ChannelKind :=
  value.plainCase? ChannelKind.ofText?

def BoundaryDirection.decode? (value : Value) : Option BoundaryDirection :=
  value.plainCase? fun name =>
    if name = "input" then some .input
    else if name = "output" then some .output
    else none

def BoundaryChannel.decode? (value : Value) : Option BoundaryChannel := do
  match ← value.fields? ["channel", "upstream", "downstream", "direction"] with
  | [channel, producer, consumer, direction] =>
      let channel ← Value.required? Value.count? channel
      let producer ← Value.nullable? Value.count? producer
      let consumer ← Value.nullable? Value.count? consumer
      let direction ← Value.required? BoundaryDirection.decode? direction
      some
        { channel := channel
          producer := producer
          consumer := consumer
          direction := direction }
  | _ => none

/-- The five settings. A list may stop early; all settings have defaults. -/
def Config.fields? (value : Value) : Option (List (Option Value)) :=
  let names :=
    ["audit_rates", "channel", "channel_capacity", "max_passes", "check_pending_messages"]
  match value with
  | .list items =>
      if items.length ≤ names.length then
        some (items.map some ++ List.replicate (names.length - items.length) none)
      else
        none
  | value => value.fields? names

def Config.decode? (value : Value) : Option Config := do
  let default : Config := {}
  match ← Config.fields? value with
  | [auditRates, channel, channelCapacity, maxPasses, checkPendingMessages] =>
      let auditRates ← Value.defaulted? default.auditRates Value.bool? auditRates
      let channel ← Value.defaulted? default.channel ChannelKind.decode? channel
      let channelCapacity ← Value.defaulted? default.channelCapacity Value.count? channelCapacity
      let maxPasses ← Value.defaulted? default.maxPasses (Value.optional? Value.count?) maxPasses
      let checkPendingMessages ←
        Value.defaulted? default.checkPendingMessages Value.bool? checkPendingMessages
      some
        { auditRates := auditRates
          channel := channel
          channelCapacity := channelCapacity
          maxPasses := maxPasses
          checkPendingMessages := checkPendingMessages }
  | _ => none

end DemandFlow
