import DemandFlow.Channel.Bank
import DemandFlow.Error

/-!
Channel factories. A new channel takes the room for its first elements at once, and a program
that asks for more than one buffer can have ends there.
-/

set_option autoImplicit false

namespace DemandFlow

/-- Where channels come from. The type stands for an open interface by the factories that the
library has of it, one for each kind of channel; that a factory keeps a record of its requests
makes no difference to the channels. -/
structure ChannelFactory where
  kind : ChannelKind := .array
  /-- The number of elements that a new channel has room for. -/
  capacity : Nat := 0
  /-- The size of an element in bytes. Elements without size take no room. -/
  elementSize : Nat := 8
  deriving DecidableEq

namespace ChannelFactory

variable {α : Type}

def maxBytes : Nat := 9223372036854775807

/-- Whether a buffer can be as large as a new channel has it. -/
def fits (factory : ChannelFactory) : Bool :=
  decide (factory.capacity * factory.elementSize ≤ maxBytes)

/-- A new channel. Whether the machine has that much memory left is not asked. -/
def make (factory : ChannelFactory) : Except Error (Slot α) :=
  if factory.fits then .ok (.own (.ofKind factory.kind)) else .error .capacityOverflow

theorem make_of_fits {factory : ChannelFactory} (fits : factory.fits = true) :
    (factory.make : Except Error (Slot α)) = .ok (.own (.ofKind factory.kind)) :=
  if_pos fits

theorem make_eq_ok {factory : ChannelFactory} {slot : Slot α} (made : factory.make = .ok slot) :
    factory.fits = true ∧ slot = .own (.ofKind factory.kind) := by
  unfold make at made
  split at made
  next fits =>
    cases made
    exact ⟨fits, rfl⟩
  next => cases made

end ChannelFactory

end DemandFlow
