import DemandFlow.Text.Record

/-!
Identifiers. Workers, channels and portals are numbered from zero in the order in
which they enter a graph, boundary channels in the order in which a section finds
them. Each kind has a short written form, a letter and the number, and a long one.
-/

set_option autoImplicit false

namespace DemandFlow

abbrev WorkerId := Nat

abbrev ChannelId := Nat

abbrev PortalId := Nat

abbrev BoundaryToken := Nat

def WorkerId.text (id : WorkerId) : String := "w" ++ toString id

def WorkerId.detail (id : WorkerId) : String := Text.applied "WorkerId" (toString id)

def ChannelId.text (id : ChannelId) : String := "c" ++ toString id

def ChannelId.detail (id : ChannelId) : String := Text.applied "ChannelId" (toString id)

def PortalId.text (id : PortalId) : String := "p" ++ toString id

def PortalId.detail (id : PortalId) : String := Text.applied "PortalId" (toString id)

def BoundaryToken.text (token : BoundaryToken) : String := "t" ++ toString token

/-- A worker as messages to the user name it: its name and its id. -/
structure Label where
  name : String
  id : WorkerId
  deriving DecidableEq

def Label.text (label : Label) : String :=
  label.name ++ " (" ++ WorkerId.text label.id ++ ")"

end DemandFlow
