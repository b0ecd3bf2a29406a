import DemandFlow.Error

/-!
Declaring rates. Every declaration is checked, and the refusal carries the rate as
it would have been.
-/

set_option autoImplicit false

namespace DemandFlow.Rate

def checked (rate : Rate) : Except Error Rate :=
  if rate.legal then .ok rate else .error (.invalidRate rate)

def declare (count : Nat) : Except Error Rate :=
  (exact count).checked

/-- The given bounds. The average is the minimum when the bounds agree and dynamic
otherwise. -/
def declareRange (low high : Nat) : Except Error Rate :=
  let min := RateBound.ofCount low
  let max := RateBound.ofCount high
  checked { min := min, max := max, avg := if min = max then min else .dynamic }

def declareFull (low high average : Nat) : Except Error Rate :=
  checked { min := .ofCount low, max := .ofCount high, avg := .ofCount average }

end DemandFlow.Rate
