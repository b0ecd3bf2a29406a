import DemandFlow.Text.Record

/-!
Rates: how many elements a worker peeks, pops or pushes on one port per firing.

A rate has a least, a greatest and an average count, each of them known or
dynamic. A rate with a known maximum still has a buffer size at which its worker
can certainly fire; one with a dynamic maximum has none.
-/

set_option autoImplicit false

namespace DemandFlow

/-- The largest element count. As a declared bound it stands for "dynamic". -/
def maxCount : Nat := 18446744073709551615

/-- The product of two counts, which wraps around behind the largest one, as machine arithmetic
does where it is not checked for overflow. -/
def countProduct (left right : Nat) : Nat :=
  left * right % (maxCount + 1)

theorem countProduct_of_le {left right : Nat} (fits : left * right ≤ maxCount) :
    countProduct left right = left * right :=
  Nat.mod_eq_of_lt (Nat.lt_succ_of_le fits)

inductive RateBound where
  | known (count : Nat)
  | dynamic
  deriving DecidableEq

namespace RateBound

/-- The largest count declares a dynamic bound, every other count itself. -/
def ofCount (count : Nat) : RateBound :=
  if count = maxCount then .dynamic else .known count

def known? : RateBound → Option Nat
  | .known count => some count
  | .dynamic => none

def isDynamic : RateBound → Bool
  | .known _ => false
  | .dynamic => true

def text : RateBound → String
  | .known count => toString count
  | .dynamic => "*"

def detail : RateBound → String
  | .known count => Text.applied "Known" (toString count)
  | .dynamic => "Dynamic"

end RateBound

/-- A declared rate. The fields are as read; `Rate.legal` says which combinations
a declaration may have. -/
structure Rate where
  min : RateBound
  max : RateBound
  avg : RateBound
  deriving DecidableEq

namespace Rate

def exact (count : Nat) : Rate :=
  { min := .ofCount count, max := .ofCount count, avg := .ofCount count }

/-- With both bounds known the minimum is at most the maximum, equal bounds force
the average, and a known average lies between them. Any other rate is legal. -/
def legal (rate : Rate) : Bool :=
  match rate.min, rate.max with
  | .known low, .known high =>
      decide (low ≤ high) && (decide (low ≠ high) || decide (rate.avg = rate.min)) &&
        match rate.avg with
        | .known middle => decide (low ≤ middle) && decide (middle ≤ high)
        | .dynamic => true
  | _, _ => true

/-- The maximum is known and the minimum is dynamic or strictly lower. -/
def isPartiallyDynamic (rate : Rate) : Bool :=
  match rate.min, rate.max with
  | _, .dynamic => false
  | .dynamic, .known _ => true
  | .known low, .known high => decide (low < high)

/-- The maximum is dynamic: no buffer size is certainly enough. -/
def isFullyDynamic (rate : Rate) : Bool :=
  rate.max.isDynamic

def isDynamic (rate : Rate) : Bool :=
  rate.isPartiallyDynamic || rate.isFullyDynamic

def admits (rate : Rate) (observed : Nat) : Bool :=
  rate.min.known?.all (fun low => decide (low ≤ observed)) &&
    rate.max.known?.all (fun high => decide (observed ≤ high))

def text (rate : Rate) : String :=
  Text.list [rate.min.text, rate.max.text, rate.avg.text]

def detail (rate : Rate) : String :=
  Text.record "Rate"
    [("min", rate.min.detail), ("max", rate.max.detail), ("avg", rate.avg.detail)]

end Rate

end DemandFlow
