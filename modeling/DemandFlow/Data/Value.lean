/-!
Plain data: the values that structured data is exchanged as.
-/

set_option autoImplicit false

namespace DemandFlow

inductive Value where
  | null
  | bool (value : Bool)
  | int (value : Int)
  /-- A number that is no integer: the mantissa times so many tenths. -/
  | decimal (mantissa : Int) (exponent : Nat)
  | text (value : String)
  | list (items : List Value)
  | record (fields : List (String × Value))
  deriving Inhabited

namespace Value

def nat (value : Nat) : Value :=
  .int value

def ofOption {ρ : Type} (encode : ρ → Value) (value : Option ρ) : Value :=
  match value with
  | none => .null
  | some value => encode value

def ofList {ρ : Type} (encode : ρ → Value) (items : List ρ) : Value :=
  .list (items.map encode)

end Value

end DemandFlow
