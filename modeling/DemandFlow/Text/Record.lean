/-!
Written forms of structured values: a name with its fields, a name with one
argument, lists and optional values. A record that keeps some of its fields to
itself ends in two dots.
-/

set_option autoImplicit false

namespace DemandFlow.Text

def fields (entries : List (String × String)) : String :=
  ", ".intercalate (entries.map (fun entry => entry.1 ++ ": " ++ entry.2))

def record (name : String) (entries : List (String × String)) : String :=
  name ++ " \x7b " ++ fields entries ++ " \x7d"

def partialRecord (name : String) (entries : List (String × String)) : String :=
  name ++ " \x7b " ++ fields entries ++ ", .. \x7d"

def applied (name argument : String) : String :=
  name ++ "(" ++ argument ++ ")"

def list (items : List String) : String :=
  "[" ++ ", ".intercalate items ++ "]"

def optional (value : Option String) : String :=
  match value with
  | none => "None"
  | some text => applied "Some" text

end DemandFlow.Text
