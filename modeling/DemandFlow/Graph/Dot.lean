import DemandFlow.Graph.Basic

/-!
A drawing of the connections between workers, in the language of graph drawing tools.
-/

set_option autoImplicit false

namespace DemandFlow

namespace Text

/-- One character of a drawn label. A line break becomes the break that keeps lines
aligned to the left. -/
def labelChar (char : Char) : String :=
  if char = '\x22' then "\\\""
  else if char = '\x5c' then "\\\\"
  else if char = '\n' then "\\l"
  else char.toString

def drawnLabel (text : String) : String :=
  "[ label = \"" ++ String.join (text.toList.map labelChar) ++ "\" ]"

end Text

namespace Graph

variable {β α μ : Type}

def dotNode (worker : Worker β μ) : String :=
  "    " ++ toString worker.id ++ " " ++ Text.drawnLabel worker.label.text ++ "\n"

def dotEdge (edge : Edge) : String :=
  "    " ++ toString edge.producer ++ " -> " ++ toString edge.consumer ++ " " ++
    Text.drawnLabel (ChannelId.text edge.channel) ++ "\n"

def toDot (graph : Graph β α μ) : String :=
  "digraph \x7b\n" ++ String.join (graph.workers.map dotNode) ++
    String.join (graph.topology.map dotEdge) ++ "\x7d\n"

end Graph

end DemandFlow
