import DemandFlow.Text.Quoted
import DemandFlow.Text.Record

/-!
Structured streams: filters, pipelines and splitjoins, nested at will.
-/

set_option autoImplicit false

namespace DemandFlow

structure WorkerSpec (β : Type) where
  name : String
  body : β

def WorkerSpec.detail {β : Type} (spec : WorkerSpec β) : String :=
  Text.partialRecord "WorkerSpec" [("name", Text.quoted spec.name)]

inductive Element (β : Type) where
  | filter (spec : WorkerSpec β)
  /-- The children one after another. -/
  | pipeline (children : List (Element β))
  /-- A splitter that feeds every branch, and a joiner that every branch feeds. -/
  | splitjoin (splitter : WorkerSpec β) (branches : List (Element β)) (joiner : WorkerSpec β)

namespace Element

variable {β : Type}

mutual

def workerCount : Element β → Nat
  | .filter _ => 1
  | .pipeline children => workerCounts children
  | .splitjoin _ branches _ => 2 + workerCounts branches

def workerCounts : List (Element β) → Nat
  | [] => 0
  | element :: rest => element.workerCount + workerCounts rest

end

mutual

def detail : Element β → String
  | .filter spec => Text.applied "Filter" spec.detail
  | .pipeline children => Text.applied "Pipeline" (Text.list (details children))
  | .splitjoin splitter branches joiner =>
      Text.record "Splitjoin"
        [("splitter", splitter.detail),
          ("branches", Text.list (details branches)),
          ("joiner", joiner.detail)]

def details : List (Element β) → List String
  | [] => []
  | element :: rest => element.detail :: details rest

end

end Element

end DemandFlow
