import DemandFlow.Graph.Element
import DemandFlow.Interpreter.Pull

/-!
What structured streams mean. A body that keeps to its rates is a function from what it
finds at the front of its inputs to what it takes, what it puts out and its next state. A
worker with such a body turns input lists into output lists by firing as long as every
input holds enough, and from this every stream gets its meaning: a list function.
-/

set_option autoImplicit false

namespace DemandFlow

variable {β α : Type}

/-- What one firing does: how much it takes from each input, what it puts on each output, and
the state in which it leaves the body. -/
structure Response (β α : Type) where
  pops : Nat → Nat
  pushes : Nat → List α
  next : β

/-- The ports at which a body works, with the channels behind them. -/
structure PortView (α : Type) where
  inputs : List Port
  outputs : List Port
  bank : Bank α

/-- The channel on one of the ports; a port that does not exist holds nothing. -/
def Bank.onPort (bank : Bank α) (ports : List Port) (index : Nat) : Channel α :=
  (ports[index]?.map (fun port => bank.channel port.channel)).getD {}

namespace PortView

def work (μ : Type) [Work β α μ] (portView : PortView α) (shape : PortShape) (id : WorkerId)
    (body : β) (executions : Nat) : (Except Error Unit × β) × Routine.Scene α μ :=
  (Work.work body { worker := id, executions := executions, shape := shape }).run id
    portView.inputs portView.outputs { bank := portView.bank }

def alone (shape : PortShape) (leading : Nat → List α) : PortView α :=
  { inputs := (List.range shape.inputs).map (fun index => { peer := none, channel := index })
    outputs := (List.range shape.outputs).map
      (fun index => { peer := none, channel := shape.inputs + index })
    bank :=
      { slots := (List.range shape.inputs).map (fun index => .own { items := leading index }) ++
          .replicate shape.outputs (.own {}) } }

end PortView

/-- What a body does when it finds nothing but the given elements. -/
def respond (μ : Type) [Work β α μ] (shape : PortShape) (body : β) (executions : Nat)
    (leading : Nat → List α) : Response β α :=
  let portView := PortView.alone shape leading
  let ((_, next), scene) := portView.work μ shape 0 body executions
  { pops := fun index => (leading index).length - (scene.bank.onPort portView.inputs index).size
    pushes := fun index => (scene.bank.onPort portView.outputs index).items
    next := next }

/-- The place of a worker: its ports, and how many elements each input must hold before a
firing. -/
structure InputNeeds where
  shape : PortShape
  need : Nat → Nat

namespace InputNeeds

/-- Every input holds enough for a firing. -/
def sated (inputNeeds : InputNeeds) (inputs : Nat → List α) : Bool :=
  (List.range inputNeeds.shape.inputs).all
    (fun index => decide (inputNeeds.need index ≤ (inputs index).length))

def leading (inputNeeds : InputNeeds) (inputs : Nat → List α) (index : Nat) : List α :=
  if index < inputNeeds.shape.inputs then (inputs index).take (inputNeeds.need index) else []

def total (inputNeeds : InputNeeds) (inputs : Nat → List α) : Nat :=
  tally (fun index => (inputs index).length) (List.range inputNeeds.shape.inputs)

end InputNeeds

/-- How many elements an input must hold, if both rates have a known maximum. -/
def WorkerRates.need? (rates : WorkerRates) (index : Nat) : Option Nat :=
  rates.peek[index]?.bind fun peek => rates.pop[index]?.bind fun pop => demand? peek pop

def InputNeeds.of [Signature β] (body : β) (shape : PortShape) : InputNeeds :=
  { shape := shape, need := fun index => ((Signature.rates body shape).need? index).getD 0 }

structure Progress (β α : Type) where
  body : β
  executions : Nat
  /-- What is left of each input. -/
  rest : Nat → List α
  /-- What has been put on each output. -/
  pushed : Nat → List α

namespace Progress

def initial (body : β) (inputs : Nat → List α) : Progress β α :=
  { body := body, executions := 0, rest := inputs, pushed := fun _ => [] }

def advance (μ : Type) [Work β α μ] (inputNeeds : InputNeeds) (progress : Progress β α) :
    Progress β α :=
  let response := respond μ inputNeeds.shape progress.body progress.executions
    (inputNeeds.leading progress.rest)
  { body := response.next
    executions := progress.executions + 1
    rest := fun index => (progress.rest index).drop (response.pops index)
    pushed := fun index => progress.pushed index ++ response.pushes index }

def settle (μ : Type) [Work β α μ] (inputNeeds : InputNeeds) : Nat → Progress β α → Progress β α
  | 0, progress => progress
  | firings + 1, progress =>
      if inputNeeds.sated progress.rest then
        settle μ inputNeeds firings (progress.advance μ inputNeeds)
      else progress

end Progress

/-- What a worker makes of its inputs when it fires as long as each of them holds enough. A
firing takes something, so there are no more firings than elements. -/
def produce (μ : Type) [Signature β] [Work β α μ] (body : β) (shape : PortShape)
    (inputs : Nat → List α) : Nat → List α :=
  let inputNeeds := InputNeeds.of body shape
  ((Progress.initial body inputs).settle μ inputNeeds (inputNeeds.total inputs)).pushed

namespace PortView

/-- There is the given number of ports, all on channels of their own. -/
structure Sound (portView : PortView α) (shape : PortShape) : Prop where
  inputCount : portView.inputs.length = shape.inputs
  outputCount : portView.outputs.length = shape.outputs
  known : ∀ port ∈ portView.inputs ++ portView.outputs, port.channel < portView.bank.size
  distinct : ((portView.inputs ++ portView.outputs).map Port.channel).Nodup
  unshared : portView.bank.Unshared

def holds (portView : PortView α) (index : Nat) : List α :=
  (portView.bank.onPort portView.inputs index).items

/-- Nothing read on the inputs and nothing written on the outputs has been counted yet. -/
structure Uncounted (portView : PortView α) (shape : PortShape) : Prop where
  inputs : ∀ index, index < shape.inputs → ∃ stats,
    (portView.bank.onPort portView.inputs index).stats = some stats ∧
      stats.maxPeekIndex = none ∧ stats.popCount = 0
  outputs : ∀ index, index < shape.outputs → ∃ stats,
    (portView.bank.onPort portView.outputs index).stats = some stats ∧ stats.pushCount = 0

end PortView

/-- What is counted on the channels lies inside the declared rates. -/
structure Admitted (rates : WorkerRates) (portView : PortView α) (bank : Bank α) : Prop where
  inputs : ∀ (index : Nat) (peek pop : Rate), rates.peek[index]? = some peek →
    rates.pop[index]? = some pop → ∃ stats,
      (bank.onPort portView.inputs index).stats = some stats ∧
        peek.admits stats.peekExtent = true ∧ pop.admits stats.popCount = true
  outputs : ∀ (index : Nat) (push : Rate), rates.push[index]? = some push → ∃ stats,
    (bank.onPort portView.outputs index).stats = some stats ∧
      push.admits stats.pushCount = true

/-- The firing succeeds and sends nothing; what it takes, what it puts out and the next state
are those of the response. An audited firing also stays inside the declared rates. -/
structure Performs (audited : Bool) (rates : WorkerRates) {μ : Type} (shape : PortShape)
    (portView : PortView α) (response : Response β α)
    (outcome : (Except Error Unit × β) × Routine.Scene α μ) : Prop where
  succeeds : outcome.1.1 = .ok ()
  silent : outcome.2.outbox = []
  next : outcome.1.2 = response.next
  takes : ∀ index, index < shape.inputs →
    (outcome.2.bank.onPort portView.inputs index).items =
      (portView.holds index).drop (response.pops index)
  gives : ∀ index, index < shape.outputs →
    (outcome.2.bank.onPort portView.outputs index).items =
      (portView.bank.onPort portView.outputs index).items ++ response.pushes index
  something : ∃ index, index < shape.inputs ∧ 0 < response.pops index
  rated : audited = true → portView.Uncounted shape → Admitted rates portView outcome.2.bank

/-- Bodies of a kind that firing does not lead out of. Wherever one of them finds enough on
every input, it does what it would do with nothing but the elements it may look at. -/
structure RateAbiding (μ : Type) [Work β α μ] (audited : Bool) (rates : WorkerRates)
    (inputNeeds : InputNeeds) (kind : β → Prop) : Prop where
  performs : ∀ body executions id (portView : PortView α), kind body →
    portView.Sound inputNeeds.shape → inputNeeds.sated portView.holds = true →
    Performs audited rates inputNeeds.shape portView
      (respond μ inputNeeds.shape body executions (inputNeeds.leading portView.holds))
      (portView.work μ inputNeeds.shape id body executions)
  kept : ∀ body executions (portView : PortView α), kind body → portView.Sound inputNeeds.shape →
    inputNeeds.sated portView.holds = true →
    kind (respond μ inputNeeds.shape body executions (inputNeeds.leading portView.holds)).next

/-- A rate-abiding body in its place: the maximal rates of every input are known, and the
body and all its later states keep to them. -/
def Abides (α : Type) (μ : Type) [Signature β] [Work β α μ] (audited : Bool)
    (shape : PortShape) (body : β) : Prop :=
  (∀ index, index < shape.inputs → ((Signature.rates body shape).need? index).isSome = true) ∧
    ∃ kind : β → Prop, kind body ∧
      RateAbiding (α := α) μ audited (Signature.rates body shape) (InputNeeds.of body shape) kind

namespace Element

variable [Signature β]

mutual

/-- The list function of a stream. A worker fires as long as it can; the children of a
pipeline follow one another; a joiner works on what the branches make of the outputs of the
splitter. -/
def meaning (μ : Type) [Work β α μ] : Element β → List α → List α
  | .filter spec, elements => produce μ spec.body ⟨1, 1⟩ (fun _ => elements) 0
  | .pipeline children, elements => meaningInSeries μ children elements
  | .splitjoin splitter branches joiner, elements =>
      produce μ joiner.body ⟨branches.length, 1⟩
        (meaningAbreast μ branches
          (produce μ splitter.body ⟨1, branches.length⟩ (fun _ => elements))) 0

def meaningInSeries (μ : Type) [Work β α μ] : List (Element β) → List α → List α
  | [], elements => elements
  | child :: rest, elements => meaningInSeries μ rest (child.meaning μ elements)

def meaningAbreast (μ : Type) [Work β α μ] :
    List (Element β) → (Nat → List α) → Nat → List α
  | [], _ => fun _ => []
  | branch :: rest, parts => fun
      | 0 => branch.meaning μ (parts 0)
      | index + 1 => meaningAbreast μ rest (fun part => parts (part + 1)) index

end

mutual

def Abiding (α : Type) (μ : Type) [Work β α μ] (audited : Bool) : Element β → Prop
  | .filter spec => Abides α μ audited ⟨1, 1⟩ spec.body
  | .pipeline children => AllAbiding α μ audited children
  | .splitjoin splitter branches joiner =>
      Abides α μ audited ⟨1, branches.length⟩ splitter.body ∧
        AllAbiding α μ audited branches ∧ Abides α μ audited ⟨branches.length, 1⟩ joiner.body

def AllAbiding (α : Type) (μ : Type) [Work β α μ] (audited : Bool) : List (Element β) → Prop
  | [] => True
  | element :: rest => element.Abiding α μ audited ∧ AllAbiding α μ audited rest

end

end Element

end DemandFlow
