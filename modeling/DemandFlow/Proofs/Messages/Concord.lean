import DemandFlow.Proofs.Interpreter.Run
import DemandFlow.Proofs.Messages.Routing
import DemandFlow.Work.Body

/-!
Two copies of the constraints are in use: a section holds a recipient back by the ones it was
given, and messages are timed by the ones that the graph declares. Acceptance compares routes
only. The copies set the same deadlines exactly if what was given is declared with its schedule,
and then a recipient is held back exactly for the deadlines that messages have.
-/

set_option autoImplicit false

namespace DemandFlow

variable {β α μ : Type}

/-- The graph has the constraint, with a schedule that sets the same deadlines. -/
def Graph.Declares (graph : Graph β α μ) (constraint : Constraint) : Prop :=
  ∃ declared ∈ graph.constraints, declared.route = constraint.route ∧
    ∀ sent, constraint.deliveryTime sent = declared.deliveryTime sent

theorem Graph.exists_constraintFor? {graph : Graph β α μ} {declared : Constraint}
    (member : declared ∈ graph.constraints) :
    ∃ found, graph.constraintFor? declared.route = some found := by
  unfold constraintFor?
  rw [← Option.isSome_iff_exists, List.find?_isSome]
  exact ⟨declared, member, decide_eq_true rfl⟩

namespace Interpreter

/-- The constraints of the section set the deadlines by which messages on their routes are
timed. -/
def Concordant (interpreter : Interpreter β α μ) : Prop :=
  ∀ constraint ∈ interpreter.constraints, ∀ declared,
    interpreter.graph.constraintFor? constraint.route = some declared →
      ∀ sent, constraint.deliveryTime sent = declared.deliveryTime sent

private theorem Opens.kept {graph : Graph β α μ} {workers : List WorkerId} {given : List Constraint}
    {interpreter : Interpreter β α μ} (opened : Opens graph workers given interpreter)
    {constraint : Constraint} (among : constraint ∈ given)
    (inside : constraint.recipient ∈ interpreter.members) :
    constraint ∈ interpreter.constraints := by
  obtain ⟨made, delegate, maxPasses, created, rfl⟩ := opened
  change constraint ∈ made.constraints
  rw [(accepted_of_create created).constraints]
  exact List.mem_filter.mpr ⟨among, List.contains_iff_mem.mpr inside⟩

private theorem dueSender?_eq_none_iff {interpreter : Interpreter β α μ} {recipient : WorkerId}
    {firing : Nat} :
    interpreter.dueSender? recipient firing = none ↔
      ∀ constraint ∈ interpreter.constraints, constraint.recipient = recipient →
        interpreter.isDue firing constraint = false := by
  refine ⟨dueSender?_eq_none, ?_⟩
  intro early
  unfold dueSender?
  rw [Option.map_eq_none_iff, List.find?_eq_none]
  intro constraint member
  rw [Bool.and_eq_true, beq_iff_eq]
  rintro ⟨same, due⟩
  rw [early constraint member same] at due
  cases due

private theorem isDue_eq_false {interpreter : Interpreter β α μ} {firing : Nat}
    {constraint : Constraint} :
    interpreter.isDue firing constraint = false ↔
      ∀ sent, interpreter.graph.executions? constraint.sender = some sent →
        firing < constraint.deliveryTime sent := by
  rw [← Bool.not_eq_true, isDue_eq_true]
  simp only [not_exists, not_and, Nat.not_le]

/-- A constraint of the section and the one that times messages on its route, in a section
whose copies agree. -/
theorem Concordant.counterpart {interpreter : Interpreter β α μ}
    (concordant : interpreter.Concordant) (sound : interpreter.frame.Sound)
    {constraint declared : Constraint} (kept : constraint ∈ interpreter.constraints)
    (member : declared ∈ interpreter.graph.constraints)
    (same : declared.route = constraint.route) (sent : Nat) :
    constraint.deliveryTime sent = declared.deliveryTime sent := by
  obtain ⟨found, stamps⟩ := Graph.exists_constraintFor? member
  obtain ⟨foundIn, foundRoute⟩ := Graph.constraintFor?_eq_some stamps
  have unique : found = declared := sound.graph.constraint_unique foundIn member foundRoute
  subst unique
  rw [same] at stamps
  exact concordant constraint kept found stamps sent

/-- Where the copies agree, a recipient is held back exactly until no message on a declared
route to it can still come due. -/
theorem Concordant.dueSender?_eq_none_iff {interpreter : Interpreter β α μ}
    (concordant : interpreter.Concordant) (sound : interpreter.frame.Sound)
    (declared : ∀ constraint ∈ interpreter.constraints,
      ∃ declared ∈ interpreter.graph.constraints, declared.route = constraint.route)
    {recipient : WorkerId} (inside : recipient ∈ interpreter.members) {firing : Nat} :
    interpreter.dueSender? recipient firing = none ↔
      ∀ declared ∈ interpreter.graph.constraints, declared.recipient = recipient →
        ∀ sent, interpreter.graph.executions? declared.sender = some sent →
          firing < declared.deliveryTime sent := by
  rw [Interpreter.dueSender?_eq_none_iff]
  constructor
  · intro early stamp member addressed sent counted
    obtain ⟨constraint, kept, same⟩ := sound.scheduled stamp member (addressed ▸ inside)
    have sender : constraint.sender = stamp.sender := congrArg Route.sender same
    have toRecipient : constraint.recipient = recipient :=
      (congrArg Route.recipient same).trans addressed
    have later := isDue_eq_false.mp (early constraint kept toRecipient) sent (sender ▸ counted)
    rwa [concordant.counterpart sound kept member same.symm] at later
  · intro early constraint kept addressed
    obtain ⟨stamp, member, same⟩ := declared constraint kept
    have sender : stamp.sender = constraint.sender := congrArg Route.sender same
    have toRecipient : stamp.recipient = recipient :=
      (congrArg Route.recipient same).trans addressed
    rw [isDue_eq_false]
    intro sent counted
    rw [concordant.counterpart sound kept member same]
    exact early stamp member toRecipient sent (sender ▸ counted)

/-- Every constraint of a section has one by which messages on its route are timed. The two
set the same deadlines throughout exactly if the constraints given for recipients in the
section are declared with their schedules; and then a recipient is held back exactly if a
message on a declared route to it could come due. -/
theorem deadlines_agree_iff_declared [Signature β] [Recipient β μ] [Work β α μ]
    {graph : Graph β α μ} (descends : graph.Descends) {workers : List WorkerId}
    {given : List Constraint} {start interpreter : Interpreter β α μ}
    (opened : Opens graph workers given start) (operated : start.Operated interpreter) :
    (∀ constraint ∈ interpreter.constraints,
        ∃ declared, interpreter.graph.constraintFor? constraint.route = some declared) ∧
      (interpreter.Concordant ↔ ∀ constraint ∈ given,
        constraint.recipient ∈ interpreter.members → graph.Declares constraint) ∧
      (interpreter.Concordant → ∀ recipient ∈ interpreter.members, ∀ firing,
        (interpreter.dueSender? recipient firing = none ↔
          ∀ declared ∈ graph.constraints, declared.recipient = recipient →
            ∀ sent, interpreter.graph.executions? declared.sender = some sent →
              firing < declared.deliveryTime sent)) := by
  obtain ⟨sound, sameDeclared, constraints, members⟩ := operated.keeps
    (fun now => now.frame.Sound ∧ now.graph.constraints = graph.constraints ∧
      now.constraints = start.constraints ∧ now.members = start.members)
    (fun same before => ⟨same ▸ before.1,
      (congrArg (fun frame => frame.graph.constraints) same).trans before.2.1,
      (congrArg InterpreterFrame.constraints same).trans before.2.2.1,
      (congrArg InterpreterFrame.members same).trans before.2.2.2⟩)
    (fun delegate limit before => ⟨{ before.1 with }, before.2⟩)
    ⟨opened.frame_sound descends.sound, by rw [opened.graph_eq], rfl, rfl⟩
  have declared : ∀ constraint ∈ interpreter.constraints,
      ∃ declared ∈ interpreter.graph.constraints, declared.route = constraint.route := by
    rw [constraints, sameDeclared]
    exact opened.declared
  refine ⟨?_, ⟨?_, ?_⟩, ?_⟩
  · intro constraint kept
    obtain ⟨stamp, member, same⟩ := declared constraint kept
    rw [← same]
    exact Graph.exists_constraintFor? member
  · intro concordant constraint among inside
    have kept : constraint ∈ interpreter.constraints := by
      rw [constraints]
      exact opened.kept among (members ▸ inside)
    obtain ⟨stamp, member, same⟩ := declared constraint kept
    exact ⟨stamp, sameDeclared ▸ member, same,
      concordant.counterpart sound kept member same⟩
  · intro provided constraint kept found stamps
    obtain ⟨stamp, member, same, times⟩ := provided constraint
      (opened.given constraint (constraints ▸ kept)) (sound.inside constraint kept).2
    obtain ⟨foundIn, foundRoute⟩ := Graph.constraintFor?_eq_some stamps
    rw [← sameDeclared] at member
    have unique : found = stamp :=
      sound.graph.constraint_unique foundIn member (foundRoute.trans same.symm)
    rw [unique]
    exact times
  · intro concordant recipient inside firing
    rw [concordant.dueSender?_eq_none_iff sound declared inside, sameDeclared]

/-! ### A recipient and a sender that are not connected -/

/-- Passes each element on and, if it has something to say, tells a portal about it. -/
def driftBody (script : Script) : Body :=
  .scripted
    { typeName := "Drift"
      peek := .listed [.exact 0]
      pop := .listed [.exact 1]
      push := .listed [.exact 1]
      script := script
      memory := {} }

def driftBuilder : Builder Body Int64 :=
  let quiet : Script := .step (.pop 0) (.step (.push 0) .finish)
  let telling : Script := .step (.pop 0) (.step .dup
    (.step (.send { id := 0, recipient := .named "Drift" } .addToRegister)
      (.step (.push 0) .finish)))
  let builder := (Builder.addWorker {} .filter ⟨"quiet", driftBody quiet⟩).2
  let builder := (builder.addWorker .filter ⟨"telling", driftBody telling⟩).2
  let builder := (builder.addPortal (.named "Drift")).2
  let builder := (builder.register { id := 0, recipient := .named "Drift" } 0).2
  (builder.addConstraint ⟨⟨1, 0, 0⟩, .latency 1⟩).2

def driftGraph : Graph Body Int64 Notice := driftBuilder.graph

def driftInterpreter (latency : Int) : Interpreter Body Int64 Notice :=
  onSection driftGraph driftGraph.workerIds [⟨⟨1, 0, 0⟩, .latency latency⟩]

theorem driftGraph_built : driftGraph.Built :=
  ⟨driftBuilder,
    .addConstraint _ (.register _ _ (.addPortal _ (.addWorker _ _ (.addWorker _ _ (.fresh _))))),
    rfl⟩

theorem driftInterpreter_opens (latency : Int) :
    Opens driftGraph driftGraph.workerIds [⟨⟨1, 0, 0⟩, .latency latency⟩]
      (driftInterpreter latency) :=
  ⟨driftInterpreter latency, _, _, rfl, rfl⟩

/-- With the declared latency the copies agree, and the recipient is held back at first. -/
theorem deadlines_agree_iff_declared_drift : (driftInterpreter 1).Concordant ∧
    (driftInterpreter 1).dueSender? 0 1 ≠ none := by
  have agreed :=
    deadlines_agree_iff_declared driftGraph_built.descends (driftInterpreter_opens 1) .start
  have concordant : (driftInterpreter 1).Concordant := by
    refine agreed.2.1.mpr ?_
    intro constraint among _
    rw [List.mem_singleton] at among
    subst among
    exact ⟨_, List.mem_singleton_self _, rfl, fun _ => rfl⟩
  refine ⟨concordant, ?_⟩
  intro early
  have later := (agreed.2.2 concordant 0 (by decide) 1).mp early ⟨⟨1, 0, 0⟩, .latency 1⟩
    (List.mem_singleton_self _) rfl 0 rfl
  exact absurd later (by decide)

/-- With another latency the section is accepted all the same. The recipient is then not held
back for the first message, which comes too late. -/
theorem drifting_deadlines_are_accepted :
    driftGraph.Built ∧
      Opens driftGraph driftGraph.workerIds [⟨⟨1, 0, 0⟩, .latency 3⟩] (driftInterpreter 3) ∧
      (∃ constraint ∈ (driftInterpreter 3).constraints, ∃ declared,
        driftGraph.constraintFor? constraint.route = some declared ∧
          constraint.deliveryTime 0 = 3 ∧ declared.deliveryTime 0 = 1) ∧
      ∃ first fed left label, (driftInterpreter 3).pushAll? 0 [7] = some first ∧
        first.pushAll? 2 [8] = some fed ∧
        fed.interpret 9 = some (.error (.missedMessage label 1 1), left) :=
  ⟨driftGraph_built, driftInterpreter_opens 3,
    ⟨_, List.mem_singleton_self _, _, rfl, rfl, rfl⟩, _, _, _, _, rfl, rfl, rfl⟩

end Interpreter

end DemandFlow
