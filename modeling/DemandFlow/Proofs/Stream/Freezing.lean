import DemandFlow.Proofs.Interpreter.Limit
import DemandFlow.Proofs.Stream.Refinement

/-!
Drained streams are frozen. A drain that succeeds leaves every sink jammed. Nobody fires from
then on: offers are turned away, and a poll takes from a channel that feeds no worker, so the
jams outlast it. Every later drain therefore comes to the same verdict, and the polls give
what lay in the output channel.
-/

set_option autoImplicit false

namespace DemandFlow

variable {β α μ : Type}

private theorem tally_eq_zero {γ : Type} {count : γ → Nat} {items : List γ} :
    tally count items = 0 ↔ ∀ item ∈ items, count item = 0 := by
  induction items with
  | nil => simp only [tally, List.not_mem_nil, IsEmpty.forall_iff, implies_true]
  | cons item rest inductionHypothesis =>
      rw [tally, Nat.add_eq_zero_iff, inductionHypothesis, List.forall_mem_cons]

namespace Interpreter

/-- A jam outlasts every change of channels that keeps the number of elements on all inputs. -/
theorem Jammed.withBank {interpreter : Interpreter β α μ} {bank : Bank α} {id : WorkerId}
    {depth : Nat} (jammed : interpreter.Jammed id depth)
    (nondecreasing : ∀ constraint ∈ interpreter.constraints, constraint.schedule.Nondecreasing)
    (keys : bank.keys = interpreter.graph.bank.keys)
    (inputs : ∀ worker, ∀ port ∈ interpreter.graph.frame.wiring.inputs worker,
      (bank.channel port.channel).size = (interpreter.graph.bank.channel port.channel).size) :
    (interpreter.withBank bank).Jammed id depth := by
  apply jammed.outlasts
  intro looked target needs _
  apply needs.outlasts (frame_withBank keys) nondecreasing rfl (fun _ _ => rfl)
  · intro peer later sends
    exact ⟨later, sends, Nat.le_refl later⟩
  · intro port member
    exact Nat.le_of_eq (inputs looked port member).symm
  · intro port member _
    exact Nat.le_of_eq (inputs looked port member)

end Interpreter

theorem Compiler.compileBuilt_view [Signature β] {compiler : Compiler} {builder : Builder β α}
    {head tail : WorkerId} {stream : CompiledStream β α μ}
    (made : compiler.compileBuilt builder head tail = .ok stream) :
    ∃ (graph : Graph β α μ) (interpreter : Interpreter β α μ),
      builder.build.1 = .ok graph ∧ Interpreter.forGraph graph = .ok interpreter ∧
      CompiledStream.create
        { interpreter with
          delegate := { audits := compiler.config.auditRates }
          maxPasses := compiler.config.maxPasses }
        head tail compiler.config.checkPendingMessages = .ok stream := by
  unfold compileBuilt at made
  split at made
  next => cases made
  next graph built =>
    split at made
    next => cases made
    next interpreter opened => exact ⟨graph, interpreter, built, opened, made⟩

namespace CompiledStream

inductive Use (α : Type) where
  | offer (element : α)
  | poll
  | drain

inductive Reply (α : Type) where
  | offered (answer : Except Error Bool)
  | polled (element : Option α)
  | drained (answer : Except Error Bool)

/-- What the uses of a drained stream are answered, with the results still to be polled. -/
def frozenReplies (verdict : Bool) : List α → List (Use α) → List (Reply α)
  | _, [] => []
  | waiting, .offer _ :: rest => .offered (.ok false) :: frozenReplies verdict waiting rest
  | waiting, .poll :: rest => .polled waiting.head? :: frozenReplies verdict waiting.tail rest
  | waiting, .drain :: rest => .drained (.ok verdict) :: frozenReplies verdict waiting rest

section

variable [Recipient β μ] [Work β α μ]

def use (fuel : Nat) (stream : CompiledStream β α μ) :
    Use α → Option (Reply α × CompiledStream β α μ)
  | .offer element => (stream.offer fuel element).map (Prod.map .offered id)
  | .poll => some (Prod.map .polled id stream.poll)
  | .drain => (stream.drain fuel).map (Prod.map .drained id)

def useAll (fuel : Nat) : List (Use α) → CompiledStream β α μ →
    Option (List (Reply α) × CompiledStream β α μ)
  | [], stream => some ([], stream)
  | first :: rest, stream =>
      match stream.use fuel first with
      | none => none
      | some (reply, next) => (useAll fuel rest next).map (Prod.map (reply :: ·) id)

theorem useAll_cons {fuel : Nat} {stream next last : CompiledStream β α μ} {first : Use α}
    {rest : List (Use α)} {reply : Reply α} {replies : List (Reply α)}
    (head : stream.use fuel first = some (reply, next))
    (tail : next.useAll fuel rest = some (replies, last)) :
    stream.useAll fuel (first :: rest) = some (reply :: replies, last) := by
  rw [useAll, head]
  dsimp only
  rw [tail]
  rfl

/-- The streams that a history of uses leads to, whatever they were answered. -/
inductive Used (start : CompiledStream β α μ) : CompiledStream β α μ → Prop where
  | start : Used start start
  | use {stream left : CompiledStream β α μ} {action : Use α} {reply : Reply α} (fuel : Nat)
      (before : Used start stream) (done : stream.use fuel action = some (reply, left)) :
      Used start left

theorem interpret_eq_some {fuel : Nat} {stream left : CompiledStream β α μ}
    {answer : Except Error Bool} :
    stream.interpret fuel = some (answer, left) ↔ ∃ interpreter,
      stream.interpreter.interpret fuel = some (answer, interpreter) ∧
        left = { stream with interpreter := interpreter } := by
  unfold interpret
  rw [Option.map_eq_some_iff]
  constructor
  · intro found
    obtain ⟨⟨other, interpreter⟩, run, same⟩ := found
    cases same
    exact ⟨interpreter, run, rfl⟩
  · intro found
    obtain ⟨interpreter, run, rfl⟩ := found
    exact ⟨(answer, interpreter), run, rfl⟩

theorem drain_eq_ok {fuel : Nat} {stream left : CompiledStream β α μ} {verdict : Bool} :
    stream.drain fuel = some (.ok verdict, left) ↔ ∃ progress interpreter,
      stream.interpreter.interpret fuel = some (.ok progress, interpreter) ∧
        left = { stream with draining := true, interpreter := interpreter } ∧
        verdict = left.isDrained := by
  unfold drain
  constructor
  · intro run
    split at run
    next => cases run
    next => cases run
    next progress left interpreted =>
      cases run
      obtain ⟨interpreter, called, rfl⟩ := interpret_eq_some.mp interpreted
      exact ⟨progress, interpreter, called, rfl, rfl⟩
  · intro found
    obtain ⟨progress, interpreter, called, rfl, rfl⟩ := found
    have interpreted : ({ stream with draining := true } : CompiledStream β α μ).interpret fuel =
        some (.ok progress, { stream with draining := true, interpreter := interpreter }) :=
      interpret_eq_some.mpr ⟨interpreter, called, rfl⟩
    rw [interpreted]

theorem interpret_frame {fuel : Nat} {stream left : CompiledStream β α μ}
    {answer : Except Error Bool} (run : stream.interpret fuel = some (answer, left)) :
    left.interpreter.frame = stream.interpreter.frame ∧ left.output = stream.output := by
  obtain ⟨interpreter, called, rfl⟩ := interpret_eq_some.mp run
  exact ⟨Interpreter.interpret_frame called, rfl⟩

private theorem offer_frame {fuel : Nat} {stream left : CompiledStream β α μ} {element : α}
    {answer : Except Error Bool} (run : stream.offer fuel element = some (answer, left)) :
    left.interpreter.frame = stream.interpreter.frame ∧ left.output = stream.output := by
  unfold offer at run
  split at run
  next =>
    cases run
    exact ⟨rfl, rfl⟩
  next =>
    split at run
    next =>
      cases run
      exact ⟨rfl, rfl⟩
    next fed push =>
      have pushed : fed.frame = stream.interpreter.frame :=
        (Interpreter.Traffic.push _ _ push).frame_eq
      split at run
      next => cases run
      next called =>
        cases run
        have same := interpret_frame called
        exact ⟨same.1.trans pushed, same.2⟩
      next called =>
        cases run
        have same := interpret_frame called
        exact ⟨same.1.trans pushed, same.2⟩

omit [Recipient β μ] [Work β α μ] in
private theorem poll_frame (stream : CompiledStream β α μ) :
    stream.poll.2.interpreter.frame = stream.interpreter.frame ∧
      stream.poll.2.output = stream.output := by
  unfold poll
  split
  next => exact ⟨rfl, rfl⟩
  next pop => exact ⟨(Interpreter.Traffic.pop _ pop).frame_eq, rfl⟩

private theorem drain_frame {fuel : Nat} {stream left : CompiledStream β α μ}
    {answer : Except Error Bool} (run : stream.drain fuel = some (answer, left)) :
    left.interpreter.frame = stream.interpreter.frame ∧ left.output = stream.output := by
  unfold drain at run
  split at run
  next => cases run
  next called =>
    cases run
    have same := interpret_frame called
    exact same
  next called =>
    cases run
    have same := interpret_frame called
    exact same

private theorem use_frame {fuel : Nat} {stream left : CompiledStream β α μ} {action : Use α}
    {reply : Reply α} (done : stream.use fuel action = some (reply, left)) :
    left.interpreter.frame = stream.interpreter.frame ∧ left.output = stream.output := by
  cases action with
  | offer element =>
      obtain ⟨⟨answer, after⟩, offered, same⟩ := Option.map_eq_some_iff.mp done
      cases same
      exact offer_frame offered
  | poll =>
      cases done
      exact stream.poll_frame
  | drain =>
      obtain ⟨⟨answer, after⟩, drained, same⟩ := Option.map_eq_some_iff.mp done
      cases same
      exact drain_frame drained

end

/-- Nothing is left behind if all channels but the output are empty and, where that is asked
for, no message waits. -/
theorem isDrained_iff {stream : CompiledStream β α μ} {outlet : ChannelId}
    (output : stream.interpreter.channelId? stream.output = some outlet) :
    stream.isDrained = true ↔
      (∀ channel, channel ≠ outlet →
        (stream.interpreter.graph.bank.channel channel).items = []) ∧
      (stream.checkPendingMessages = true →
        ∀ worker ∈ stream.interpreter.graph.workers, worker.queue.messages = []) := by
  have channels : stream.undrained = 0 ↔ ∀ channel, channel ≠ outlet →
      (stream.interpreter.graph.bank.channel channel).items = [] := by
    unfold undrained
    rw [output, tally_eq_zero]
    constructor
    · intro empty channel other
      by_cases known : channel < stream.interpreter.graph.bank.size
      · refine List.eq_nil_of_length_eq_zero (empty channel ?_)
        rw [List.mem_filter, List.mem_range, bne_iff_ne]
        exact ⟨known, fun same => other (Option.some.inj same)⟩
      · have absent : stream.interpreter.graph.bank.slots[channel]? = none :=
          List.getElem?_eq_none (Nat.le_of_not_lt known)
        simp only [Bank.channel, Bank.channel?, absent, Option.map_none, Option.getD_none]
    · intro empty channel member
      rw [List.mem_filter, bne_iff_ne] at member
      have cleared := empty channel (fun same => member.2 (congrArg some same))
      exact congrArg List.length cleared
  have messages : stream.interpreter.graph.pendingMessages = 0 ↔
      ∀ worker ∈ stream.interpreter.graph.workers, worker.queue.messages = [] := by
    unfold Graph.pendingMessages
    rw [tally_eq_zero]
    exact forall₂_congr (fun worker _ => List.length_eq_zero_iff)
  unfold isDrained
  rw [Bool.and_eq_true, Bool.or_eq_true, beq_iff_eq, beq_iff_eq, channels, messages,
    Bool.not_eq_true', ← Bool.not_eq_true, ← imp_iff_not_or]

/-! ### Frozen streams -/

/-- What is settled when a stream is made: without a limit on passes a call runs to its
fixpoint, and what leaves the stream feeds no worker. -/
structure Poised (outlet : ChannelId) (stream : CompiledStream β α μ) : Prop where
  orderly : stream.interpreter.Orderly
  unlimited : stream.interpreter.maxPasses = none
  output : stream.interpreter.channelId? stream.output = some outlet
  apart : ∀ id, ∀ port ∈ stream.interpreter.graph.frame.wiring.inputs id, port.channel ≠ outlet

theorem Poised.of_frame_eq {outlet : ChannelId} {before after : CompiledStream β α μ}
    (poised : before.Poised outlet) (frame : after.interpreter.frame = before.interpreter.frame)
    (output : after.output = before.output) : after.Poised outlet where
  orderly := poised.orderly.of_frame_eq frame
  unlimited := (congrArg InterpreterFrame.maxPasses frame).trans poised.unlimited
  output := by
    rw [output]
    exact (Interpreter.channelId_of_frame frame _).trans poised.output
  apart := by
    have same : after.interpreter.graph.frame = before.interpreter.graph.frame :=
      congrArg InterpreterFrame.graph frame
    rw [same]
    exact poised.apart

private theorem Poised.used [Recipient β μ] [Work β α μ] {outlet : ChannelId}
    {start stream : CompiledStream β α μ} (poised : start.Poised outlet)
    (history : start.Used stream) : stream.Poised outlet := by
  induction history with
  | start => exact poised
  | use fuel before done inductionHypothesis =>
      have same := use_frame done
      exact inductionHypothesis.of_frame_eq same.1 same.2

/-- The state of a drained stream: since it was settled only the output has lost elements. -/
structure Frozen (outlet : ChannelId) (settled : CompiledStream β α μ) (waiting : List α)
    (stream : CompiledStream β α μ) : Prop where
  poised : stream.Poised outlet
  closed : stream.draining = true
  checks : stream.checkPendingMessages = settled.checkPendingMessages
  jammed : stream.interpreter.AllJammed stream.interpreter.sinks
  members : stream.interpreter.members = settled.interpreter.members
  workers : stream.interpreter.graph.workers = settled.interpreter.graph.workers
  journal : stream.interpreter.journal = settled.interpreter.journal
  channels : ∀ channel, channel ≠ outlet →
    stream.interpreter.graph.bank.channel channel =
      settled.interpreter.graph.bank.channel channel
  holds : (stream.interpreter.graph.bank.channel outlet).items = waiting

section

variable {outlet : ChannelId} {settled stream : CompiledStream β α μ} {waiting : List α}

private theorem Frozen.verdict (frozen : Frozen outlet settled waiting stream)
    (output : settled.interpreter.channelId? settled.output = some outlet) :
    stream.isDrained = settled.isDrained := by
  rw [Bool.eq_iff_iff, isDrained_iff frozen.poised.output, isDrained_iff output, frozen.checks,
    frozen.workers]
  have same (channel : ChannelId) (other : channel ≠ outlet) :
      (stream.interpreter.graph.bank.channel channel).items = [] ↔
        (settled.interpreter.graph.bank.channel channel).items = [] := by
    rw [frozen.channels channel other]
  rw [forall₂_congr same]

private theorem Frozen.poll (frozen : Frozen outlet settled waiting stream) :
    ∃ left, stream.poll = (waiting.head?, left) ∧ Frozen outlet settled waiting.tail left := by
  let popped := stream.interpreter.graph.bank.pop outlet
  have keys : popped.2.keys = stream.interpreter.graph.bank.keys := Bank.keys_pop _ _
  have others (channel : ChannelId) (other : channel ≠ outlet) :
      popped.2.channel channel = stream.interpreter.graph.bank.channel channel :=
    Bank.channel_set_of_ne frozen.poised.orderly.unshared _ other
  let left : CompiledStream β α μ :=
    { stream with interpreter := stream.interpreter.withBank popped.2 }
  have frame : left.interpreter.frame = stream.interpreter.frame :=
    Interpreter.frame_withBank keys
  refine ⟨left, ?_, ?_⟩
  · have taken : stream.poll = (popped.1.toOption, left) := by
      unfold CompiledStream.poll Interpreter.pop?
      rw [frozen.poised.output]
      rfl
    have front : popped.1.toOption = waiting.head? := by
      rw [← frozen.holds]
      change ((stream.interpreter.graph.bank.channel outlet).pop).1.toOption = _
      unfold Channel.pop Channel.pop?
      cases (stream.interpreter.graph.bank.channel outlet).items with
      | nil => rfl
      | cons element rest => rfl
    rw [taken, front]
  · exact
      { poised := frozen.poised.of_frame_eq frame rfl
        closed := frozen.closed
        checks := frozen.checks
        jammed := by
          intro sink member
          obtain ⟨depth, jam⟩ := frozen.jammed sink member
          refine ⟨depth, jam.withBank frozen.poised.orderly.nondecreasing keys ?_⟩
          intro worker port portIn
          rw [others port.channel (frozen.poised.apart worker port portIn)]
        members := frozen.members
        workers := frozen.workers
        journal := frozen.journal
        channels := fun channel other =>
          (others channel other).trans (frozen.channels channel other)
        holds := by
          rw [← frozen.holds]
          exact Bank.items_pop_self _ outlet }

variable [Recipient β μ] [Work β α μ]

theorem Frozen.offer (frozen : Frozen outlet settled waiting stream) (fuel : Nat) (element : α) :
    stream.offer fuel element = some (.ok false, stream) := by
  unfold CompiledStream.offer
  rw [if_pos frozen.closed]

private theorem Frozen.drain (frozen : Frozen outlet settled waiting stream)
    (output : settled.interpreter.channelId? settled.output = some outlet) {fuel : Nat}
    (enough : settled.interpreter.members.length < fuel) :
    ∃ left, stream.drain fuel = some (.ok settled.isDrained, left) ∧
      Frozen outlet settled waiting left := by
  let called : Interpreter β α μ := { stream.interpreter with
    stats := { stream.interpreter.stats with
      interpretCalls := stream.interpreter.stats.interpretCalls + 1 } }
  have orderly : called.Orderly := frozen.poised.orderly.of_frame_eq rfl
  have jammed : called.AllJammed called.sinks :=
    frozen.jammed.counted frozen.poised.orderly rfl rfl
  obtain ⟨rested, idle, graph, journal⟩ := Interpreter.round_of_jammed orderly jammed
    (show called.members.length < fuel from frozen.members ▸ enough)
  have frame : rested.frame = stream.interpreter.frame := by
    have passed := Interpreter.pass_frame idle
    exact passed
  have run : stream.interpreter.interpret fuel = some (.ok false, rested) := by
    obtain ⟨spare, rfl⟩ : ∃ spare, fuel = spare + 1 := ⟨fuel - 1, by omega⟩
    have first : stream.interpreter.interpret (spare + 1) =
        Interpreter.goOn (spare + 1) spare none false (called.round (spare + 1)) :=
      Interpreter.passes_of_unlimited frozen.poised.unlimited
    rw [first, idle]
    rfl
  let left : CompiledStream β α μ := { stream with draining := true, interpreter := rested }
  have sinks : rested.sinks = stream.interpreter.sinks := congrArg InterpreterFrame.sinks frame
  have still : Frozen outlet settled waiting left :=
    { poised := frozen.poised.of_frame_eq frame rfl
      closed := rfl
      checks := frozen.checks
      jammed := by
        change rested.AllJammed rested.sinks
        rw [sinks]
        exact frozen.jammed.counted frozen.poised.orderly frame graph
      members := (congrArg InterpreterFrame.members frame).trans frozen.members
      workers := (congrArg Graph.workers graph).trans frozen.workers
      journal := journal.trans frozen.journal
      channels := by
        change ∀ channel, channel ≠ outlet → rested.graph.bank.channel channel = _
        rw [graph]
        exact frozen.channels
      holds := by
        change (rested.graph.bank.channel outlet).items = waiting
        rw [graph]
        exact frozen.holds }
  exact ⟨left, drain_eq_ok.mpr ⟨false, rested, run, rfl, (still.verdict output).symm⟩, still⟩

private theorem Frozen.useAll (frozen : Frozen outlet settled waiting stream)
    (output : settled.interpreter.channelId? settled.output = some outlet) {fuel : Nat}
    (enough : settled.interpreter.members.length < fuel) (uses : List (Use α)) :
    ∃ now, stream.useAll fuel uses =
        some (frozenReplies settled.isDrained waiting uses, now) ∧
      ∃ rest, Frozen outlet settled rest now := by
  induction uses generalizing stream waiting with
  | nil => exact ⟨stream, rfl, waiting, frozen⟩
  | cons first rest inductionHypothesis =>
      cases first with
      | offer element =>
          obtain ⟨now, run, later⟩ := inductionHypothesis frozen
          have turned : stream.use fuel (.offer element) = some (.offered (.ok false), stream) :=
            congrArg (Option.map (Prod.map Reply.offered id)) (frozen.offer fuel element)
          exact ⟨now, useAll_cons turned run, later⟩
      | poll =>
          obtain ⟨left, polled, still⟩ := frozen.poll
          obtain ⟨now, run, later⟩ := inductionHypothesis still
          have taken : stream.use fuel .poll = some (.polled waiting.head?, left) :=
            congrArg (fun outcome => some (Prod.map Reply.polled id outcome)) polled
          exact ⟨now, useAll_cons taken run, later⟩
      | drain =>
          obtain ⟨left, drained, still⟩ := frozen.drain output enough
          obtain ⟨now, run, later⟩ := inductionHypothesis still
          have judged : stream.use fuel .drain =
              some (.drained (.ok settled.isDrained), left) :=
            congrArg (Option.map (Prod.map Reply.drained id)) drained
          exact ⟨now, useAll_cons judged run, later⟩

end

/-- A successful drain freezes the stream. -/
theorem Poised.frozen [Recipient β μ] [Work β α μ] {outlet : ChannelId}
    {stream drained : CompiledStream β α μ} (poised : stream.Poised outlet) {fuel : Nat}
    {verdict : Bool} (run : stream.drain fuel = some (.ok verdict, drained)) :
    verdict = drained.isDrained ∧
      Frozen outlet drained (drained.interpreter.graph.bank.channel outlet).items drained := by
  obtain ⟨progress, interpreter, called, rfl, rfl⟩ := drain_eq_ok.mp run
  refine ⟨rfl, ?_⟩
  exact
    { poised := poised.of_frame_eq (Interpreter.interpret_frame called) rfl
      closed := rfl
      checks := rfl
      jammed := Interpreter.interpret_jams poised.orderly poised.unlimited called
      members := rfl
      workers := rfl
      journal := rfl
      channels := fun _ _ => rfl
      holds := rfl }

end CompiledStream

namespace Compiler

open CompiledStream

private theorem compileBuilt_poised [Signature β] {compiler : Compiler} {builder : Builder β α}
    (assembled : builder.Assembled) {head tail : WorkerId} {start : CompiledStream β α μ}
    (compiled : compiler.compileBuilt builder head tail = .ok start)
    (unlimited : compiler.config.maxPasses = none)
    (unshared : start.interpreter.graph.bank.Unshared)
    (nondecreasing : ∀ constraint ∈ start.interpreter.graph.constraints,
      constraint.schedule.Nondecreasing) : ∃ outlet, start.Poised outlet := by
  obtain ⟨graph, interpreter, build, opened, created⟩ := compileBuilt_view compiled
  have built : graph.Built := ⟨builder, assembled, build⟩
  have accepted := Interpreter.accepted_of_create opened
  have boundaries : interpreter.boundaries =
      Interpreter.boundariesOf interpreter.graph interpreter.members := by
    rw [accepted.graph_eq]
    exact accepted.boundaries
  obtain ⟨same, _, source, outlet, _, output, ends⟩ :=
    Interpreter.ends_of_create created boundaries
  have graphEq : start.interpreter.graph = graph := by
    rw [same]
    exact accepted.graph_eq
  have opens : Interpreter.Opens graph graph.workerIds graph.constraints start.interpreter :=
    ⟨interpreter, _, _, opened, same⟩
  have sound := opens.frame_sound built.sound
  refine ⟨outlet, ?_⟩
  exact
    { orderly := ⟨sound, unshared, fun constraint member =>
        nondecreasing constraint (graphEq ▸ opens.given constraint member)⟩
      unlimited := by
        rw [same]
        exact unlimited
      output := by
        rw [same]
        exact output
      apart := by
        have all (id : WorkerId) (worker : Worker β μ)
            (known : interpreter.graph.worker? id = some worker) : id ∈ interpreter.members := by
          rw [Interpreter.members_of_forGraph opened, List.mem_range, ← accepted.graph_eq]
          exact (List.getElem?_eq_some_iff.mp known).1
        intro id port member
        rw [same] at member
        have wired : interpreter.graph.frame.wiring.Sound := by
          rw [accepted.graph_eq]
          exact built.sound.wiring
        exact ends.ne_drain wired all member }

/-- A drained stream is frozen. Whatever is done with it afterwards, offers are turned away
and change nothing, drains repeat the verdict, and polls give the results that were ready when
it was drained, in order, and then nothing. No worker fires or receives anything. The verdict
tells whether all channels but the output were empty and, if that is checked, no message was
waiting. -/
theorem drained_stream_is_frozen [Signature β] [Recipient β μ] [Work β α μ]
    {compiler : Compiler} {builder : Builder β α} (assembled : builder.Assembled)
    {head tail : WorkerId} {start : CompiledStream β α μ}
    (compiled : compiler.compileBuilt builder head tail = .ok start)
    (unlimited : compiler.config.maxPasses = none)
    (unshared : start.interpreter.graph.bank.Unshared)
    (nondecreasing : ∀ constraint ∈ start.interpreter.graph.constraints,
      constraint.schedule.Nondecreasing)
    {stream drained : CompiledStream β α μ} (history : start.Used stream) {fuel : Nat}
    {verdict : Bool} (run : stream.drain fuel = some (.ok verdict, drained)) :
    ∃ outlet, drained.interpreter.channelId? drained.output = some outlet ∧
      (verdict = true ↔
        (∀ channel, channel ≠ outlet →
          (drained.interpreter.graph.bank.channel channel).items = []) ∧
        (drained.checkPendingMessages = true →
          ∀ worker ∈ drained.interpreter.graph.workers, worker.queue.messages = [])) ∧
      ∀ (uses : List (Use α)) (more : Nat), drained.interpreter.members.length < more →
        ∃ now, drained.useAll more uses =
            some (frozenReplies verdict
              (drained.interpreter.graph.bank.channel outlet).items uses, now) ∧
          now.interpreter.journal = drained.interpreter.journal ∧
          now.interpreter.graph.workers = drained.interpreter.graph.workers ∧
          (∀ channel, channel ≠ outlet → now.interpreter.graph.bank.channel channel =
            drained.interpreter.graph.bank.channel channel) ∧
          ∀ element, now.offer more element = some (.ok false, now) := by
  obtain ⟨outlet, poised⟩ :=
    compileBuilt_poised assembled compiled unlimited unshared nondecreasing
  obtain ⟨rfl, frozen⟩ := (poised.used history).frozen run
  have output := frozen.poised.output
  refine ⟨outlet, output, isDrained_iff output, ?_⟩
  intro uses more enough
  obtain ⟨now, replies, rest, still⟩ := frozen.useAll output enough uses
  exact ⟨now, replies, still.journal, still.workers, still.channels,
    fun element => still.offer more element⟩

/-- A filter that passes elements on in pairs, between an input and an output. -/
def pairsBuilder : Builder Standard Nat :=
  ((Compiler.auditing.builder : Builder Standard Nat).addStream
    (.filter ⟨"pairs", .roundRobinJoin 2⟩)).2

private theorem pairsBuilder_assembled : pairsBuilder.Assembled :=
  .addStream _ (.fresh _)

/-- Of three elements one is left behind. It stays so, whatever is offered. -/
theorem drained_stream_is_frozen_pairs :
    ∃ (start stream drained now : CompiledStream Standard Nat Unit),
      Compiler.auditing.compileBuilt pairsBuilder 0 0 = .ok start ∧ start.Used stream ∧
      stream.drain 9 = some (.ok false, drained) ∧
      drained.useAll 9 [.offer 4, .poll, .drain, .poll, .offer 5, .poll] =
        some ([.offered (.ok false), .polled (some 1), .drained (.ok false), .polled (some 2),
          .offered (.ok false), .polled none], now) ∧
      now.interpreter.journal = [0] := by
  obtain ⟨start, first, second, stream, drained, compiled, one, two, three, run, journal,
      waiting, members, unshared, unconstrained⟩ :
      ∃ (start first second stream drained : CompiledStream Standard Nat Unit),
        Compiler.auditing.compileBuilt pairsBuilder 0 0 = .ok start ∧
        start.use 9 (.offer 1) = some (.offered (.ok true), first) ∧
        first.use 9 (.offer 2) = some (.offered (.ok true), second) ∧
        second.use 9 (.offer 3) = some (.offered (.ok true), stream) ∧
        stream.drain 9 = some (.ok false, drained) ∧ drained.interpreter.journal = [0] ∧
        ((drained.interpreter.channelId? drained.output).map fun outlet =>
          (drained.interpreter.graph.bank.channel outlet).items) = some [1, 2] ∧
        drained.interpreter.members.length < 9 ∧
        (∀ key ∈ start.interpreter.graph.bank.keys, key = none) ∧
        start.interpreter.graph.constraints = [] :=
    ⟨_, _, _, _, _, rfl, rfl, rfl, rfl, rfl, rfl, rfl, by decide, by decide, rfl⟩
  obtain ⟨outlet, output, _, frozen⟩ := drained_stream_is_frozen pairsBuilder_assembled compiled
    rfl (Bank.unshared_of_own unshared) (by rw [unconstrained]; nofun)
    (.use 9 (.use 9 (.use 9 .start one) two) three) run
  rw [output] at waiting
  have items := Option.some.inj waiting
  obtain ⟨now, replies, same, _⟩ :=
    frozen [.offer 4, .poll, .drain, .poll, .offer 5, .poll] 9 members
  dsimp only at items
  rw [items] at replies
  exact ⟨start, stream, drained, now, compiled, .use 9 (.use 9 (.use 9 .start one) two) three,
    run, replies, same.trans journal⟩

end Compiler

end DemandFlow
