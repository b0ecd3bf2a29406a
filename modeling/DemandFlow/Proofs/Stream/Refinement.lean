import DemandFlow.Work.Body
import DemandFlow.Proofs.Interpreter.Answer
import DemandFlow.Proofs.Stream.Compilation
import DemandFlow.Proofs.Stream.Standard

/-!
Compiled streams compute their meaning. Elements offered one at a time are all taken in, and
what can be polled afterwards is what the meaning of the stream makes of them, neither
shorter nor longer nor in another order.
-/

set_option autoImplicit false

namespace DemandFlow

variable {β α μ : Type}

namespace CompiledStream

/-- The elements are offered one at a time, and each of them is taken in. -/
inductive Offers [Recipient β μ] [Work β α μ] (fuel : Nat) :
    CompiledStream β α μ → List α → CompiledStream β α μ → Prop where
  | done (stream : CompiledStream β α μ) : Offers fuel stream [] stream
  | next {stream left last : CompiledStream β α μ} {element : α} {rest : List α}
      (taken : stream.offer fuel element = some (.ok true, left))
      (further : Offers fuel left rest last) : Offers fuel stream (element :: rest) last

/-- Polling until there is nothing gives these elements. -/
inductive Polls : CompiledStream β α μ → List α → Prop where
  | done {stream left : CompiledStream β α μ} (empty : stream.poll = (none, left)) :
      Polls stream []
  | next {stream left : CompiledStream β α μ} {element : α} {rest : List α}
      (ready : stream.poll = (some element, left)) (further : Polls left rest) :
      Polls stream (element :: rest)

/-- The same, with the stream that polling leaves. -/
inductive PollsTo : CompiledStream β α μ → List α → CompiledStream β α μ → Prop where
  | done {stream left : CompiledStream β α μ} (empty : stream.poll = (none, left)) :
      PollsTo stream [] left
  | next {stream left last : CompiledStream β α μ} {element : α} {rest : List α}
      (ready : stream.poll = (some element, left)) (further : PollsTo left rest last) :
      PollsTo stream (element :: rest) last

private theorem PollsTo.polls {stream last : CompiledStream β α μ} {elements : List α}
    (polled : stream.PollsTo elements last) : stream.Polls elements := by
  induction polled with
  | done empty => exact .done empty
  | next ready _ inductionHypothesis => exact .next ready inductionHypothesis

end CompiledStream

private theorem InterpreterFrame.Hosts.source_lt [Signature β] [Work β α μ]
    {frame : InterpreterFrame} {audited : Bool} {layout : Layout β} {source drain : ChannelId}
    {tail : WorkerId} (hosts : frame.Hosts α μ audited layout source drain tail)
    {graph : Graph β α μ} (framed : graph.frame = frame.graph) : source < graph.bank.size := by
  obtain ⟨id, member⟩ := hosts.entry
  rw [hosts.describes.inputs] at member
  obtain ⟨port, portIn, rfl⟩ := List.mem_map.mp member
  obtain ⟨index, place⟩ := List.mem_iff_getElem?.mp portIn
  have range := hosts.sound.graph.wiring.inputRange id index port place
  rw [← framed] at range
  simpa [GraphFrame.wiring, Graph.frame, Bank.keys, Bank.size] using range

private theorem Layout.Uncounted.push {layout : Layout β} {bank : Bank α}
    (uncounted : layout.Uncounted bank) (unshared : bank.Unshared) {source : ChannelId}
    (known : source < bank.size) (foreign : ∀ id, source ∉ layout.outputs id) (element : α) :
    layout.Uncounted (bank.pushAll source [element]) := by
  unfold Bank.pushAll
  constructor
  · intro id channel member
    obtain ⟨stats, counted, unseen, untaken⟩ := uncounted.inputs id channel member
    by_cases same : channel = source
    · subst same
      refine ⟨stats.countPush, ?_, unseen, untaken⟩
      rw [Bank.channel_set_self _ _ known]
      exact congrArg (Option.map ChannelStats.countPush) counted
    · rw [Bank.channel_set_of_ne unshared _ same]
      exact ⟨stats, counted, unseen, untaken⟩
  · intro id channel member
    rw [Bank.channel_set_of_ne unshared _ (by rintro rfl; exact foreign id member)]
    exact uncounted.outputs id channel member

namespace Interpreter

theorem channelId_of_frame {left right : Interpreter β α μ} (same : left.frame = right.frame)
    (token : BoundaryToken) : left.channelId? token = right.channelId? token := by
  have boundaries : left.boundaries = right.boundaries :=
    congrArg InterpreterFrame.boundaries same
  unfold channelId? boundary?
  rw [boundaries]

variable [Signature β] [Work β α μ] {frame : InterpreterFrame} {audited : Bool}
  {layout : Layout β} {source drain : ChannelId} {tail : WorkerId}
  {carried : ChannelId → List α} {interpreter : Interpreter β α μ}

/-- An element that comes in at the source does not disturb the run. -/
theorem Running.push (running : Running audited layout drain frame carried interpreter)
    (hosts : frame.Hosts α μ audited layout source drain tail) (element : α) :
    Running audited layout drain frame
      (fun channel => carried channel ++ if channel = source then [element] else [])
      (interpreter.withBank (interpreter.graph.bank.pushAll source [element])) := by
  have framed := running.graph_frame
  have unshared := hosts.unshared framed
  have known := hosts.source_lt framed
  have items (channel : ChannelId) :
      ((interpreter.graph.bank.pushAll source [element]).channel channel).items =
        (interpreter.graph.bank.channel channel).items ++
          if channel = source then [element] else [] := by
    unfold Bank.pushAll
    by_cases same : channel = source
    · subst same
      rw [Bank.channel_set_self _ _ known, Channel.items_pushAll, if_pos rfl]
    · rw [Bank.channel_set_of_ne unshared _ same, if_neg same, List.append_nil]
  refine ⟨?_, ⟨?_, ?_⟩, ?_⟩
  · have same : (interpreter.withBank (interpreter.graph.bank.pushAll source [element])).frame =
        interpreter.frame := frame_withBank (Bank.keys_set _ _ _)
    exact same.trans running.frame_eq
  · intro id worker found
    obtain ⟨body, progress, tracks⟩ := running.simulates.workers id worker found
    refine ⟨body, _, tracks.extend (fun channel _ => items channel) ?_⟩
    intro channel member
    rw [if_neg]
    rintro rfl
    exact hosts.foreign id member
  · rw [← running.simulates.drained]
    exact items drain
  · intro audits
    exact (running.uncounted audits).push unshared known hosts.foreign element

end Interpreter

/-- Calls make at least one pass, and one firing of the last worker is all that one more element
can ask for: if everything had been carried before the element came in, everything has been
carried after that firing. -/
structure InterpreterFrame.Prompt {β : Type} (frame : InterpreterFrame) (α μ : Type) [Signature β]
    [Work β α μ] (layout : Layout β) (source drain : ChannelId) (tail : WorkerId) : Prop where
  passes : frame.maxPasses ≠ some 0
  terminal : ∀ interpreter : Interpreter β α μ, interpreter.frame = frame → interpreter.Terminal
  once : ∀ (carried later : ChannelId → List α) (before after : Graph β α μ) (element : α),
    before.frame = frame.graph → after.frame = frame.graph →
    Simulates layout drain carried before → Simulates layout drain later after →
    layout.Complete μ source carried drain → later source = carried source ++ [element] →
    before.Advances after tail → layout.Complete μ source later drain

namespace CompiledStream

/-- What holds of a stream between two offers: all that can be made of what has come in has
been made. -/
structure Serving [Signature β] [Work β α μ] (audited : Bool) (layout : Layout β)
    (source drain : ChannelId) (frame : InterpreterFrame) (carried : ChannelId → List α)
    (stream : CompiledStream β α μ) : Prop where
  running : Interpreter.Running audited layout drain frame carried stream.interpreter
  input : stream.interpreter.channelId? stream.input = some source
  output : stream.interpreter.channelId? stream.output = some drain
  accepting : stream.draining = false
  complete : layout.Complete μ source carried drain

section

variable [Signature β] [Recipient β μ] [Work β α μ] {frame : InterpreterFrame}
  {audited : Bool} {layout : Layout β} {source drain : ChannelId} {tail : WorkerId}
  {carried : ChannelId → List α} {stream : CompiledStream β α μ} {elements : List α}
  {bound fuel : Nat}

/-- If a call answers that a sink has fired, the last worker has. -/
theorem advances_tail (hosts : frame.Hosts α μ audited layout source drain tail)
    {before after : Interpreter β α μ} (framed : before.frame = frame)
    (terminal : before.Terminal) (run : before.interpret fuel = some (.ok true, after)) :
    before.graph.Advances after.graph tail := by
  obtain ⟨fired, served, course, answer⟩ := Interpreter.interpret_course terminal run
  obtain ⟨sink, among⟩ := List.exists_mem_of_ne_nil served (by simpa using answer)
  have only : sink ∈ [tail] := by
    rw [← hosts.sinks, ← framed]
    exact course.served_sinks sink among
  rw [List.mem_singleton] at only
  subst only
  have within : sink < frame.graph.workers.length :=
    hosts.sound.known sink (hosts.sound.sinks sink (by simp [hosts.sinks]))
  obtain ⟨worker, known⟩ :=
    Graph.worker_of_lt (congrArg InterpreterFrame.graph framed) within
  exact (course.since.advances (Graph.executions?_of_known known)).mpr
    (course.served_fired sink among)

private theorem Serving.offer (serving : Serving audited layout source drain frame carried stream)
    (hosts : frame.Hosts α μ audited layout source drain tail)
    (bounded : FiringBound μ layout frame.graph source drain elements bound)
    (pace : frame.maxPasses = none ∨ frame.Prompt α μ layout source drain tail)
    (enough : 2 * bound + frame.graph.workers.length < fuel) (element : α)
    (offered : carried source ++ [element] <+: elements) :
    ∃ (later : ChannelId → List α) (left : CompiledStream β α μ),
      stream.offer fuel element = some (.ok true, left) ∧
      Serving audited layout source drain frame later left ∧
      later source = carried source ++ [element] := by
  have pushed := serving.running.push hosts element
  have atSource : carried source ++ (if source = source then [element] else []) =
      carried source ++ [element] := by
    rw [if_pos rfl]
  obtain ⟨answer, later, final, run, further, same, settled⟩ :=
    Interpreter.interpret_returns hosts bounded pushed (atSource.symm ▸ offered) enough
  have framed : final.frame = stream.interpreter.frame :=
    further.frame_eq.trans serving.running.frame_eq.symm
  have complete : layout.Complete μ source later drain := by
    rcases pace with unlimited | prompt
    · exact settled (.inl unlimited)
    · cases answer with
      | false => exact settled (.inr ⟨prompt.passes, rfl⟩)
      | true =>
          have advanced :=
            advances_tail hosts pushed.frame_eq (prompt.terminal _ pushed.frame_eq) run
          exact prompt.once carried later stream.interpreter.graph final.graph element
            serving.running.graph_frame further.graph_frame serving.running.simulates
            further.simulates serving.complete (same.trans atSource) advanced
  refine ⟨later, { stream with interpreter := final }, ?_, ?_, same.trans atSource⟩
  · unfold CompiledStream.offer CompiledStream.interpret Interpreter.pushAll?
    rw [serving.accepting, serving.input]
    dsimp only [Option.map_some]
    rw [run]
    rfl
  · exact
      { running := further
        input := (Interpreter.channelId_of_frame framed _).trans serving.input
        output := (Interpreter.channelId_of_frame framed _).trans serving.output
        accepting := serving.accepting
        complete := complete }

private theorem Serving.offers (serving : Serving audited layout source drain frame carried stream)
    (hosts : frame.Hosts α μ audited layout source drain tail)
    (bounded : FiringBound μ layout frame.graph source drain elements bound)
    (pace : frame.maxPasses = none ∨ frame.Prompt α μ layout source drain tail)
    (enough : 2 * bound + frame.graph.workers.length < fuel) {rest : List α}
    (split : carried source ++ rest = elements) :
    ∃ (later : ChannelId → List α) (left : CompiledStream β α μ),
      stream.Offers fuel rest left ∧
      Serving audited layout source drain frame later left ∧ later source = elements := by
  induction rest generalizing carried stream with
  | nil =>
      rw [List.append_nil] at split
      exact ⟨carried, stream, .done stream, serving, split⟩
  | cons element rest inductionHypothesis =>
      have whole : (carried source ++ [element]) ++ rest = elements := by
        rw [List.append_assoc]
        exact split
      obtain ⟨later, left, taken, further, grown⟩ :=
        serving.offer hosts bounded pace enough element ⟨rest, whole⟩
      obtain ⟨last, final, offers, served, all⟩ :=
        inductionHypothesis further (by rw [grown]; exact whole)
      exact ⟨last, final, .next taken offers, served, all⟩

end

/-- A poll takes the front of the output channel and leaves the other channels as they are. -/
theorem poll_output {stream : CompiledStream β α μ} {drain : ChannelId}
    (output : stream.interpreter.channelId? stream.output = some drain) :
    ∃ left : CompiledStream β α μ,
      stream.poll = ((stream.interpreter.graph.bank.channel drain).items.head?, left) ∧
      left.interpreter.channelId? left.output = some drain ∧
      (left.interpreter.graph.bank.channel drain).items =
        (stream.interpreter.graph.bank.channel drain).items.tail ∧
      (stream.interpreter.graph.bank.Unshared →
        left.interpreter.graph.bank.Unshared ∧ ∀ channel, channel ≠ drain →
          left.interpreter.graph.bank.channel channel =
            stream.interpreter.graph.bank.channel channel) := by
  have front : (stream.interpreter.graph.bank.pop drain).1.toOption =
      (stream.interpreter.graph.bank.channel drain).items.head? := by
    change ((stream.interpreter.graph.bank.channel drain).pop).1.toOption = _
    unfold Channel.pop Channel.pop?
    cases (stream.interpreter.graph.bank.channel drain).items <;> rfl
  refine ⟨{ stream with interpreter :=
    stream.interpreter.withBank (stream.interpreter.graph.bank.pop drain).2 }, ?_, output, ?_, ?_⟩
  · unfold poll Interpreter.pop?
    rw [output, ← front]
    rfl
  · exact Bank.items_pop_self _ _
  · intro unshared
    exact ⟨unshared.of_keys_eq (Bank.keys_set _ _ _).symm,
      fun channel different => Bank.channel_set_of_ne unshared _ different⟩

theorem pollsTo_items {stream : CompiledStream β α μ} {drain : ChannelId} {elements : List α}
    (output : stream.interpreter.channelId? stream.output = some drain)
    (holds : (stream.interpreter.graph.bank.channel drain).items = elements) :
    ∃ last : CompiledStream β α μ, stream.PollsTo elements last ∧
      (last.interpreter.graph.bank.channel drain).items = [] ∧
      (stream.interpreter.graph.bank.Unshared → ∀ channel, channel ≠ drain →
        last.interpreter.graph.bank.channel channel =
          stream.interpreter.graph.bank.channel channel) := by
  induction elements generalizing stream with
  | nil =>
      obtain ⟨left, polled, _, emptied, others⟩ := poll_output output
      rw [holds] at polled emptied
      exact ⟨left, .done polled, emptied, fun unshared => (others unshared).2⟩
  | cons element rest inductionHypothesis =>
      obtain ⟨left, polled, leftOutput, shortened, others⟩ := poll_output output
      rw [holds] at polled shortened
      obtain ⟨last, further, emptied, lastOthers⟩ := inductionHypothesis leftOutput shortened
      refine ⟨last, .next polled further, emptied, ?_⟩
      intro unshared channel different
      rw [lastOthers (others unshared).1 channel different, (others unshared).2 channel different]

private theorem polls_items {stream : CompiledStream β α μ} {drain : ChannelId} {elements : List α}
    (output : stream.interpreter.channelId? stream.output = some drain)
    (holds : (stream.interpreter.graph.bank.channel drain).items = elements) :
    stream.Polls elements := by
  obtain ⟨last, polled, _⟩ := pollsTo_items output holds
  exact polled.polls

end CompiledStream

section

variable [Signature β] [Recipient β μ] [Work β α μ]

/-- From its start a stream takes in all the elements, and goes on serving. -/
theorem CompiledStream.Starts.serves_at_pace {stream : CompiledStream β α μ}
    {element : Element β} {audited : Bool} {layout : Layout β} {source drain : ChannelId}
    {tail : WorkerId} (starts : stream.Starts element audited layout source drain tail)
    (pace : stream.interpreter.frame.maxPasses = none ∨
      stream.interpreter.frame.Prompt α μ layout source drain tail) (elements : List α) :
    ∃ enough, ∀ fuel, enough ≤ fuel →
      ∃ (carried : ChannelId → List α) (left : CompiledStream β α μ),
        stream.Offers fuel elements left ∧ carried source = elements ∧
        left.Serving audited layout source drain stream.interpreter.frame carried := by
  obtain ⟨bound, bounded⟩ := starts.hosts.firing_bound elements
  refine ⟨2 * bound + stream.interpreter.frame.graph.workers.length + 1, ?_⟩
  intro fuel enough
  have serving : stream.Serving audited layout source drain stream.interpreter.frame
      (fun _ => []) :=
    ⟨starts.running, starts.input, starts.output, starts.accepting,
      fun final denotes => denotes.eq_nil.symm⟩
  obtain ⟨carried, left, offers, served, all⟩ :=
    serving.offers starts.hosts bounded pace enough (List.nil_append elements)
  exact ⟨carried, left, offers, all, served⟩

private theorem CompiledStream.Starts.serves {stream : CompiledStream β α μ} {element : Element β}
    {audited : Bool} {layout : Layout β} {source drain : ChannelId} {tail : WorkerId}
    (starts : stream.Starts element audited layout source drain tail)
    (unlimited : stream.interpreter.frame.maxPasses = none) (elements : List α) :
    ∃ enough, ∀ fuel, enough ≤ fuel →
      ∃ (carried : ChannelId → List α) (left : CompiledStream β α μ),
        stream.Offers fuel elements left ∧ carried source = elements ∧
        left.Serving audited layout source drain stream.interpreter.frame carried :=
  starts.serves_at_pace (.inl unlimited) elements

/-- A compiled stream whose bodies keep to their rates takes in whatever it is offered, one
element at a time, and what can be polled afterwards is what its meaning makes of that. -/
theorem Compiler.compiled_stream_computes_meaning {compiler : Compiler} {element : Element β}
    {stream : CompiledStream β α μ} (made : compiler.compile element = .ok stream)
    (unlimited : compiler.config.maxPasses = none)
    (abiding : element.Abiding α μ compiler.config.auditRates) (elements : List α) :
    ∃ enough, ∀ fuel, enough ≤ fuel → ∃ left : CompiledStream β α μ,
      stream.Offers fuel elements left ∧ left.Polls (element.meaning μ elements) := by
  obtain ⟨passes, layout, source, drain, tail, starts⟩ := compile_starts made abiding
  have denotes : layout.Denotes μ source elements drain (element.meaning μ elements) :=
    (starts.placed.denotes .source).1
  obtain ⟨enough, serves⟩ := starts.serves (passes.trans unlimited) elements
  refine ⟨enough, fun fuel above => ?_⟩
  obtain ⟨carried, left, offers, all, served⟩ := serves fuel above
  refine ⟨left, offers, CompiledStream.polls_items served.output ?_⟩
  rw [served.running.simulates.drained]
  apply served.complete
  rw [all]
  exact denotes

end

/-- Two copies of each element, one on a longer way, and pairs from each way in turn. -/
def pairing : Element Standard :=
  .pipeline
    [.filter ⟨"entry", .identity⟩,
      .splitjoin ⟨"copy", .duplicate⟩
        [.filter ⟨"short", .identity⟩,
          .pipeline [.filter ⟨"long", .identity⟩, .filter ⟨"longer", .identity⟩]]
        ⟨"pair", .roundRobinJoin 2⟩]

private theorem pairing_abiding (audited : Bool) : pairing.Abiding Nat Unit audited := by
  have single : Abides Nat Unit audited ⟨1, 1⟩ Standard.identity :=
    Standard.abides rfl (by decide) (by decide) ⟨0, by decide⟩ audited
  have copies : Abides Nat Unit audited ⟨1, 2⟩ Standard.duplicate :=
    Standard.abides rfl (by decide) (by decide) ⟨0, by decide⟩ audited
  have pairs : Abides Nat Unit audited ⟨2, 1⟩ (Standard.roundRobinJoin 2) :=
    Standard.abides rfl (by decide) (by decide) ⟨0, by decide⟩ audited
  exact ⟨single, ⟨copies, ⟨single, ⟨single, single, trivial⟩, trivial⟩, pairs⟩, trivial⟩

theorem Compiler.compiled_stream_computes_meaning_pairing :
    ∃ stream : CompiledStream Standard Nat Unit,
      Compiler.auditing.compile pairing = .ok stream ∧
      Compiler.auditing.config.maxPasses = none ∧
      pairing.Abiding Nat Unit Compiler.auditing.config.auditRates ∧
      ∃ enough, ∀ fuel, enough ≤ fuel → ∃ left : CompiledStream Standard Nat Unit,
        stream.Offers fuel [1, 2, 3] left ∧ left.Polls [1, 2, 1, 2] := by
  have means : pairing.meaning Unit [1, 2, 3] = [1, 2, 1, 2] := by decide +kernel
  have accepted : (Compiler.auditing.compile pairing :
      Except Error (CompiledStream Standard Nat Unit)).isOk = true := by decide +kernel
  cases made : (Compiler.auditing.compile pairing :
      Except Error (CompiledStream Standard Nat Unit)) with
  | error error =>
      rw [made] at accepted
      cases accepted
  | ok stream =>
      refine ⟨stream, rfl, rfl, pairing_abiding _, ?_⟩
      rw [← means]
      exact compiled_stream_computes_meaning made rfl (pairing_abiding _) [1, 2, 3]

/-- A filter that puts out every element twice, though it declares to put out one. -/
def doubling : Body :=
  .closure
    { pop := .exact 1
      push := .exact 1
      script := .step (.pop 0) (.step .dup (.step (.push 0) (.step (.push 0) .finish))) }

private theorem doubling_steady : Steady Notice (InputNeeds.of doubling ⟨1, 1⟩) doubling
    (fun index => if index = 0 then 1 else 0)
    (fun (inputs : Nat → List Int64) index =>
      if index = 0 then (inputs 0).take 1 ++ (inputs 0).take 1 else []) := by
  constructor
  · intro executions id portView sound sated
    change portView.Sound ⟨1, 1⟩ at sound
    have enough : 1 ≤ (portView.holds 0).length :=
      InputNeeds.sated_iff.mp sated 0 Nat.zero_lt_one
    have front : (portView.holds 0)[0]? = some (portView.holds 0)[0] :=
      List.getElem?_eq_getElem enough
    apply portView.handled_start.pop sound Nat.zero_lt_one front
    intro first popped
    apply popped.push sound Nat.zero_lt_one
    intro second once
    apply once.push sound Nat.zero_lt_one
    intro left twice
    refine ⟨left, rfl, twice.congr (fun index => (Nat.zero_add _).symm) ?_⟩
    intro index
    by_cases same : index = 0
    · simp [same, List.take_one, List.head?_eq_getElem?, front]
    · simp only [same, ↓reduceIte, List.append_nil]
  · intro left right same
    have leading := congrFun same 0
    change (left 0).take 1 = (right 0).take 1 at leading
    rw [leading]
  · decide
  · exact ⟨0, by decide⟩

private theorem doubling_abides : Abides Int64 Notice false ⟨1, 1⟩ doubling :=
  ⟨by decide, (· = doubling), rfl, doubling_steady.rateAbiding (by nofun)⟩

/-- Under audit it is not enough that a body keeps to what it finds on its inputs: an offer
fails when the body puts out more than it declares. -/
theorem Compiler.audit_refuses_doubling :
    (Element.filter ⟨"double", doubling⟩).Abiding Int64 Notice false ∧
    ∃ stream : CompiledStream Body Int64 Notice,
      ({ config := { auditRates := true, maxPasses := none } } : Compiler).compile
        (.filter ⟨"double", doubling⟩) = .ok stream ∧
      ∀ fuel left, stream.offer fuel 7 ≠ some (.ok true, left) := by
  refine ⟨doubling_abides, _, rfl, ?_⟩
  intro fuel left
  -- Three units are enough for the whole call, whatever is left of them.
  match fuel with
  | 0 => nofun
  | 1 => nofun
  | 2 => nofun
  | fuel + 3 => nofun

end DemandFlow
