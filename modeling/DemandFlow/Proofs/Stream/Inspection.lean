import DemandFlow.Proofs.Interpreter.Lockstep
import DemandFlow.Proofs.Stream.Freezing

/-!
Inspections. Between offers, polls and drains anybody may ask a stream how many elements a
boundary channel holds, what it has counted, and what lies in it. A stream that audits counts
such a look as one of the worker that reads the channel. So inspections can change replies, but
only where an audit tells: by a violation of a peek rate that does not hide the look.
-/

set_option autoImplicit false

namespace DemandFlow

variable {β α μ : Type}

namespace CompiledStream

inductive Reading where
  | size
  | stats
  | peek (index : Nat)

/-- What one gets to see. There is no channel behind an unknown token. -/
inductive Glimpse (α : Type) where
  | size (count : Option Nat)
  | stats (counts : Option (Option ChannelStats))
  | peek (answer : Option (Except Error α))

def inspect (stream : CompiledStream β α μ) (token : BoundaryToken) :
    Reading → Glimpse α × CompiledStream β α μ
  | .size => (.size (stream.interpreter.size? token), stream)
  | .stats =>
      (.stats ((stream.interpreter.channelId? token).map fun channel =>
        (stream.interpreter.graph.bank.channel channel).stats), stream)
  | .peek index =>
      match stream.peek? token index with
      | none => (.peek none, stream)
      | some (answer, left) => (.peek (some answer), left)

inductive Visit (α : Type) where
  | use (action : Use α)
  | inspect (token : BoundaryToken) (reading : Reading)

def usesOf : List (Visit α) → List (Use α)
  | [] => []
  | .use action :: rest => action :: usesOf rest
  | .inspect _ _ :: rest => usesOf rest

/-- Uses and inspects in the given order, with the replies to the uses. -/
def visitAll [Recipient β μ] [Work β α μ] (fuel : Nat) : List (Visit α) →
    CompiledStream β α μ → Option (List (Reply α) × CompiledStream β α μ)
  | [], stream => some ([], stream)
  | .inspect token reading :: rest, stream => visitAll fuel rest (stream.inspect token reading).2
  | .use action :: rest, stream =>
      match stream.use fuel action with
      | none => none
      | some (reply, next) => (visitAll fuel rest next).map (Prod.map (reply :: ·) id)

private theorem visitAll_cons [Recipient β μ] [Work β α μ] {fuel : Nat}
    {stream next last : CompiledStream β α μ} {action : Use α} {rest : List (Visit α)}
    {reply : Reply α} {replies : List (Reply α)}
    (head : stream.use fuel action = some (reply, next))
    (tail : next.visitAll fuel rest = some (replies, last)) :
    stream.visitAll fuel (.use action :: rest) = some (reply :: replies, last) := by
  unfold visitAll
  rw [head]
  dsimp only
  rw [tail]
  rfl

/-- The elements that may have been looked at: those at an index for which somebody has asked, in
the buffer behind a boundary channel. -/
def Seen (made : CompiledStream β α μ) (past : List (Visit α)) (channel : ChannelId)
    (index : Nat) : Prop :=
  ∃ token boundary, .inspect token (.peek index) ∈ past ∧
    made.interpreter.channelId? token = some boundary ∧
    Bank.Coincide made.interpreter.graph.bank.keys boundary channel

def Reply.FailsWith (error : Error) : Reply α → Prop
  | .offered answer | .drained answer => answer = .error error
  | .polled _ => False

def Fails [Recipient β μ] [Work β α μ] (fuel : Nat) (stream : CompiledStream β α μ)
    (action : Use α) (error : Error) : Prop :=
  ∃ reply left, stream.use fuel action = some (reply, left) ∧ reply.FailsWith error

/-- How two uses compare: no reply, the same reply, or one that fails with an error that sets the
streams apart. -/
inductive Replied (related : CompiledStream β α μ → CompiledStream β α μ → Prop)
    (parts : Error → Prop) : Option (Reply α × CompiledStream β α μ) →
      Option (Reply α × CompiledStream β α μ) → Prop where
  | unfinished : Replied related parts none none
  | finished (reply : Reply α) {left right : CompiledStream β α μ} (kept : related left right) :
      Replied related parts (some (reply, left)) (some (reply, right))
  | left {error : Error} {reply : Reply α} (apart : parts error) (fails : reply.FailsWith error)
      (state : CompiledStream β α μ) (other : Option (Reply α × CompiledStream β α μ)) :
      Replied related parts (some (reply, state)) other
  | right {error : Error} {reply : Reply α} (apart : parts error) (fails : reply.FailsWith error)
      (state : CompiledStream β α μ) (other : Option (Reply α × CompiledStream β α μ)) :
      Replied related parts other (some (reply, state))

/-- The first stream is the second one, but for looks at its boundary channels. -/
structure Watched (made : CompiledStream β α μ) (past : List (Visit α))
    (watched plain : CompiledStream β α μ) : Prop where
  rest : watched = { plain with interpreter := watched.interpreter }
  interpreter : made.interpreter.Watched (made.Seen past) watched.interpreter plain.interpreter

section

variable {made watched plain : CompiledStream β α μ} {past : List (Visit α)}

private theorem Watched.refl (made : CompiledStream β α μ) (past : List (Visit α)) :
    made.Watched past made made :=
  ⟨rfl, rfl, .refl _, rfl⟩

theorem Watched.mono (same : made.Watched past watched plain) (visit : Visit α) :
    made.Watched (past ++ [visit]) watched plain where
  rest := same.rest
  interpreter :=
    { rest := same.interpreter.rest
      frame := same.interpreter.frame
      bank := same.interpreter.bank.mono fun _ _ seen => by
        rcases seen with ⟨token, boundary, member, rest⟩
        exact ⟨token, boundary, List.mem_append_left _ member, rest⟩ }

theorem Watched.withBank (same : made.Watched past watched plain) {left right : Bank α}
    (glimpsed : left.Glimpsed (made.Seen past) right)
    (keys : right.keys = plain.interpreter.graph.bank.keys) :
    made.Watched past
      { watched with interpreter := watched.interpreter.withBank left }
      { plain with interpreter := plain.interpreter.withBank right } := by
  refine ⟨?_, ?_, glimpsed, (Interpreter.frame_withBank keys).trans same.interpreter.frame⟩
  · rw [same.rest]
  · rw [same.interpreter.rest]
    rfl

theorem Watched.channelId (same : made.Watched past watched plain) (token : BoundaryToken) :
    watched.interpreter.channelId? token = plain.interpreter.channelId? token := by
  rw [same.interpreter.rest]
  rfl

theorem Watched.output (same : made.Watched past watched plain) :
    watched.output = plain.output := by
  rw [same.rest]

/-- An inspection leaves a stream that differs in what was seen only. -/
theorem Watched.inspect (same : made.Watched past watched plain) (token : BoundaryToken)
    (reading : Reading) :
    made.Watched (past ++ [.inspect token reading]) (watched.inspect token reading).2 plain := by
  have later := same.mono (.inspect token reading)
  cases reading with
  | size => exact later
  | stats => exact later
  | peek index =>
      unfold CompiledStream.inspect peek? Interpreter.peek?
      dsimp only
      cases found : watched.interpreter.channelId? token with
      | none => exact later
      | some boundary =>
          have behind : made.interpreter.channelId? token = some boundary := by
            rw [← found, same.channelId]
            exact (Interpreter.channelId_of_frame same.interpreter.frame token).symm
          have keys : plain.interpreter.graph.bank.keys = made.interpreter.graph.bank.keys :=
            congrArg (fun frame => frame.graph.keys) same.interpreter.frame
          have reached (other : ChannelId)
              (coincide : Bank.Coincide plain.interpreter.graph.bank.keys boundary other) :
              made.Seen (past ++ [.inspect token (.peek index)]) other index := by
            rw [keys] at coincide
            exact ⟨token, boundary, List.mem_append_right _ (List.mem_singleton_self _), behind,
              coincide⟩
          exact later.withBank (later.interpreter.bank.look reached) rfl

private theorem Watched.poll (same : made.Watched past watched plain) :
    watched.poll.1 = plain.poll.1 ∧ made.Watched past watched.poll.2 plain.poll.2 := by
  have output : watched.interpreter.channelId? watched.output =
      plain.interpreter.channelId? plain.output := by
    rw [same.channelId, same.output]
  unfold CompiledStream.poll Interpreter.pop?
  rw [output]
  cases plain.interpreter.channelId? plain.output with
  | none => exact ⟨rfl, same⟩
  | some channel =>
      have popped := (same.interpreter.bank.items.pop channel).1
      dsimp only [Option.map_some]
      rw [popped]
      exact ⟨rfl, same.withBank (same.interpreter.bank.pop channel) (Bank.keys_pop _ _)⟩

/-- The verdict of a drain is about elements and messages, not about looks. -/
theorem Watched.isDrained (same : made.Watched past watched plain) :
    watched.isDrained = plain.isDrained := by
  have checks : watched.checkPendingMessages = plain.checkPendingMessages := by rw [same.rest]
  have workers : watched.interpreter.graph.workers = plain.interpreter.graph.workers := by
    rw [same.interpreter.rest]
    rfl
  have count : watched.interpreter.graph.channelCount =
      plain.interpreter.graph.channelCount :=
    Bank.size_of_keys_eq same.interpreter.bank.keys
  have sizes (id : ChannelId) : (watched.interpreter.graph.bank.channel id).size =
      (plain.interpreter.graph.bank.channel id).size :=
    congrArg List.length (same.interpreter.bank.items.items id)
  unfold CompiledStream.isDrained undrained Graph.pendingMessages
  simp only [same.output, checks, workers, count, sizes, same.channelId]

variable [Recipient β μ] [Work β α μ]

theorem Watched.interpret (same : made.Watched past watched plain) (fuel : Nat) :
    Together (made.Watched past) (made.interpreter.Exposed (made.Seen past))
      (watched.interpret fuel) (plain.interpret fuel) := by
  have calls := (Interpreter.watched_lockstep made.interpreter (made.Seen past)).interpret
    same.interpreter fuel
  unfold CompiledStream.interpret
  generalize watched.interpreter.interpret fuel = watchedOutcome at calls
  generalize plain.interpreter.interpret fuel = plainOutcome at calls
  cases calls with
  | unfinished => exact .unfinished
  | left apart => exact .left apart _ _
  | right apart => exact .right apart _ _
  | finished answer kept =>
      refine .finished answer ⟨?_, kept⟩
      rw [same.rest]

private theorem Watched.offer (same : made.Watched past watched plain) (fuel : Nat) (element : α) :
    Together (made.Watched past) (made.interpreter.Exposed (made.Seen past))
      (watched.offer fuel element) (plain.offer fuel element) := by
  have draining : watched.draining = plain.draining := by rw [same.rest]
  have input : watched.input = plain.input := by rw [same.rest]
  have behind : watched.interpreter.channelId? watched.input =
      plain.interpreter.channelId? plain.input := by
    rw [same.channelId, input]
  unfold CompiledStream.offer Interpreter.pushAll?
  rw [behind]
  by_cases closed : plain.draining = true
  · rw [if_pos closed, if_pos (draining.trans closed)]
    exact .finished _ same
  · rw [if_neg closed, if_neg (draining ▸ closed)]
    cases plain.interpreter.channelId? plain.input with
    | none =>
        dsimp only [Option.map_none]
        rw [input]
        exact .finished _ same
    | some channel =>
        have fed := same.withBank (same.interpreter.bank.pushAll channel [element])
          (Bank.keys_set _ _ _)
        have calls := fed.interpret fuel
        dsimp only [Option.map_some]
        generalize ({ watched with interpreter := _ } : CompiledStream β α μ).interpret fuel =
          watchedOutcome at calls
        generalize ({ plain with interpreter := _ } : CompiledStream β α μ).interpret fuel =
          plainOutcome at calls
        cases calls with
        | unfinished => exact .unfinished
        | left apart => exact .left apart _ _
        | right apart => exact .right apart _ _
        | finished answer kept =>
            cases answer with
            | error error => exact .finished _ kept
            | ok progress => exact .finished _ kept

private theorem Watched.drain (same : made.Watched past watched plain) (fuel : Nat) :
    Together (made.Watched past) (made.interpreter.Exposed (made.Seen past))
      (watched.drain fuel) (plain.drain fuel) := by
  have closed : made.Watched past { watched with draining := true }
      { plain with draining := true } := by
    refine ⟨?_, same.interpreter⟩
    rw [same.rest]
  have calls := closed.interpret fuel
  unfold CompiledStream.drain
  generalize CompiledStream.interpret fuel { watched with draining := true } =
    watchedOutcome at calls
  generalize CompiledStream.interpret fuel { plain with draining := true } = plainOutcome at calls
  cases calls with
  | unfinished => exact .unfinished
  | left apart => exact .left apart _ _
  | right apart => exact .right apart _ _
  | finished answer kept =>
      cases answer with
      | error error => exact .finished _ kept
      | ok progress =>
          dsimp only
          rw [kept.isDrained]
          exact .finished _ kept

omit [Recipient β μ] [Work β α μ] in
private theorem Replied.of_together {related : CompiledStream β α μ → CompiledStream β α μ → Prop}
    {parts : Error → Prop} {left right : Option (Outcome Bool (CompiledStream β α μ))}
    (together : Together related parts left right) {reply : Except Error Bool → Reply α}
    (tells : ∀ error, (reply (.error error)).FailsWith error) :
    Replied related parts (left.map (Prod.map reply id)) (right.map (Prod.map reply id)) := by
  cases together with
  | unfinished => exact .unfinished
  | finished answer kept => exact .finished _ kept
  | left apart => exact .left apart (tells _) _ _
  | right apart => exact .right apart (tells _) _ _

/-- One use of a stream, inspected before or not, is replied to alike unless an audit has noticed
an inspection. -/
theorem Watched.use (same : made.Watched past watched plain) (fuel : Nat) (action : Use α) :
    Replied (made.Watched past) (made.interpreter.Exposed (made.Seen past))
      (watched.use fuel action) (plain.use fuel action) := by
  cases action with
  | offer element => exact .of_together (same.offer fuel element) fun _ => rfl
  | drain => exact .of_together (same.drain fuel) fun _ => rfl
  | poll =>
      have polled := same.poll
      change Replied _ _ (some (.polled watched.poll.1, watched.poll.2))
        (some (.polled plain.poll.1, plain.poll.2))
      rw [polled.1]
      exact .finished _ polled.2

/-- The same replies with and without the inspections, or the same up to a use at which one of the
two streams reports that an audit has noticed an inspection. -/
theorem Watched.visitAll (same : made.Watched past watched plain) (fuel : Nat)
    (visits : List (Visit α)) :
    (watched.visitAll fuel visits).map Prod.fst =
        (plain.useAll fuel (usesOf visits)).map Prod.fst ∨
      ∃ before action after replies left right error,
        visits = before ++ .use action :: after ∧
        watched.visitAll fuel before = some (replies, left) ∧
        plain.useAll fuel (usesOf before) = some (replies, right) ∧
        made.interpreter.Exposed (made.Seen (past ++ before)) error ∧
        (left.Fails fuel action error ∨ right.Fails fuel action error) := by
  -- The past grows with every visit, and with it what may have been seen.
  induction visits generalizing past watched plain with
  | nil => exact .inl rfl
  | cons visit rest inductionHypothesis =>
      cases visit with
      | inspect token reading =>
          rcases inductionHypothesis (same.inspect token reading) with
            equal | ⟨before, action, after, replies, left, right, error, rfl, first, second,
              exposed, fails⟩
          · exact .inl equal
          · refine .inr ⟨.inspect token reading :: before, action, after, replies, left, right,
              error, rfl, first, second, ?_, fails⟩
            rw [List.append_cons]
            exact exposed
      | use action =>
          have replied := same.use fuel action
          unfold CompiledStream.visitAll usesOf useAll
          generalize usedLeft : watched.use fuel action = leftOutcome at replied
          generalize usedRight : plain.use fuel action = rightOutcome at replied
          cases replied with
          | unfinished => exact .inl rfl
          | left apart fails =>
              refine .inr ⟨[], action, rest, [], watched, plain, _, rfl, rfl, rfl, ?_,
                .inl ⟨_, _, usedLeft, fails⟩⟩
              rw [List.append_nil]
              exact apart
          | right apart fails =>
              refine .inr ⟨[], action, rest, [], watched, plain, _, rfl, rfl, rfl, ?_,
                .inr ⟨_, _, usedRight, fails⟩⟩
              rw [List.append_nil]
              exact apart
          | @finished reply watchedNext plainNext kept =>
              rcases inductionHypothesis (kept.mono (.use action)) with
                equal | ⟨before, later, after, replies, left, right, error, rfl, first, second,
                  exposed, fails⟩
              · left
                have longer := congrArg (Option.map (reply :: ·)) equal
                rw [Option.map_map, Option.map_map] at longer
                dsimp only
                rw [Option.map_map, Option.map_map]
                exact longer
              · refine .inr ⟨.use action :: before, later, after, reply :: replies, left, right,
                  error, rfl, visitAll_cons usedLeft first, useAll_cons usedRight second, ?_, fails⟩
                rw [List.append_cons]
                exact exposed

end

end CompiledStream

namespace Compiler

open CompiledStream

private theorem compileBuilt_audits [Signature β] {compiler : Compiler} {builder : Builder β α}
    {head tail : WorkerId} {start : CompiledStream β α μ}
    (compiled : compiler.compileBuilt builder head tail = .ok start) :
    start.interpreter.delegate.audits = compiler.config.auditRates := by
  rcases compileBuilt_view compiled with ⟨graph, interpreter, build, opened, created⟩
  unfold CompiledStream.create at created
  split at created
  next =>
    split at created
    next =>
      cases created
      rfl
    next => cases created
  next => cases created

/-- Inspections do not show unless the stream audits and an audit notices one. With them and
without them a history of offers, polls and drains gets the same replies; or the replies are the
same up to a use at which the inspected stream or the other one reports a violation of a peek
rate on an input into which somebody has looked before, a rate that does not admit both no look
at all and one as far as that. -/
theorem inspections_show_only_to_audits [Signature β] [Recipient β μ] [Work β α μ]
    {compiler : Compiler} {builder : Builder β α} {head tail : WorkerId}
    {start : CompiledStream β α μ}
    (compiled : compiler.compileBuilt builder head tail = .ok start) (fuel : Nat)
    (visits : List (Visit α)) :
    (start.visitAll fuel visits).map Prod.fst =
        (start.useAll fuel (usesOf visits)).map Prod.fst ∨
      compiler.config.auditRates = true ∧
      ∃ before action after replies watched plain error,
        visits = before ++ .use action :: after ∧
        start.visitAll fuel before = some (replies, watched) ∧
        start.useAll fuel (usesOf before) = some (replies, plain) ∧
        start.interpreter.graph.Noticed (start.Seen before) error ∧
        (watched.Fails fuel action error ∨ plain.Fails fuel action error) := by
  rcases (Watched.refl start []).visitAll fuel visits with
    equal | ⟨before, action, after, replies, watched, plain, error, split, first, second,
      ⟨audits, noticed⟩, fails⟩
  · exact .inl equal
  · exact .inr ⟨(compileBuilt_audits compiled).symm.trans audits, before, action, after, replies,
      watched, plain, error, split, first, second, noticed, fails⟩

/-- Two pairs are offered. Somebody looks at the first element while it waits for the second. -/
def peekedPairs : List (Visit Nat) :=
  [.use (.offer 1), .inspect 0 (.peek 0), .use (.offer 2), .use (.offer 3), .use (.offer 4)]

/-- An unaudited stream replies as if nobody had looked. The audited one has noticed. -/
theorem inspections_show_only_to_audits_pairs :
    ∃ quiet audited : CompiledStream Standard Nat Unit,
      Compiler.compileBuilt {} pairsBuilder 0 0 = .ok quiet ∧
      Compiler.auditing.compileBuilt pairsBuilder 0 0 = .ok audited ∧
      (quiet.visitAll 9 peekedPairs).map Prod.fst =
        (quiet.useAll 9 (usesOf peekedPairs)).map Prod.fst ∧
      ∃ before error, before <+: peekedPairs ∧
        audited.interpreter.graph.Noticed (audited.Seen before) error := by
  obtain ⟨quiet, audited, quietly, auditing, watched, plain⟩ :
      ∃ quiet audited : CompiledStream Standard Nat Unit,
        Compiler.compileBuilt {} pairsBuilder 0 0 = .ok quiet ∧
        Compiler.auditing.compileBuilt pairsBuilder 0 0 = .ok audited ∧
        (audited.visitAll 9 peekedPairs).map Prod.fst =
          some [.offered (.ok true),
            .offered (.error (.rateViolation ⟨"pairs", 0⟩ 0 .peek (.exact 0) 1)),
            .offered (.ok true),
            .offered (.error (.rateViolation ⟨"pairs", 0⟩ 0 .peek (.exact 0) 1))] ∧
        (audited.useAll 9 (usesOf peekedPairs)).map Prod.fst =
          some [.offered (.ok true), .offered (.ok true), .offered (.ok true),
            .offered (.ok true)] :=
    ⟨_, _, rfl, rfl, rfl, rfl⟩
  refine ⟨quiet, audited, quietly, auditing, ?_, ?_⟩
  · rcases inspections_show_only_to_audits quietly 9 peekedPairs with equal | ⟨audits, _⟩
    · exact equal
    · cases audits
  · rcases inspections_show_only_to_audits auditing 9 peekedPairs with
      equal | ⟨_, before, action, after, _, _, _, error, split, _, _, noticed, _⟩
    · rw [watched, plain] at equal
      cases equal
    · exact ⟨before, error, ⟨.use action :: after, split.symm⟩, noticed⟩

/-- Of an audited stream that keeps to all its rates, one look makes every later firing fail. -/
theorem inspection_provokes_violation :
    Compiler.auditing.config.validate = .ok () ∧
    ∃ start : CompiledStream Standard Nat Unit,
      Compiler.auditing.compileBuilt pairsBuilder 0 0 = .ok start ∧
      (start.visitAll 9 peekedPairs).map Prod.fst =
        some [.offered (.ok true),
          .offered (.error (.rateViolation ⟨"pairs", 0⟩ 0 .peek (.exact 0) 1)),
          .offered (.ok true),
          .offered (.error (.rateViolation ⟨"pairs", 0⟩ 0 .peek (.exact 0) 1))] ∧
      (start.useAll 9 (usesOf peekedPairs)).map Prod.fst =
        some [.offered (.ok true), .offered (.ok true), .offered (.ok true),
          .offered (.ok true)] :=
  ⟨rfl, _, rfl, rfl, rfl⟩

end Compiler

end DemandFlow
