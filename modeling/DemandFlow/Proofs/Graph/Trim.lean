import DemandFlow.Proofs.Graph.Indifference
import DemandFlow.Proofs.Graph.Metering

/-!
How much of its inputs a firing uses. A look is counted from the front as it is at the time, so
after some pops it reaches deeper than its index says: what a firing uses of an input is its
span. A firing whose body does not learn how much its inputs hold goes the same way on inputs
that are cut down to its spans.
-/

set_option autoImplicit false

namespace DemandFlow

variable {β α μ : Type}

namespace Access

/-- How many elements of an input are used, counted from the front that the first access
finds. -/
def span (input : Nat) : List Access → Nat
  | [] => 0
  | access :: rest =>
      max (access.depth input) (span input rest + if access = .popped input then 1 else 0)

/-- The input is not looked at any more once something was popped from it. -/
def LooksFirst (input : Nat) (accesses : List Access) : Prop :=
  accesses.Pairwise fun earlier later =>
    earlier = .popped input → ∀ index, later ≠ .peeked input index

theorem reach_cons (access : Access) (rest : List Access) (input : Nat) :
    reach (access :: rest) input = max (access.depth input) (reach rest input) := by
  have shifted (start : Nat) :
      rest.foldl (fun reached access => max reached (access.depth input)) start =
        max start (reach rest input) := by
    unfold reach
    induction rest generalizing start with
    | nil => simp only [List.foldl_nil, Nat.zero_le, Nat.max_eq_left]
    | cons next later inductionHypothesis =>
        rw [List.foldl_cons, List.foldl_cons, inductionHypothesis,
          inductionHypothesis (max 0 _)]
        omega
  have step : reach (access :: rest) input = _ := shifted (max 0 (access.depth input))
  rw [step, Nat.zero_max]

theorem pops_cons (access : Access) (rest : List Access) (input : Nat) :
    pops (access :: rest) input = pops rest input + if access = .popped input then 1 else 0 := by
  simp only [pops, List.count_cons, beq_iff_eq]

theorem reach_append (input : Nat) (earlier rest : List Access) :
    reach (earlier ++ rest) input = max (reach earlier input) (reach rest input) := by
  induction earlier with
  | nil => exact (Nat.zero_max _).symm
  | cons access later inductionHypothesis =>
      rw [List.cons_append, reach_cons, reach_cons, inductionHypothesis, Nat.max_assoc]

theorem reach_eq_zero {input : Nat} {accesses : List Access}
    (unseen : ∀ access ∈ accesses, access.depth input = 0) : reach accesses input = 0 := by
  induction accesses with
  | nil => rfl
  | cons access rest inductionHypothesis =>
      rw [List.forall_mem_cons] at unseen
      rw [reach_cons, unseen.1, inductionHypothesis unseen.2]
      rfl

private theorem span_append_le (input : Nat) (earlier rest : List Access) :
    pops earlier input + span input rest ≤ span input (earlier ++ rest) := by
  induction earlier with
  | nil => exact Nat.le_of_eq (Nat.zero_add _)
  | cons access later inductionHypothesis =>
      rw [pops_cons, List.cons_append, span]
      omega

private theorem room_append {input count : Nat} {earlier rest : List Access}
    (room : span input (earlier ++ rest) ≤ count) :
    pops earlier input ≤ count ∧ span input rest ≤ count - pops earlier input := by
  have behind := span_append_le input earlier rest
  omega

theorem pops_append (input : Nat) (earlier rest : List Access) :
    pops (earlier ++ rest) input = pops earlier input + pops rest input :=
  List.count_append

private theorem pops_granted {γ : Type} (access : Access) (answer : Except Error γ) (input : Nat)
    (other : access ≠ .popped input) : pops (access.granted answer) input = 0 := by
  cases answer with
  | error error => rfl
  | ok element => simp [granted, pops, other]

theorem span_le_add (input : Nat) (accesses : List Access) :
    span input accesses ≤ pops accesses input + reach accesses input := by
  induction accesses with
  | nil => exact Nat.zero_le _
  | cons access rest inductionHypothesis =>
      rw [pops_cons, reach_cons, span]
      omega

theorem span_le_max {input : Nat} {accesses : List Access} (first : LooksFirst input accesses) :
    span input accesses ≤ max (reach accesses input) (pops accesses input) := by
  induction accesses with
  | nil => exact Nat.zero_le _
  | cons access rest inductionHypothesis =>
      obtain ⟨next, later⟩ := List.pairwise_cons.mp first
      have bound := inductionHypothesis later
      rw [pops_cons, reach_cons, span]
      by_cases popped : access = .popped input
      · have unseen : reach rest input = 0 := by
          apply reach_eq_zero
          intro other member
          have unlooked := next other member popped
          cases other with
          | popped other => rfl
          | pushed output => rfl
          | peeked other index =>
              rw [depth, if_neg]
              rintro rfl
              exact unlooked index rfl
        omega
      · rw [if_neg popped]
        omega

end Access

/-- The channel with only its first elements, and its counts as they are. -/
def Channel.trim (channel : Channel α) (count : Nat) : Channel α :=
  { channel with items := channel.items.take count }

namespace Channel

variable {channel : Channel α} {count : Nat}

private theorem pop_trim {front : α} {rest : List α} (items : channel.items = front :: rest) :
    (channel.trim (count + 1)).pop = (.ok front, channel.pop.2.trim count) := by
  unfold Channel.pop pop? trim
  rw [items]
  rfl

private theorem pop_trim_of_empty (items : channel.items = []) :
    (channel.trim count).pop = (.error .emptyChannel, channel.pop.2.trim count) := by
  unfold Channel.pop pop? trim
  rw [items, List.take_nil]
  simp only [items, List.take_nil]

private theorem peek_trim {index : Nat} {element : α} (found : channel.items[index]? = some element)
    (within : index < count) :
    (channel.trim count).peek index = (.ok element, (channel.peek index).2.trim count) := by
  unfold Channel.peek trim
  rw [List.getElem?_take_of_lt within, found]

private theorem peek_trim_of_beyond {index : Nat} (missing : channel.items[index]? = none) :
    (channel.trim count).peek index =
      (.error (.indexOutOfRange index (channel.trim count).size),
        (channel.peek index).2.trim count) := by
  have cut : (channel.trim count).items[index]? = none := by
    rw [List.getElem?_eq_none_iff] at missing ⊢
    exact Nat.le_trans (List.length_take_le' ..) missing
  unfold Channel.peek
  rw [cut, missing]

end Channel

/-- Each input has a channel of its own, apart from the outputs. -/
structure Secluded (keys : List (Option Nat)) (inputs outputs : List Port) : Prop where
  own : ∀ port ∈ inputs, keys[port.channel]? = some none
  once : ∀ (left right : Nat) (leftPort rightPort : Port), inputs[left]? = some leftPort →
    inputs[right]? = some rightPort → leftPort.channel = rightPort.channel → left = right
  apart : ∀ input ∈ inputs, ∀ output ∈ outputs, input.channel ≠ output.channel

theorem Secluded.set {bank : Bank α} {inputs outputs : List Port}
    (secluded : Secluded bank.keys inputs outputs) (id : ChannelId) (channel : Channel α) :
    Secluded (bank.set id channel).keys inputs outputs := by
  rw [Bank.keys_set]
  exact secluded

namespace Bank

theorem eq_of_coincide {keys : List (Option Nat)} {id other : ChannelId}
    (own : keys[id]? = some none ∨ keys[other]? = some none)
    (coincide : Coincide keys id other) : other = id := by
  obtain ⟨key, here, same | ⟨shared, there⟩⟩ := coincide
  · exact same
  · rw [here, there] at own
    rcases own with own | own
    · cases own
      cases shared
    · cases own
      cases shared

/-- The first bank is the second one with its inputs cut down to so many elements each. -/
structure Trims (cut full : Bank α) (inputs : List Port) (kept : Nat → Nat) : Prop where
  keys : cut.keys = full.keys
  trimmed : ∀ (index : Nat) (port : Port), inputs[index]? = some port →
    cut.channel port.channel = (full.channel port.channel).trim (kept index)
  others : ∀ id, (∀ port ∈ inputs, port.channel ≠ id) → cut.channel id = full.channel id

variable {cut full : Bank α} {inputs outputs : List Port} {kept : Nat → Nat}

theorem Trims.onInput (trims : cut.Trims full inputs kept)
    (secluded : Secluded full.keys inputs outputs) {input : Nat} {port : Port}
    (place : inputs[input]? = some port) (channel : Channel α) (left : Nat → Nat)
    (elsewhere : ∀ index, index ≠ input → left index = kept index) :
    (cut.set port.channel (channel.trim (left input))).Trims (full.set port.channel channel)
      inputs left := by
  have member := List.mem_of_getElem? place
  have own := secluded.own port member
  have apart {keys : List (Option Nat)} (same : keys = full.keys) {other : ChannelId}
      (different : other ≠ port.channel) : ¬ Coincide keys port.channel other := by
    subst same
    exact fun coincide => different (eq_of_coincide (.inl own) coincide)
  have here {keys : List (Option Nat)} (same : keys = full.keys) :
      Coincide keys port.channel port.channel := by
    subst same
    exact ⟨none, own, .inl rfl⟩
  constructor
  · rw [keys_set, keys_set, trims.keys]
  · intro index other otherAt
    by_cases same : index = input
    · subst same
      rw [place] at otherAt
      cases otherAt
      rw [channel_set_of_coincide _ (here trims.keys), channel_set_of_coincide _ (here rfl)]
    · have different : other.channel ≠ port.channel := fun equal =>
        same (secluded.once index input other port otherAt place equal)
      rw [channel_set_of_apart _ (apart trims.keys different),
        channel_set_of_apart _ (apart rfl different), elsewhere index same]
      exact trims.trimmed index other otherAt
  · intro id outside
    have different : id ≠ port.channel := (outside port member).symm
    rw [channel_set_of_apart _ (apart trims.keys different),
      channel_set_of_apart _ (apart rfl different)]
    exact trims.others id outside

private theorem Trims.onOther (trims : cut.Trims full inputs kept)
    (secluded : Secluded full.keys inputs outputs) {id : ChannelId}
    (outside : ∀ port ∈ inputs, port.channel ≠ id) (channel : Channel α) :
    (cut.set id channel).Trims (full.set id channel) inputs kept := by
  have same := trims.keys
  constructor
  · rw [keys_set, keys_set, same]
  · intro index port place
    have member := List.mem_of_getElem? place
    have apart : ¬ Coincide full.keys id port.channel := fun coincide =>
      outside port member (eq_of_coincide (.inr (secluded.own port member)) coincide)
    rw [channel_set_of_apart _ (same ▸ apart), channel_set_of_apart _ apart]
    exact trims.trimmed index port place
  · intro other free
    by_cases coincide : Coincide full.keys id other
    · rw [channel_set_of_coincide _ (same ▸ coincide), channel_set_of_coincide _ coincide]
    · rw [channel_set_of_apart _ (same ▸ coincide), channel_set_of_apart _ coincide]
      exact trims.others other free

/-- A pop is answered alike if it is refused or the cut has left an element. -/
theorem Trims.pop (trims : cut.Trims full inputs kept)
    (secluded : Secluded full.keys inputs outputs) {input : Nat} {port : Port}
    (place : inputs[input]? = some port)
    (room : Access.pops ((Access.popped input).granted (full.pop port.channel).1) input ≤
      kept input) :
    (cut.pop port.channel).1 = (full.pop port.channel).1 ∧
      (cut.pop port.channel).2.Trims (full.pop port.channel).2 inputs (fun index => kept index -
        Access.pops ((Access.popped input).granted (full.pop port.channel).1) index) := by
  have here := trims.trimmed input port place
  unfold Bank.pop at room ⊢
  dsimp only at room ⊢
  rw [here]
  cases items : (full.channel port.channel).items with
  | nil =>
      have refused : (full.channel port.channel).pop.1 = .error .emptyChannel := by
        simp only [Channel.pop, Channel.pop?, items]
      rw [Channel.pop_trim_of_empty items, refused]
      exact ⟨rfl, trims.onInput secluded place _ kept (fun _ _ => rfl)⟩
  | cons front rest =>
      have taken : (full.channel port.channel).pop.1 = .ok front := by
        simp only [Channel.pop, Channel.pop?, items]
      rw [taken] at room ⊢
      have one : Access.pops [.popped input] input = 1 := by
        simp only [Access.pops, List.count_cons_self, List.count_nil, Nat.zero_add]
      change Access.pops [.popped input] input ≤ kept input at room
      rw [one] at room
      obtain ⟨count, enough⟩ := Nat.exists_eq_add_of_le' room
      rw [enough, Channel.pop_trim items]
      have moved := trims.onInput secluded place (full.channel port.channel).pop.2
        (fun index => kept index - Access.pops [.popped input] index)
        (fun index different => by simp [Access.pops, different.symm])
      rw [one, enough, Nat.add_sub_cancel] at moved
      exact ⟨rfl, moved⟩

/-- A look is answered alike if the cut has left the element, and if there is none, it is
refused in both; only the sizes told may differ. -/
theorem Trims.peek (trims : cut.Trims full inputs kept)
    (secluded : Secluded full.keys inputs outputs) {input : Nat} {port : Port}
    (place : inputs[input]? = some port) (index : Nat)
    (room : ∀ element, (full.peek port.channel index).1 = .ok element → index < kept input) :
    ((cut.peek port.channel index).1 = (full.peek port.channel index).1 ∨
      ∃ size other, (full.peek port.channel index).1 = .error (.indexOutOfRange index size) ∧
        (cut.peek port.channel index).1 = .error (.indexOutOfRange index other)) ∧
      (cut.peek port.channel index).2.Trims (full.peek port.channel index).2 inputs kept := by
  have here := trims.trimmed input port place
  unfold Bank.peek at room ⊢
  dsimp only at room ⊢
  rw [here]
  cases found : (full.channel port.channel).items[index]? with
  | none =>
      have refused : ((full.channel port.channel).peek index).1 =
          .error (.indexOutOfRange index (full.channel port.channel).size) := by
        simp only [Channel.peek, found]
      rw [Channel.peek_trim_of_beyond found, refused]
      exact ⟨.inr ⟨_, _, rfl, rfl⟩, trims.onInput secluded place _ kept (fun _ _ => rfl)⟩
  | some element =>
      have seen : ((full.channel port.channel).peek index).1 = .ok element := by
        simp only [Channel.peek, found]
      rw [Channel.peek_trim found (room element seen), seen]
      exact ⟨.inl rfl, trims.onInput secluded place _ kept (fun _ _ => rfl)⟩

private theorem Trims.push (trims : cut.Trims full inputs kept)
    (secluded : Secluded full.keys inputs outputs) {output : Nat} {port : Port}
    (place : outputs[output]? = some port) (element : α) :
    (cut.push port.channel element).Trims (full.push port.channel element) inputs kept := by
  have outside : ∀ input ∈ inputs, input.channel ≠ port.channel := fun input member =>
    secluded.apart input member port (List.mem_of_getElem? place)
  unfold Bank.push
  rw [trims.others port.channel outside]
  exact trims.onOther secluded outside _

/-- The bank with its inputs cut down to so many elements each. -/
def cutDown (bank : Bank α) (inputs : List Port) (kept : Nat → Nat) : Bank α :=
  { bank with
    slots := bank.slots.mapIdx fun id slot =>
      match slot, inputs.findIdx? (fun port => port.channel == id) with
      | .own channel, some index => .own (channel.trim (kept index))
      | slot, _ => slot }

private theorem trims_cutDown (secluded : Secluded full.keys inputs outputs) (kept : Nat → Nat) :
    (full.cutDown inputs kept).Trims full inputs kept := by
  constructor
  · apply List.ext_getElem?
    intro id
    unfold keys cutDown
    rw [List.getElem?_map, List.getElem?_map, List.getElem?_mapIdx]
    cases full.slots[id]? with
    | none => rfl
    | some slot =>
        cases slot with
        | own channel => cases inputs.findIdx? (fun port => port.channel == id) <;> rfl
        | shared key => rfl
  · intro index port place
    have found : inputs.findIdx? (fun other => other.channel == port.channel) = some index := by
      obtain ⟨within, here⟩ := List.getElem?_eq_some_iff.mp place
      rw [List.findIdx?_eq_some_iff_getElem]
      refine ⟨within, by simp only [here, BEq.rfl], ?_⟩
      intro earlier before same
      have equal := secluded.once earlier index _ port (List.getElem?_eq_getElem _) place
        (by simpa only [beq_iff_eq] using same)
      omega
    have own := secluded.own port (List.mem_of_getElem? place)
    unfold keys at own
    rw [List.getElem?_map] at own
    unfold Bank.channel channel? cutDown
    rw [List.getElem?_mapIdx]
    cases held : full.slots[port.channel]? with
    | none =>
        rw [held] at own
        cases own
    | some slot =>
        cases slot with
        | own channel =>
            simp only [Option.map_some, found]
            rfl
        | shared key =>
            rw [held] at own
            cases own
  · intro id outside
    have absent : inputs.findIdx? (fun port => port.channel == id) = none := by
      rw [List.findIdx?_eq_none_iff]
      intro port member
      simpa only [beq_eq_false_iff_ne, ne_eq] using outside port member
    unfold Bank.channel channel? cutDown
    rw [List.getElem?_mapIdx]
    cases full.slots[id]? with
    | none => rfl
    | some slot =>
        cases slot with
        | own channel => simp only [Option.map_some, absent]
        | shared key => rfl

end Bank

/-! ### Bodies that do not learn how much there is -/

namespace Routine

def Fails (routine : Routine α μ (Except Error Unit × β)) : Prop :=
  ∀ worker inputs outputs scene,
    ∃ error, (routine.run worker inputs outputs scene).1.1 = .error error

def NeverAsks : Routine α μ (Except Error Unit × β) → Prop
  | .done _ => True
  | .pop _ next => ∀ answer, (next answer).NeverAsks
  | .peek _ _ next => ∀ answer, (next answer).NeverAsks
  | .available _ _ => False
  | .push _ _ next => ∀ answer, (next answer).NeverAsks
  | .send _ _ next => next.NeverAsks

/-- What the routine does after a look beyond the end does not depend on the size that it is
told, unless it fails. -/
def IgnoresSizes : Routine α μ (Except Error Unit × β) → Prop
  | .done _ => True
  | .pop _ next => ∀ answer, (next answer).IgnoresSizes
  | .peek _ index next => (∀ answer, (next answer).IgnoresSizes) ∧ ∀ size other,
      next (.error (.indexOutOfRange index size)) = next (.error (.indexOutOfRange index other)) ∨
        (next (.error (.indexOutOfRange index size))).Fails
  | .available _ next => ∀ answer, (next answer).IgnoresSizes
  | .push _ _ next => ∀ answer, (next answer).IgnoresSizes
  | .send _ _ next => next.IgnoresSizes

variable {worker : WorkerId} {inputs outputs : List Port}

/-- What a run leaves on inputs that were cut down, beside what it leaves on whole ones. -/
def RunsAlike (worker : WorkerId) (inputs outputs : List Port)
    (routine : Routine α μ (Except Error Unit × β)) (cut full : Bank α)
    (outbox : List (Outgoing μ)) (kept : Nat → Nat) : Prop :=
  let whole := routine.run worker inputs outputs { bank := full, outbox := outbox }
  ∃ bank, routine.run worker inputs outputs { bank := cut, outbox := outbox } =
      (whole.1, { whole.2 with bank := bank }) ∧
    bank.Trims whole.2.bank inputs (fun index =>
      kept index - Access.pops (routine.accesses worker inputs outputs full) index)

/-- Two refusals of a look that differ in the size they tell come to the same, unless the run
fails. -/
theorem IgnoresSizes.goes_on {input index : Nat}
    {next : Except Error α → Routine α μ (Except Error Unit × β)}
    (ignoring : (Routine.peek input index next).IgnoresSizes) {whole part : Except Error α}
    (answers : part = whole ∨ ∃ size other, whole = .error (.indexOutOfRange index size) ∧
      part = .error (.indexOutOfRange index other)) {scene : Scene α μ}
    (succeeds : ((next whole).run worker inputs outputs scene).1.1 = .ok ()) :
    next part = next whole := by
  rcases answers with same | ⟨size, other, rfl, rfl⟩
  · rw [same]
  · rcases ignoring.2 size other with same | fails
    · exact same.symm
    · obtain ⟨error, failed⟩ := fails worker inputs outputs scene
      rw [failed] at succeeds
      cases succeeds

/-- A routine that does not learn how much its inputs hold goes the same way on inputs that
are cut down to what it uses of them, if it succeeds. -/
theorem run_trim {routine : Routine α μ (Except Error Unit × β)}
    (unasking : routine.NeverAsks) (ignoring : routine.IgnoresSizes) {cut full : Bank α}
    {kept : Nat → Nat} (secluded : Secluded full.keys inputs outputs)
    (trims : cut.Trims full inputs kept)
    (room : ∀ index < inputs.length,
      Access.span index (routine.accesses worker inputs outputs full) ≤ kept index)
    {outbox : List (Outgoing μ)}
    (succeeds : (routine.run worker inputs outputs { bank := full, outbox := outbox }).1.1 =
      .ok ()) : RunsAlike worker inputs outputs routine cut full outbox kept := by
  induction routine generalizing cut full kept outbox with
  | done result => exact ⟨cut, rfl, trims⟩
  | pop input next inductionHypothesis =>
      unfold RunsAlike run accesses
      unfold run at succeeds
      unfold accesses at room
      cases place : inputs[input]? with
      | none =>
          rw [place] at succeeds room
          exact inductionHypothesis _ (unasking _) (ignoring _) secluded trims room succeeds
      | some port =>
          rw [place] at succeeds room
          dsimp only at succeeds room ⊢
          have within := (List.getElem?_eq_some_iff.mp place).1
          obtain ⟨answer, popped⟩ :=
            trims.pop secluded place (Access.room_append (room input within)).1
          have further := inductionHypothesis _ (unasking _) (ignoring _) (secluded.set _ _)
            popped (fun index known => (Access.room_append (room index known)).2) succeeds
          simp only [answer, Access.pops_append, ← Nat.sub_sub]
          exact further
  | peek input index next inductionHypothesis =>
      unfold RunsAlike run accesses
      unfold run at succeeds
      unfold accesses at room
      cases place : inputs[input]? with
      | none =>
          rw [place] at succeeds room
          exact inductionHypothesis _ (unasking _) (ignoring.1 _) secluded trims room succeeds
      | some port =>
          rw [place] at succeeds room
          dsimp only at succeeds room ⊢
          have within := (List.getElem?_eq_some_iff.mp place).1
          have unpopped (other : Nat) :
              Access.pops ((Access.peeked input index).granted (full.peek port.channel index).1)
                other = 0 := Access.pops_granted _ _ _ (by simp)
          have visible : ∀ element, (full.peek port.channel index).1 = .ok element →
              index < kept input := by
            intro element seen
            have enough := room input within
            rw [seen] at enough
            simp only [Access.granted, List.cons_append, Access.span, Access.depth,
              if_true] at enough
            omega
          have remaining : ∀ other < inputs.length, Access.span other
              ((next (full.peek port.channel index).1).accesses worker inputs outputs
                (full.peek port.channel index).2) ≤ kept other := by
            intro other known
            have rest := (Access.room_append (room other known)).2
            rwa [unpopped, Nat.sub_zero] at rest
          obtain ⟨answers, peeked⟩ := trims.peek secluded place index visible
          have further := inductionHypothesis _ (unasking _) (ignoring.1 _) (secluded.set _ _)
            peeked remaining succeeds
          simp only [ignoring.goes_on answers succeeds, Access.pops_append, unpopped,
            Nat.zero_add]
          exact further
  | available input next inductionHypothesis => exact unasking.elim
  | push output element next inductionHypothesis =>
      unfold RunsAlike run accesses
      unfold run at succeeds
      unfold accesses at room
      cases place : outputs[output]? with
      | none =>
          rw [place] at succeeds room
          exact inductionHypothesis _ (unasking _) (ignoring _) secluded trims room succeeds
      | some port =>
          rw [place] at succeeds room
          simp only [Access.pops_cons]
          exact inductionHypothesis _ (unasking _) (ignoring _) (secluded.set _ _)
            (trims.push secluded place element)
            (fun index known => Nat.le_trans
              (Nat.le_trans (Nat.le_add_right ..) (Nat.le_max_right ..)) (room index known))
            succeeds
  | send portal payload next inductionHypothesis =>
      exact inductionHypothesis unasking ignoring secluded trims room succeeds

end Routine

namespace Graph

variable [Recipient β μ] [Work β α μ]

/-- What the body does in its next firing has the property. -/
def NextRun (graph : Graph β α μ) (id : WorkerId)
    (holds : Routine α μ (Except Error Unit × β) → Prop) : Prop :=
  ∀ worker ready, graph.worker? id = some worker → worker.deliverDue = (.ok (), ready) →
    holds (Work.work ready.body
      { worker := id, executions := ready.executions, shape := ready.shape })

/-- With the inputs of the worker cut down to so many elements each, its firing succeeds and
leaves the same: every worker, and every channel but the inputs, where the cut shows. -/
def FiresAlike (graph after : Graph β α μ) (id : WorkerId) (inputs : List Port)
    (kept : Nat → Nat) : Prop :=
  ∃ bank, { graph with bank := graph.bank.cutDown inputs kept }.fire id =
      (.ok (), { after with bank := bank }) ∧
    bank.Trims after.bank inputs (fun index => kept index - Access.pops (graph.accesses id) index)

section

variable {graph after : Graph β α μ} {id : WorkerId} {worker : Worker β μ}

omit [Recipient β μ] in
theorem runBody_eq (graph : Graph β α μ) (id : WorkerId) (ready : Worker β μ) :
    graph.runBody id ready = (Work.work (α := α) (μ := μ) ready.body
      { worker := id, executions := ready.executions, shape := ready.shape }).run
        id ready.inputs ready.outputs { bank := graph.bank } := rfl

theorem accesses_of_delivery {ready : Worker β μ} (known : graph.worker? id = some worker)
    (delivery : worker.deliverDue = (.ok (), ready)) :
    graph.accesses id = (Work.work (α := α) (μ := μ) ready.body
      { worker := id, executions := ready.executions, shape := ready.shape }).accesses
        id ready.inputs ready.outputs graph.bank := by
  unfold accesses
  rw [known]
  dsimp only
  rw [delivery]

/-- What a firing that succeeds has done, step by step: its worker keeps its ports, and what
the body leaves on the channels is what the firing leaves there. -/
theorem fire_ok (known : graph.worker? id = some worker)
    (firing : graph.fire id = (.ok (), after)) :
    ∃ ready body scene, worker.deliverDue = (.ok (), ready) ∧
      ready.inputs = worker.inputs ∧ ready.outputs = worker.outputs ∧
      graph.runBody id ready = ((.ok (), body), scene) ∧
      (graph.worked id ready body scene.bank).routeOutbox id ready.executions scene.outbox =
        (.ok (), after) ∧
      after.bank = scene.bank := by
  have view := graph.fire_view id
  rw [firing] at view
  cases view with
  | @worked other ready body scene _ otherKnown delivery run routing =>
      rw [known] at otherKnown
      cases otherKnown
      have same := Worker.frame_deliverDue delivery
      have settled := (routeOutbox_others (graph.worked id ready body scene.bank) id
        ready.executions scene.outbox).1
      rw [routing] at settled
      exact ⟨ready, body, scene, delivery, congrArg WorkerFrame.inputs same,
        congrArg WorkerFrame.outputs same, run, routing, settled⟩

theorem fire_cutDown (known : graph.worker? id = some worker)
    (secluded : Secluded graph.bank.keys worker.inputs worker.outputs)
    (unasking : graph.NextRun id Routine.NeverAsks)
    (ignoring : graph.NextRun id Routine.IgnoresSizes)
    (firing : graph.fire id = (.ok (), after)) {kept : Nat → Nat}
    (room : ∀ index < worker.inputs.length,
      Access.span index (graph.accesses id) ≤ kept index) :
    graph.FiresAlike after id worker.inputs kept := by
  obtain ⟨ready, body, scene, delivery, inputs, outputs, run, routing, settled⟩ :=
    fire_ok known firing
  have accesses := accesses_of_delivery known delivery
  rw [accesses] at room
  rw [← inputs] at room ⊢
  rw [← inputs, ← outputs] at secluded
  have trims := Bank.trims_cutDown secluded kept
  obtain ⟨bank, alike, left⟩ := Routine.run_trim
    (unasking worker ready known delivery) (ignoring worker ready known delivery) secluded
    trims room (show (graph.runBody id ready).1.1 = .ok () by rw [run])
  rw [← runBody_eq, run] at alike left
  have routed := routeOutbox_withBank (graph.worked id ready body scene.bank) bank id
    ready.executions scene.outbox
  rw [routing] at routed
  refine ⟨bank, ?_, ?_⟩
  · let cut : Graph β α μ := { graph with bank := graph.bank.cutDown ready.inputs kept }
    have cutKnown : cut.worker? id = some worker := known
    have cutRun : cut.runBody id ready = ((.ok (), body), { scene with bank := bank }) := alike
    change cut.fire id = _
    unfold fire work
    rw [cutKnown]
    dsimp only
    rw [delivery]
    dsimp only
    rw [cutRun]
    exact routed
  · rw [settled, accesses]
    exact left

end

end Graph

end DemandFlow
