import DemandFlow.Proofs.Graph.Indifference

/-!
Glimpses. A look at a channel from outside leaves all elements where they are, but a channel
that counts notes how far the look went. No firing can tell the difference, and what follows
a firing can tell it in one place only: where an audit checks how far a worker has peeked.
-/

set_option autoImplicit false

namespace DemandFlow

variable {α β μ ρ σ : Type}

namespace Rate

/-- The rate admits both no look at all and a look at the first `extent` elements. -/
structure Hides (rate : Rate) (extent : Nat) : Prop where
  none : rate.admits 0 = true
  all : rate.admits extent = true

private theorem Hides.admits {rate : Rate} {extent observed : Nat} (hides : rate.Hides extent)
    (within : observed ≤ extent) : rate.admits observed = true := by
  rcases hides with ⟨low, high⟩
  unfold Rate.admits at low high ⊢
  rw [Bool.and_eq_true] at low high ⊢
  constructor
  · cases known : rate.min.known? with
    | none => rfl
    | some least =>
        have zero := low.1
        rw [known] at zero
        have zero : least ≤ 0 := of_decide_eq_true zero
        exact decide_eq_true (Nat.le_trans zero (Nat.zero_le observed))
  · cases known : rate.max.known? with
    | none => rfl
    | some most =>
        have bound := high.2
        rw [known] at bound
        have bound : extent ≤ most := of_decide_eq_true bound
        exact decide_eq_true (Nat.le_trans within bound)

end Rate

namespace ChannelStats

private theorem countPeek_countPeek (stats : ChannelStats) (first second : Nat) :
    (stats.countPeek first).countPeek second = stats.countPeek (max second first) := by
  unfold countPeek
  cases stats.maxPeekIndex with
  | none => rfl
  | some highest => simp only [Option.map_some, Option.getD_some, Nat.max_assoc]

end ChannelStats

namespace Channel

def noted (channel : Channel α) (index : Nat) : Channel α :=
  { channel with stats := channel.stats.map (fun stats => stats.countPeek index) }

theorem noted_noted (channel : Channel α) (first second : Nat) :
    (channel.noted first).noted second = channel.noted (max second first) := by
  unfold noted
  cases channel.stats with
  | none => rfl
  | some stats => simp only [Option.map_some, ChannelStats.countPeek_countPeek]

theorem peek_eq_noted {channel : Channel α} {index : Nat} {element : α}
    (found : channel.items[index]? = some element) :
    channel.peek index = (.ok element, channel.noted index) := by
  unfold peek
  rw [found]
  rfl

theorem peek_eq_self {channel : Channel α} {index : Nat}
    (beyond : channel.items[index]? = none) :
    channel.peek index = (.error (.indexOutOfRange index channel.size), channel) := by
  unfold peek
  rw [beyond]

/-- The first channel is the second one, but for a look from outside at an index that may have
been seen. -/
inductive Glimpsed (seen : Nat → Prop) : Channel α → Channel α → Prop where
  | same (channel : Channel α) : Glimpsed seen channel channel
  | noted (channel : Channel α) {index : Nat} (reached : seen index) :
      Glimpsed seen (channel.noted index) channel

namespace Glimpsed

variable {seen more : Nat → Prop} {watched plain : Channel α}

theorem items (glimpsed : watched.Glimpsed seen plain) : watched.items = plain.items := by
  cases glimpsed <;> rfl

private theorem mono (glimpsed : watched.Glimpsed seen plain)
    (grows : ∀ index, seen index → more index) :
    watched.Glimpsed more plain := by
  cases glimpsed with
  | same => exact .same _
  | noted _ reached => exact .noted _ (grows _ reached)

/-- One more look from outside. Only the further one of two looks shows. -/
theorem look (glimpsed : watched.Glimpsed seen plain) {index : Nat} (reached : seen index) :
    (watched.peek index).2.Glimpsed seen plain := by
  cases found : watched.items[index]? with
  | none =>
      rw [peek_eq_self found]
      exact glimpsed
  | some element =>
      rw [peek_eq_noted found]
      cases glimpsed with
      | same => exact .noted _ reached
      | @noted _ before earlier =>
          change ((plain.noted before).noted index).Glimpsed seen plain
          rw [noted_noted]
          rcases Nat.le_total index before with closer | further
          · rw [Nat.max_eq_right closer]
            exact .noted _ earlier
          · rw [Nat.max_eq_left further]
            exact .noted _ reached

private theorem peek (glimpsed : watched.Glimpsed seen plain) (index : Nat) :
    (watched.peek index).2.Glimpsed seen (plain.peek index).2 := by
  cases found : plain.items[index]? with
  | none =>
      rw [peek_eq_self found, peek_eq_self (glimpsed.items ▸ found)]
      exact glimpsed
  | some element =>
      rw [peek_eq_noted found, peek_eq_noted (glimpsed.items ▸ found)]
      cases glimpsed with
      | same => exact .same _
      | @noted _ before reached =>
          change ((plain.noted before).noted index).Glimpsed seen (plain.noted index)
          rw [noted_noted, Nat.max_comm, ← noted_noted]
          exact .noted _ reached

private theorem pop (glimpsed : watched.Glimpsed seen plain) :
    watched.pop.2.Glimpsed seen plain.pop.2 := by
  cases glimpsed with
  | same => exact .same _
  | @noted _ index reached =>
      have commutes : (plain.noted index).pop.2 = plain.pop.2.noted index := by
        rcases plain with ⟨items, stats⟩
        cases items <;> cases stats <;> rfl
      rw [commutes]
      exact .noted _ reached

theorem push (glimpsed : watched.Glimpsed seen plain) (element : α) :
    (watched.push element).Glimpsed seen (plain.push element) := by
  cases glimpsed with
  | same => exact .same _
  | @noted _ index reached =>
      have commutes : (plain.noted index).push element = (plain.push element).noted index := by
        unfold Channel.push Channel.noted
        cases plain.stats <;> rfl
      rw [commutes]
      exact .noted _ reached

private theorem pushAll (glimpsed : watched.Glimpsed seen plain) (elements : List α) :
    (watched.pushAll elements).Glimpsed seen (plain.pushAll elements) := by
  unfold Channel.pushAll
  induction elements generalizing watched plain with
  | nil => exact glimpsed
  | cons element rest inductionHypothesis => exact inductionHypothesis (glimpsed.push element)

private theorem resetStats (glimpsed : watched.Glimpsed seen plain) :
    watched.resetStats = plain.resetStats := by
  cases glimpsed with
  | same => rfl
  | noted =>
      unfold Channel.resetStats Channel.noted
      cases plain.stats <;> rfl

end Glimpsed

end Channel

namespace Bank

/-- The first bank is the second one, but for looks from outside: in each channel at an index
that may have been seen there. -/
structure Glimpsed (seen : ChannelId → Nat → Prop) (watched plain : Bank α) : Prop where
  keys : watched.keys = plain.keys
  channels : ∀ id, (watched.channel id).Glimpsed (seen id) (plain.channel id)

namespace Glimpsed

variable {seen more : ChannelId → Nat → Prop} {watched plain : Bank α}

theorem refl (bank : Bank α) : bank.Glimpsed seen bank := ⟨rfl, fun _ => .same _⟩

theorem mono (glimpsed : watched.Glimpsed seen plain)
    (grows : ∀ id index, seen id index → more id index) : watched.Glimpsed more plain :=
  ⟨glimpsed.keys, fun id => (glimpsed.channels id).mono (grows id)⟩

theorem items (glimpsed : watched.Glimpsed seen plain) : watched.SameItems plain :=
  ⟨glimpsed.keys, fun id => (glimpsed.channels id).items⟩

/-- What is done to one channel of both banks shows at all handles on its buffer. -/
theorem alter (glimpsed : watched.Glimpsed seen plain) (id : ChannelId)
    {change : Channel α → Channel α}
    (keeps : ∀ {seen : Nat → Prop} {left right : Channel α}, left.Glimpsed seen right →
      (change left).Glimpsed seen (change right)) :
    (watched.set id (change (watched.channel id))).Glimpsed seen
      (plain.set id (change (plain.channel id))) := by
  constructor
  · rw [keys_set, keys_set, glimpsed.keys]
  · intro other
    by_cases coincide : Coincide plain.keys id other
    · have both : Coincide watched.keys id other := glimpsed.keys ▸ coincide
      rw [channel_set_of_coincide _ both, channel_set_of_coincide _ coincide,
        ← channel_of_coincide both, ← channel_of_coincide coincide]
      exact keeps (glimpsed.channels other)
    · rw [channel_set_of_apart _ (glimpsed.keys ▸ coincide), channel_set_of_apart _ coincide]
      exact glimpsed.channels other

theorem resetStats (glimpsed : watched.Glimpsed seen plain) (id : ChannelId) :
    (watched.resetStats id).Glimpsed seen (plain.resetStats id) := by
  apply glimpsed.alter id
  intro seen left right sameChannel
  rw [sameChannel.resetStats]
  exact .same _

theorem pushAll (glimpsed : watched.Glimpsed seen plain) (id : ChannelId) (elements : List α) :
    (watched.pushAll id elements).Glimpsed seen (plain.pushAll id elements) :=
  glimpsed.alter id fun sameChannel => sameChannel.pushAll elements

theorem pop (glimpsed : watched.Glimpsed seen plain) (id : ChannelId) :
    (watched.pop id).2.Glimpsed seen (plain.pop id).2 :=
  glimpsed.alter id fun sameChannel => sameChannel.pop

theorem look (glimpsed : watched.Glimpsed seen plain) {id : ChannelId} {index : Nat}
    (reached : ∀ other, Coincide plain.keys id other → seen other index) :
    (watched.peek id index).2.Glimpsed seen plain := by
  constructor
  · exact (keys_peek watched id index).trans glimpsed.keys
  · intro other
    change ((watched.set id ((watched.channel id).peek index).2).channel other).Glimpsed _ _
    by_cases coincide : Coincide plain.keys id other
    · have both : Coincide watched.keys id other := glimpsed.keys ▸ coincide
      rw [channel_set_of_coincide _ both, ← channel_of_coincide both]
      exact (glimpsed.channels other).look (reached other coincide)
    · rw [channel_set_of_apart _ (glimpsed.keys ▸ coincide)]
      exact glimpsed.channels other

end Glimpsed

theorem glimpsed_keptByRequests (seen : ChannelId → Nat → Prop) :
    KeptByRequests (Glimpsed (α := α) seen) where
  items := fun glimpsed => glimpsed.items
  pop := fun glimpsed id => glimpsed.pop id
  peek := fun glimpsed id index => glimpsed.alter id fun sameChannel => sameChannel.peek index
  push := fun glimpsed id element => glimpsed.alter id fun sameChannel => sameChannel.push element

end Bank

/-- How two runs compare that nothing but certain errors sets apart. Neither of them ends, or
both end alike, or one ends in such an error. -/
inductive Together (related : σ → σ → Prop) (parts : Error → Prop) :
    Option (Outcome ρ σ) → Option (Outcome ρ σ) → Prop where
  | unfinished : Together related parts none none
  | finished (answer : Except Error ρ) {left right : σ} (kept : related left right) :
      Together related parts (some (answer, left)) (some (answer, right))
  | left {error : Error} (apart : parts error) (state : σ) (other : Option (Outcome ρ σ)) :
      Together related parts (some (.error error, state)) other
  | right {error : Error} (apart : parts error) (state : σ) (other : Option (Outcome ρ σ)) :
      Together related parts other (some (.error error, state))

namespace Graph

variable {seen : ChannelId → Nat → Prop}

/-- The violations that a look from outside can bring about or cover up: those of peek rates
that do not hide it. -/
inductive Noticed (graph : Graph β α μ) (seen : ChannelId → Nat → Prop) : Error → Prop where
  | peek {id : WorkerId} {worker : Worker β μ} {number index : Nat} {port : Port} {rate : Rate}
      (known : graph.worker? id = some worker) (input : worker.inputs[number]? = some port)
      (declared : worker.rates.peek[number]? = some rate) (reached : seen port.channel index)
      (exposed : ¬ rate.Hides (index + 1)) (observed : Nat) :
      Noticed graph seen (.rateViolation worker.label number .peek rate observed)

theorem Noticed.of_frame_eq {before after : Graph β α μ} (frame : after.frame = before.frame)
    {error : Error} (noticed : after.Noticed seen error) : before.Noticed seen error := by
  cases noticed with
  | @peek id worker number index port rate known input declared reached exposed observed =>
      rcases worker_of_frame_eq frame known with ⟨other, found, same⟩
      have inputs : other.inputs = worker.inputs := congrArg WorkerFrame.inputs same
      have rates : other.rates = worker.rates := congrArg WorkerFrame.rates same
      have label : other.label = worker.label :=
        congrArg (fun frame => ({ name := frame.name, id := frame.id } : Label)) same
      rw [← inputs] at input
      rw [← rates] at declared
      rw [← label]
      exact .peek found input declared reached exposed observed

/-- The first graph is the second one, but for looks from outside. -/
structure Glimpsed (seen : ChannelId → Nat → Prop) (watched plain : Graph β α μ) : Prop where
  rest : watched = { plain with bank := watched.bank }
  bank : watched.bank.Glimpsed seen plain.bank

theorem glimpsed_withBank (graph : Graph β α μ) {bank : Bank α}
    (glimpsed : bank.Glimpsed seen graph.bank) :
    { graph with bank := bank }.Glimpsed seen graph :=
  ⟨rfl, glimpsed⟩

/-- A rate that hides a look finds the same as without it. -/
theorem checkRate_of_hides {rate : Rate} {extent : Nat} (hides : rate.Hides extent)
    (worker : Label) (port : Nat) (kind : RateKind) (observed : Nat) :
    checkRate worker port kind rate (max observed extent) =
      checkRate worker port kind rate observed := by
  rcases Nat.le_total observed extent with within | beyond
  · rw [Nat.max_eq_right within]
    unfold checkRate
    rw [if_pos hides.all, if_pos (hides.admits within)]
  · rw [Nat.max_eq_left beyond]

/-- A look from outside leaves the check of an input as it is, or a peek rate that does not hide
it is found violated with the look or without it. -/
theorem checkInput_glimpsed (graph : Graph β α μ) {bank : Bank α}
    (glimpsed : bank.Glimpsed seen graph.bank) (worker : Label) (port : Nat)
    (channel : ChannelId) (peek pop : Rate) :
    { graph with bank := bank }.checkInput worker port channel peek pop =
        graph.checkInput worker port channel peek pop ∨
      ∃ index observed, seen channel index ∧ ¬ peek.Hides (index + 1) ∧
        ({ graph with bank := bank }.checkInput worker port channel peek pop =
            .error (.rateViolation worker port .peek peek observed) ∨
          graph.checkInput worker port channel peek pop =
            .error (.rateViolation worker port .peek peek observed)) := by
  have counts := glimpsed.channels channel
  unfold checkInput auditStats
  dsimp only
  generalize bank.channel channel = watched at counts
  generalize graph.bank.channel channel = plain at counts
  cases counts with
  | same => exact .inl rfl
  | @noted _ index reached =>
      unfold Channel.noted
      dsimp only
      cases plain.stats with
      | none => exact .inl rfl
      | some stats =>
          have extent := stats.peekExtent_countPeek index
          dsimp only [Option.map_some]
          rw [extent]
          by_cases hides : peek.Hides (index + 1)
          · rw [checkRate_of_hides hides]
            exact .inl rfl
          · -- A rate can admit the extent with the look and not without it, or the other way.
            unfold checkRate
            by_cases plainly : peek.admits stats.peekExtent = true
            · by_cases further : peek.admits (max stats.peekExtent (index + 1)) = true
              · rw [if_pos plainly, if_pos further]
                exact .inl rfl
              · rw [if_neg further]
                exact .inr ⟨index, _, reached, hides, .inl rfl⟩
            · rw [if_neg plainly]
              exact .inr ⟨index, _, reached, hides, .inr rfl⟩

private theorem auditInputs_glimpsed (graph : Graph β α μ) {bank : Bank α}
    (glimpsed : bank.Glimpsed seen graph.bank) (worker : Label) (first : Nat)
    (inputs : List (ChannelId × Rate × Rate)) {parts : Error → Prop}
    (notices : ∀ number channel peek pop index observed,
      inputs[number]? = some (channel, peek, pop) → seen channel index →
      ¬ peek.Hides (index + 1) →
      parts (.rateViolation worker (first + number) .peek peek observed)) :
    Together (Glimpsed seen) parts
      (some ({ graph with bank := bank }.auditInputs worker first inputs))
      (some (graph.auditInputs worker first inputs)) := by
  induction inputs generalizing graph bank first with
  | nil => exact .finished _ (glimpsed_withBank graph glimpsed)
  | cons entry rest inductionHypothesis =>
      rcases entry with ⟨channel, peek, pop⟩
      unfold auditInputs
      rcases checkInput_glimpsed graph glimpsed worker first channel peek pop with
        equal | ⟨index, observed, reached, exposed, failed | failed⟩
      · rw [equal]
        cases graph.checkInput worker first channel peek pop with
        | error error => exact .finished _ (glimpsed_withBank graph glimpsed)
        | ok accepted =>
            apply inductionHypothesis (graph.resetStats channel) (glimpsed.resetStats channel)
            intro number channel peek pop index observed member
            have shifted := notices (number + 1) channel peek pop index observed member
            rwa [Nat.add_comm number 1, ← Nat.add_assoc] at shifted
      · rw [failed]
        exact .left (notices 0 channel peek pop index observed rfl reached exposed) _ _
      · rw [failed]
        exact .right (notices 0 channel peek pop index observed rfl reached exposed) _ _

private theorem auditOutputs_glimpsed (graph : Graph β α μ) {bank : Bank α}
    (glimpsed : bank.Glimpsed seen graph.bank) (worker : Label) (first : Nat)
    (outputs : List (ChannelId × Rate)) (parts : Error → Prop) :
    Together (Glimpsed seen) parts
      (some ({ graph with bank := bank }.auditOutputs worker first outputs))
      (some (graph.auditOutputs worker first outputs)) := by
  induction outputs generalizing graph bank first with
  | nil => exact .finished _ (glimpsed_withBank graph glimpsed)
  | cons entry rest inductionHypothesis =>
      rcases entry with ⟨channel, push⟩
      have equal : { graph with bank := bank }.checkOutput worker first channel push =
          graph.checkOutput worker first channel push := by
        have counts := glimpsed.channels channel
        unfold checkOutput auditStats
        dsimp only
        generalize bank.channel channel = watched at counts
        generalize graph.bank.channel channel = plain at counts
        cases counts with
        | same => rfl
        | noted =>
            unfold Channel.noted
            cases plain.stats <;> rfl
      unfold auditOutputs
      rw [equal]
      cases graph.checkOutput worker first channel push with
      | error error => exact .finished _ (glimpsed_withBank graph glimpsed)
      | ok accepted =>
          exact inductionHypothesis (graph.resetStats channel) (glimpsed.resetStats channel) _

private theorem audit_glimpsed (graph : Graph β α μ) {bank : Bank α}
    (glimpsed : bank.Glimpsed seen graph.bank) (id : WorkerId) :
    Together (Glimpsed seen) (graph.Noticed seen)
      (some ({ graph with bank := bank }.audit id)) (some (graph.audit id)) := by
  have workers : { graph with bank := bank }.worker? id = graph.worker? id := rfl
  unfold audit
  rw [workers]
  cases known : graph.worker? id with
  | none => exact .finished _ (glimpsed_withBank graph glimpsed)
  | some worker =>
      dsimp only
      let entries := worker.inputChannels.zip (worker.rates.peek.zip worker.rates.pop)
      have notices (number : Nat) (channel : ChannelId) (peek pop : Rate) (index observed : Nat)
          (entry : entries[number]? = some (channel, peek, pop)) (reached : seen channel index)
          (exposed : ¬ peek.Hides (index + 1)) :
          graph.Noticed seen
            (.rateViolation worker.label (0 + number) .peek peek observed) := by
        rw [List.getElem?_zip_eq_some, List.getElem?_zip_eq_some] at entry
        rcases entry with ⟨channelPlace, peekPlace, _⟩
        unfold Worker.inputChannels at channelPlace
        rw [List.getElem?_map, Option.map_eq_some_iff] at channelPlace
        rcases channelPlace with ⟨port, portPlace, rfl⟩
        rw [Nat.zero_add]
        exact .peek known portPlace peekPlace reached exposed observed
      have inputs := graph.auditInputs_glimpsed glimpsed worker.label 0 entries notices
      generalize { graph with bank := bank }.auditInputs worker.label 0 _ = watched at inputs
      generalize graph.auditInputs worker.label 0 _ = plain at inputs
      cases inputs with
      | left apart => exact .left apart _ _
      | right apart => exact .right apart _ _
      | @finished answer left right kept =>
          cases answer with
          | error error => exact .finished _ kept
          | ok accepted =>
              rw [kept.rest]
              exact right.auditOutputs_glimpsed kept.bank worker.label 0 _ _

end Graph

/-- Whatever follows a firing goes alike, unless it audits and notices a look. -/
theorem Delegate.afterFire_glimpsed (delegate : Delegate) (number : Nat) (graph : Graph β α μ)
    {bank : Bank α} {seen : ChannelId → Nat → Prop} (glimpsed : bank.Glimpsed seen graph.bank)
    (id : WorkerId) :
    Together (Graph.Glimpsed seen) (fun error => delegate.audits = true ∧ graph.Noticed seen error)
      (some (delegate.afterFire number { graph with bank := bank } id))
      (some (delegate.afterFire number graph id)) := by
  have judged : Together (Graph.Glimpsed seen)
      (fun error => delegate.audits = true ∧ graph.Noticed seen error)
      (some (if delegate.audits then { graph with bank := bank }.audit id
        else (.ok (), { graph with bank := bank })))
      (some (if delegate.audits then graph.audit id else (.ok (), graph))) := by
    by_cases audits : delegate.audits = true
    · rw [if_pos audits, if_pos audits]
      have audited := graph.audit_glimpsed glimpsed id
      generalize { graph with bank := bank }.audit id = watched at audited
      generalize graph.audit id = plain at audited
      cases audited with
      | finished answer kept => exact .finished answer kept
      | left apart => exact .left ⟨audits, apart⟩ _ _
      | right apart => exact .right ⟨audits, apart⟩ _ _
    · rw [if_neg audits, if_neg audits]
      exact .finished _ (graph.glimpsed_withBank glimpsed)
  unfold afterFire
  generalize (if delegate.audits then { graph with bank := bank }.audit id
    else (.ok (), { graph with bank := bank })) = watched at judged
  generalize (if delegate.audits then graph.audit id else (.ok (), graph)) = plain at judged
  cases judged with
  | left apart => exact .left apart _ _
  | right apart => exact .right apart _ _
  | finished answer kept =>
      cases answer with
      | error error => exact .finished _ kept
      | ok accepted =>
          dsimp only
          split
          next => exact .finished _ kept
          next => exact .finished _ kept

end DemandFlow
