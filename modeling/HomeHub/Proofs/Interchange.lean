import HomeHub.Proofs.FinalErrors

/-!
# Interchangeable streams

Streams that own the same buses and answer each poll alike may stand for each other: whatever is done to
a session, nothing that comes of it tells with which of them it began.
-/

namespace HomeHub

-- ---------------------------------------------------------------------------
-- Runs
-- ---------------------------------------------------------------------------

inductive Run.Mirrors {σ τ : Type} (related : σ → τ → Prop) : Run σ → Run τ → Prop where
  | rest {rest : σ} {rest' : τ} (ended : Bool) (h : related rest rest') :
      Mirrors related ⟨[], rest, ended⟩ ⟨[], rest', ended⟩
  | cons (beat : Beat) {state : σ} {state' : τ} {run : Run σ} {run' : Run τ}
      (h : related state state') (hr : Mirrors related run run') :
      Mirrors related (run.cons beat state) (run'.cons beat state')

/-- Answers to a poll that differ at most in the states they leave, which are related. -/
structure Run.SameAnswer {σ τ : Type} (related : σ → τ → Prop) (answer : List Item × PollStatus × σ)
    (other : List Item × PollStatus × τ) : Prop where
  items : other.1 = answer.1
  status : other.2.1 = answer.2.1
  rest : related answer.2.2 other.2.2

namespace Run

variable {σ τ : Type} {related : σ → τ → Prop} {run : Run σ} {run' : Run τ}

theorem Mirrors.map {σ' τ' : Type} {related' : σ' → τ' → Prop} {f : σ → σ'} {g : τ → τ'}
    (h : Mirrors related run run')
    (hf : ∀ state state', related state state' → related' (f state) (g state')) :
    Mirrors related' (run.map f) (run'.map g) := by
  induction h with
  | rest ended h => exact .rest ended (hf _ _ h)
  | cons beat h _ ih => exact .cons beat (hf _ _ h) ih

theorem Mirrors.take (h : Mirrors related run run') {start : σ} {start' : τ}
    (hs : related start start') (limit : Option Nat) :
    SameAnswer related (run.take limit start) (run'.take limit start') := by
  unfold Run.take
  induction h generalizing start start' limit with
  | rest ended h =>
    by_cases hlimit : limit = some 0
    · rw [hlimit, takeSteps_zero, takeSteps_zero]
      exact ⟨rfl, rfl, hs⟩
    · rw [takeSteps_nil hlimit, takeSteps_nil hlimit]
      exact ⟨rfl, rfl, h⟩
  | @cons beat state state' run run' h _ ih =>
    by_cases hlimit : limit = some 0
    · rw [hlimit, takeSteps_zero, takeSteps_zero]
      exact ⟨rfl, rfl, hs⟩
    · simp only [Run.cons]
      cases beat with
      | pause =>
        rw [takeSteps_pause hlimit, takeSteps_pause hlimit]
        exact ⟨rfl, rfl, h⟩
      | item item =>
        obtain ⟨hitems, hstatus, hrest⟩ := ih h (limit.map (· - 1))
        rw [takeSteps_item hlimit, takeSteps_item hlimit]
        exact ⟨congrArg (List.cons item) hitems, hstatus, hrest⟩

end Run

structure Stream.AreInterchangeable (related : Stream → Stream → Prop) : Prop where
  refl : ∀ stream, related stream stream
  owns : ∀ stream other, related stream other → ∀ slot, other.owns slot = stream.owns slot
  poll : ∀ stream other, related stream other → ∀ instant limit,
    Run.SameAnswer related (stream.poll instant limit) (other.poll instant limit)

-- ---------------------------------------------------------------------------
-- Tables
-- ---------------------------------------------------------------------------

namespace Table

variable {related : α → β → Prop} {table : Table α} {others : Table β}

abbrev Mirrors (related : α → β → Prop) (table : Table α) (others : Table β) : Prop :=
  List.Forall₂ (fun entry other => other.1 = entry.1 ∧ related entry.2 other.2) table others

theorem Mirrors.get? (h : Mirrors related table others) (key : String) :
    Option.Rel related (table.get? key) (others.get? key) := by
  induction h with
  | nil => exact .none
  | @cons entry other rest rest' h _ ih =>
    rw [get?_cons, get?_cons, h.1]
    split
    · exact .some h.2
    · exact ih

theorem Mirrors.insert (h : Mirrors related table others) (key : String) {value : α} {other : β}
    (hv : related value other) : Mirrors related (table.insert key value) (others.insert key other) := by
  induction h with
  | nil => exact .cons ⟨rfl, hv⟩ .nil
  | @cons entry entry' rest rest' he hr ih =>
    obtain ⟨name, old⟩ := entry
    obtain ⟨name', old'⟩ := entry'
    obtain rfl : name' = name := he.1
    unfold Table.insert
    split
    · exact .cons ⟨rfl, hv⟩ (.cons he hr)
    · split
      · exact .cons ⟨rfl, hv⟩ hr
      · exact .cons he ih

theorem Mirrors.erase (h : Mirrors related table others) (key : String) :
    Mirrors related (table.erase key) (others.erase key) := by
  induction h with
  | nil => exact .nil
  | @cons entry entry' rest rest' he _ ih =>
    simp only [Table.erase, List.filter_cons, he.1] at ih ⊢
    split
    · exact .cons he ih
    · exact ih

theorem Mirrors.contains (h : Mirrors related table others) (key : String) :
    others.contains key = table.contains key := by
  have hget := h.get? key
  unfold Table.contains
  generalize table.get? key = found, others.get? key = found' at hget
  cases hget <;> rfl

theorem Mirrors.any {test : α → Bool} {test' : β → Bool} (h : Mirrors related table others)
    (ht : ∀ value other, related value other → test' other = test value) :
    others.any (fun entry => test' entry.2) = table.any fun entry => test entry.2 := by
  induction h with
  | nil => rfl
  | cons he _ ih => rw [List.any_cons, List.any_cons, ih, ht _ _ he.2]

theorem Mirrors.refl {related : α → α → Prop} (h : ∀ value, related value value) (table : Table α) :
    Mirrors related table table :=
  List.forall₂_same.2 fun _ _ => ⟨rfl, h _⟩

end Table

-- ---------------------------------------------------------------------------
-- Sessions
-- ---------------------------------------------------------------------------

namespace Session

def withStreams (session : Session) (streams : Table Stream) : Session :=
  { session with streams := streams }

section
variable (session : Session) (streams : Table Stream)

theorem deliver_withStreams (delivery : Delivery) : (session.withStreams streams).deliver delivery =
    (session.deliver delivery).map (·.withStreams streams) := by
  unfold deliver
  cases hs : session.slots[delivery.bus]? with
  | none => simp [withStreams, hs, Except.map]
  | some entry =>
    cases hf : entry.refusal <;> simp [withStreams, hs, hf, Except.map, putBus, changeSlot]

theorem deliverAll_withStreams (deliveries : List Delivery) :
    (session.withStreams streams).deliverAll deliveries =
      ((session.deliverAll deliveries).1, (session.deliverAll deliveries).2.withStreams streams) := by
  induction deliveries generalizing session with
  | nil => rfl
  | cons delivery rest ih =>
    unfold deliverAll
    rw [deliver_withStreams]
    cases hd : session.deliver delivery with
    | error error => rfl
    | ok next => exact ih next

theorem request_withStreams (deliveries : Except ServiceCallError (List Delivery)) :
    (session.withStreams streams).request deliveries =
      ((session.request deliveries).1, (session.request deliveries).2.withStreams streams) := by
  cases deliveries with
  | error error => rfl
  | ok deliveries => exact session.deliverAll_withStreams streams deliveries

theorem onBus_withStreams {slot : Nat} {act act' : Bus → Outcome × Session}
    (h : ∀ bus, act' bus = ((act bus).1, (act bus).2.withStreams streams)) :
    (session.withStreams streams).onBus slot act' =
      ((session.onBus slot act).1, (session.onBus slot act).2.withStreams streams) := by
  have hbus : (session.withStreams streams).bus? slot = session.bus? slot := rfl
  unfold onBus
  rw [hbus]
  cases session.bus? slot with
  | none => rfl
  | some bus => exact h bus

theorem perform_withStreams (pick : List Nat → Nat) {action : Action} (h : action.stream? = none) :
    (session.withStreams streams).perform pick action =
      ((session.perform pick action).1, (session.perform pick action).2.withStreams streams) := by
  cases action with
  | setState slot now state => exact session.onBus_withStreams streams fun bus => rfl
  | removeState slot entityId => exact session.onBus_withStreams streams fun bus => rfl
  | setArea slot entityId area => exact session.onBus_withStreams streams fun bus => rfl
  | call slot entityId service data =>
    refine session.onBus_withStreams streams fun bus => ?_
    simp only [callService, request_withStreams]
  | callMany members service data =>
    have hhandles : (session.withStreams streams).handles? members = session.handles? members := rfl
    simp only [perform, hhandles]
    cases session.handles? members with
    | none => rfl
    | some handles => simp only [callServiceFor, request_withStreams]
  | setFailing slot failing => exact session.onBus_withStreams streams fun bus => rfl
  | dropBus slot => rfl
  | advance milliseconds => rfl
  | _ => simp [Action.stream?] at h

end

/-- Sessions that differ at most in their streams, which are related name by name. -/
inductive Mirrors (related : Stream → Stream → Prop) : Session → Session → Prop where
  | mk {session : Session} {streams : Table Stream}
      (h : Table.Mirrors related session.streams streams) :
      Mirrors related session (session.withStreams streams)

def outcomes : Session → List Step → List Outcome
  | _, [] => []
  | session, step :: rest =>
    (session.perform step.pick step.action).1 ::
      (session.perform step.pick step.action).2.outcomes rest

section
variable {related : Stream → Stream → Prop} {session other : Session}

theorem instant_withStreams (hi : Stream.AreInterchangeable related) {streams : Table Stream}
    (h : Table.Mirrors related session.streams streams) (pick : List Nat → Nat) :
    (session.withStreams streams).instant pick = session.instant pick := by
  have howned (slot : Nat) : (session.withStreams streams).owned slot = session.owned slot :=
    h.any fun stream other hr => hi.owns stream other hr slot
  have hclosed : (session.withStreams streams).closed = session.closed := by
    funext slot
    simp only [closed, howned]
    rfl
  simp only [instant, hclosed]
  rfl

theorem Mirrors.perform (hi : Stream.AreInterchangeable related) (h : session.Mirrors related other)
    (pick : List Nat → Nat) (action : Action) :
    (other.perform pick action).1 = (session.perform pick action).1 ∧
      (session.perform pick action).2.Mirrors related (other.perform pick action).2 := by
  cases h with
  | @mk streams h =>
    cases hs : action.stream? with
    | none =>
      rw [perform_withStreams _ _ _ hs]
      refine ⟨rfl, .mk ?_⟩
      rwa [streams_perform pick session hs]
    | some name =>
      cases action with
      | subscribe name plan =>
        have hbuses : plan.buses.all (fun slot => ((session.withStreams streams).bus? slot).isSome) =
            plan.buses.all fun slot => (session.bus? slot).isSome := rfl
        rw [perform_subscribe, perform_subscribe, hbuses]
        split
        · exact ⟨rfl, .mk (h.insert name (hi.refl _))⟩
        · exact ⟨rfl, .mk h⟩
      | poll name limit =>
        have hget := h.get? name
        generalize hn : session.streams.get? name = found, hn' : streams.get? name = found' at hget
        cases hget with
        | none =>
          rw [perform_poll_missing pick limit hn, perform_poll_missing pick limit hn']
          exact ⟨rfl, .mk h⟩
        | @some stream stream' hr =>
          have hanswer := hi.poll stream stream' hr (session.instant pick) limit
          rw [perform_poll pick limit hn, perform_poll pick limit hn', instant_withStreams hi h,
            hanswer.items, hanswer.status]
          exact ⟨rfl, .mk (h.insert name hanswer.rest)⟩
      | dropStream name => exact ⟨congrArg Outcome.dropped (h.contains name), .mk (h.erase name)⟩
      | _ => simp [Action.stream?] at hs

theorem Mirrors.outcomes (hi : Stream.AreInterchangeable related) (h : session.Mirrors related other)
    (steps : List Step) : other.outcomes steps = session.outcomes steps := by
  induction steps generalizing session other with
  | nil => rfl
  | cons step rest ih =>
    obtain ⟨houtcome, hnext⟩ := h.perform hi step.pick step.action
    rw [Session.outcomes, Session.outcomes, houtcome, ih hnext]

/-- Nothing tells which of two plans with related streams was opened. -/
theorem outcomes_subscribe (hi : Stream.AreInterchangeable related) {plan plan' : Plan}
    (h : ∀ lengths, related (plan.start lengths) (plan'.start lengths))
    (hbuses : plan'.buses = plan.buses) (session : Session) (pick : List Nat → Nat)
    (name : String) (steps : List Step) :
    session.outcomes (⟨pick, .subscribe name plan'⟩ :: steps) =
      session.outcomes (⟨pick, .subscribe name plan⟩ :: steps) := by
  have hopened : (session.putStream name (plan.start session.logLength)).Mirrors related
      (session.putStream name (plan'.start session.logLength)) :=
    .mk ((Table.Mirrors.refl hi.refl session.streams).insert name (h _))
  rw [Session.outcomes, Session.outcomes, perform_subscribe, perform_subscribe, hbuses]
  split
  · exact congrArg (List.cons Outcome.done) (hopened.outcomes hi steps)
  · rfl

end

end Session

end HomeHub
