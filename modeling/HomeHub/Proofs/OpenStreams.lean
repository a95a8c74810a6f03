import HomeHub.Proofs.SessionRuns

/-!
# Open streams and their plans

The open streams of a session stand beside the plans that they were opened for. What relates a stream to
its plan when it is opened and outlasts polls relates all of them, behind any steps.
-/

namespace HomeHub

-- ---------------------------------------------------------------------------
-- Tables side by side
-- ---------------------------------------------------------------------------

namespace Table

section
variable {α β : Type} {related : α → β → Prop} {table : Table α} {other : Table β} {key : String}

def Pairs (related : α → β → Prop) (table : Table α) (other : Table β) : Prop :=
  List.Forall₂ (fun entry paired => entry.1 = paired.1 ∧ related entry.2 paired.2) table other

theorem Pairs.isAscending (h : Pairs related table other) (ha : table.IsAscending) :
    other.IsAscending := by
  have hkeys : table.map (·.1) = other.map (·.1) := by
    refine List.forall₂_eq_eq_eq ▸ List.forall₂_map_left_iff.2 (List.forall₂_map_right_iff.2 ?_)
    exact h.imp fun _ _ => And.left
  exact List.pairwise_map.1 (hkeys ▸ List.pairwise_map.2 ha)

theorem Pairs.get? (h : Pairs related table other) (key : String) :
    Option.Rel related (table.get? key) (other.get? key) := by
  induction h with
  | nil => exact .none
  | cons hentry _ ih =>
    rw [get?_cons, get?_cons, hentry.1]
    split
    · exact .some hentry.2
    · exact ih

theorem Pairs.insert (h : Pairs related table other) (key : String) {value : α} {paired : β}
    (hr : related value paired) : Pairs related (table.insert key value) (other.insert key paired) := by
  induction h with
  | nil => exact .cons ⟨rfl, hr⟩ .nil
  | @cons entry found rest others hentry hrest ih =>
    obtain ⟨first, old⟩ := entry
    obtain ⟨_, opened⟩ := found
    obtain ⟨rfl, hold⟩ := hentry
    unfold Table.insert
    split
    · exact .cons ⟨rfl, hr⟩ (.cons ⟨rfl, hold⟩ hrest)
    · split
      · exact .cons ⟨rfl, hr⟩ hrest
      · exact .cons ⟨rfl, hold⟩ ih

theorem Pairs.erase (h : Pairs related table other) (key : String) :
    Pairs related (table.erase key) (other.erase key) := by
  induction h with
  | nil => exact .nil
  | cons hentry _ ih =>
    simp only [Table.erase, List.filter_cons, hentry.1] at ih ⊢
    split
    · exact .cons hentry ih
    · exact ih

theorem insert_eq_self {value : α} (ha : table.IsAscending) (h : table.get? key = some value) :
    table.insert key value = table := by
  induction table with
  | nil => cases h
  | cons entry rest ih =>
    obtain ⟨hfirst, hrest⟩ := List.pairwise_cons.1 ha
    rw [get?_cons] at h
    unfold Table.insert
    split at h
    · rename_i heq
      cases h
      rw [heq, if_neg (String.lt_irrefl _), if_pos rfl]
      exact congrArg (· :: rest) (Prod.ext heq.symm rfl)
    · rename_i hne
      have hlt := hfirst _ (mem_of_get?_eq_some h)
      rw [if_neg (String.lt_asymm hlt), if_neg (Ne.symm hne), ih hrest h]

end

end Table

-- ---------------------------------------------------------------------------
-- Sessions
-- ---------------------------------------------------------------------------

namespace Session

def plansAfter (session : Session) (plans : Table Plan) : Action → Table Plan
  | .subscribe name plan =>
    if plan.buses.all fun slot => (session.bus? slot).isSome then plans.insert name plan else plans
  | .dropStream name => plans.erase name
  | _ => plans

def openPlans (session : Session) (plans : Table Plan) : List Step → Table Plan
  | [] => plans
  | step :: rest =>
    (session.perform step.pick step.action).2.openPlans (session.plansAfter plans step.action) rest

structure OpenedFor (session : Session) (related : Stream → Plan → Prop) (plans : Table Plan) : Prop where
  ascending : session.streams.IsAscending
  paired : Table.Pairs related session.streams plans

/-- A relation that holds of the streams that a session opens and that its polls do not break. -/
structure Retains (session : Session) (related : Stream → Plan → Prop) : Prop where
  opened : ∀ plan, (∀ slot ∈ plan.buses, (session.bus? slot).isSome = true) →
    related (plan.start session.logLength) plan
  polled : ∀ name stream plan, session.streams.get? name = some stream → related stream plan →
    ∀ pick limit, related (stream.poll (session.instant pick) limit).2.2 plan

section
variable {session : Session} {plans : Table Plan} {related : Stream → Plan → Prop} {name : String}
  {stream : Stream}

theorem openedFor_ofBuses (buses : List Bus) (related : Stream → Plan → Prop) :
    (ofBuses buses).OpenedFor related [] :=
  ⟨.nil, .nil⟩

theorem plansAfter_of_stream?_eq_none {action : Action} (h : action.stream? = none) :
    session.plansAfter plans action = plans := by
  cases action with
  | subscribe | poll | dropStream => simp [Action.stream?] at h
  | _ => rfl

namespace OpenedFor

variable (h : session.OpenedFor related plans)
include h

theorem plansAscending : plans.IsAscending := h.paired.isAscending h.ascending

theorem exists_plan (hn : session.streams.get? name = some stream) :
    ∃ plan, plans.get? name = some plan ∧ related stream plan := by
  have hrel := h.paired.get? name
  rw [hn] at hrel
  generalize plans.get? name = plan? at hrel
  cases hrel with
  | some hr => exact ⟨_, rfl, hr⟩

theorem exists_stream {plan : Plan} (hp : plans.get? name = some plan) :
    ∃ stream, session.streams.get? name = some stream ∧ related stream plan := by
  have hrel := h.paired.get? name
  rw [hp] at hrel
  generalize session.streams.get? name = stream? at hrel
  cases hrel with
  | some hr => exact ⟨_, rfl, hr⟩

theorem putStream {plan : Plan} (hr : related stream plan) (name : String) :
    (session.putStream name stream).OpenedFor related (plans.insert name plan) :=
  ⟨Table.isAscending_insert h.ascending name stream, h.paired.insert name hr⟩

theorem perform (hr : session.Retains related) (pick : List Nat → Nat) (action : Action) :
    (session.perform pick action).2.OpenedFor related (session.plansAfter plans action) := by
  cases ha : action.stream? with
  | none =>
    rw [plansAfter_of_stream?_eq_none ha]
    have hstreams := streams_perform pick session ha
    exact ⟨hstreams ▸ h.ascending, hstreams ▸ h.paired⟩
  | some target =>
    cases action with
    | subscribe name plan =>
      rw [perform_subscribe, plansAfter]
      split
      · rename_i hbuses
        exact h.putStream (hr.opened plan (List.all_eq_true.1 hbuses)) name
      · exact h
    | poll name limit =>
      cases hn : session.streams.get? name with
      | none =>
        rw [perform_poll_missing pick limit hn]
        exact h
      | some stream =>
        -- the polled stream takes its own place, and its plan stays where it is
        obtain ⟨plan, hp, hrelated⟩ := h.exists_plan hn
        have hput := h.putStream (hr.polled name stream plan hn hrelated pick limit) name
        rw [Table.insert_eq_self h.plansAscending hp] at hput
        rw [perform_poll pick limit hn]
        exact hput
    | dropStream name => exact ⟨Table.isAscending_erase h.ascending name, h.paired.erase name⟩
    | _ => simp [Action.stream?] at ha

omit h in
theorem performSteps (h : session.OpenedFor related plans) {steps : List Step}
    (hr : ∀ front, front <+: steps → (session.performSteps front).Retains related) :
    (session.performSteps steps).OpenedFor related (session.openPlans plans steps) := by
  induction steps generalizing session plans with
  | nil => exact h
  | cons step rest ih =>
    refine ih (h.perform (hr [] List.nil_prefix) step.pick step.action) fun front hf => ?_
    exact hr (step :: front) (List.cons_prefix_cons.2 ⟨rfl, hf⟩)

end OpenedFor

end

end Session

end HomeHub
