import HomeHub.Proofs.Owners

/-!
# Counts of subscribers

As long as the session refers to a bus, the subscribers of the bus are the bare feeds and the handles that
the open streams were opened for, each of them counted once. Only opening and dropping changes the count,
and a stream that is dropped gives back all that it was opened for.
-/

namespace HomeHub

-- ---------------------------------------------------------------------------
-- Totals of tables
-- ---------------------------------------------------------------------------

namespace Table

variable {α : Type} {table : Table α} {key : String}

def total (weight : α → Nat) : Table α → Nat
  | [] => 0
  | (_, value) :: rest => weight value + total weight rest

theorem total_add (weight other : α → Nat) (table : Table α) :
    table.total (fun value => weight value + other value) = table.total weight + table.total other := by
  induction table with
  | nil => rfl
  | cons entry rest ih =>
    simp only [total, ih]
    omega

theorem get?_eq_none (h : ∀ entry ∈ table, entry.1 ≠ key) : table.get? key = none :=
  Option.map_eq_none_iff.2 <| List.find?_eq_none.2 fun entry hm heq => h entry hm (eq_of_beq heq)

theorem total_insert (h : table.IsAscending) (key : String) (value : α) (weight : α → Nat) :
    (table.insert key value).total weight + ((table.get? key).map weight).getD 0 =
      table.total weight + weight value := by
  induction table with
  | nil => simp [insert, total, get?_nil]
  | cons entry rest ih =>
    obtain ⟨hfirst, hrest⟩ := List.pairwise_cons.1 h
    have hadded := ih hrest
    unfold insert
    split
    · rename_i hlt
      have hnone : get? (entry :: rest) key = none := get?_eq_none fun other hm => by
        rcases List.mem_cons.1 hm with rfl | hm
        · exact (String.ne_of_lt hlt).symm
        · exact (String.ne_of_lt (String.lt_trans hlt (hfirst other hm))).symm
      simp [hnone, total, Nat.add_comm]
    · rw [get?_cons]
      split
      · rename_i heq
        simp only [total, heq, if_true, Option.map_some, Option.getD_some]
        omega
      · rename_i hne
        rw [if_neg (Ne.symm hne)]
        simp only [total]
        omega

theorem total_erase (h : table.IsAscending) (key : String) (weight : α → Nat) :
    (table.erase key).total weight + ((table.get? key).map weight).getD 0 = table.total weight := by
  induction table with
  | nil => rfl
  | cons entry rest ih =>
    obtain ⟨hfirst, hrest⟩ := List.pairwise_cons.1 h
    have hleft := ih hrest
    rw [get?_cons]
    by_cases heq : entry.1 = key
    · have hnone : get? rest key = none := get?_eq_none fun other hm hk =>
        String.ne_of_lt (hfirst other hm) (heq.trans hk.symm)
      have herase : erase (entry :: rest) key = erase rest key := by simp [erase, heq]
      simp only [hnone, Option.map_none, Option.getD_none] at hleft
      simp only [herase, heq, if_true, Option.map_some, Option.getD_some, total]
      omega
    · have herase : erase (entry :: rest) key = entry :: erase rest key := by simp [erase, heq]
      simp only [herase, heq, if_false, total]
      omega

theorem Pairs.total_eq {β : Type} {related : α → β → Prop} {other : Table β} {weight : α → Nat}
    {otherWeight : β → Nat} (h : Pairs related table other)
    (hw : ∀ {value paired}, related value paired → weight value = otherWeight paired) :
    table.total weight = other.total otherWeight := by
  induction h with
  | nil => rfl
  | cons hentry _ ih => exact congrArg₂ (· + ·) (hw hentry.2) ih

end Table

-- ---------------------------------------------------------------------------
-- Bare feeds
-- ---------------------------------------------------------------------------

namespace Plan

mutual
/-- The buses of a plan that are fed from without a handle, once for every feed. -/
def bareFeeds : Plan → List Nat
  | .bus slot => [slot]
  | .entity _ _ => []
  | .items _ => []
  | .transitions plan => plan.bareFeeds
  | .untilError plan => plan.bareFeeds
  | .merged plans => bareFeedsOfAll plans
  | .held _ _ plan => plan.bareFeeds
termination_by structural plan => plan
def bareFeedsOfAll : List Plan → List Nat
  | [] => []
  | plan :: rest => plan.bareFeeds ++ bareFeedsOfAll rest
termination_by structural plans => plans
end

def subscriptions (slot : Nat) (plan : Plan) : Nat :=
  plan.bareFeeds.count slot + plan.handles.count slot

mutual
theorem count_buses (slot : Nat) : ∀ plan : Plan, plan.buses.count slot = plan.subscriptions slot
  | .bus _ => rfl
  | .entity _ _ => (Nat.zero_add _).symm
  | .items _ => rfl
  | .transitions plan => plan.count_buses slot
  | .untilError plan => plan.count_buses slot
  | .merged plans => count_busesOfAll slot plans
  | .held _ _ plan => plan.count_buses slot
theorem count_busesOfAll (slot : Nat) : ∀ plans : List Plan,
    (busesOfAll plans).count slot = (bareFeedsOfAll plans).count slot + (handlesOfAll plans).count slot
  | [] => rfl
  | plan :: rest => by
    have hfirst := plan.count_buses slot
    have hrest := count_busesOfAll slot rest
    simp only [busesOfAll, bareFeedsOfAll, handlesOfAll, List.count_append, subscriptions] at *
    omega
end

end Plan

-- ---------------------------------------------------------------------------
-- Streams
-- ---------------------------------------------------------------------------

namespace Stream

def feeding (slot : Nat) : Nat → Bool → Bool := fun other _ => other == slot

mutual
theorem subscriptions_eq_feeds (slot : Nat) :
    ∀ stream : Stream, stream.subscriptions slot = stream.feeds (feeding slot)
  | .feed other _ _ => by simp [subscriptions, feeds, feeding]
  | .ready _ _ => rfl
  | .over => rfl
  | .filter _ source => source.subscriptions_eq_feeds slot
  | .untilError _ source => source.subscriptions_eq_feeds slot
  | .merge _ branches => subscriptionsOfAll_eq_feedsOfAll slot branches
  | .hold _ source => source.subscriptions_eq_feeds slot
theorem subscriptionsOfAll_eq_feedsOfAll (slot : Nat) :
    ∀ branches : List Stream, subscriptionsOfAll slot branches = feedsOfAll (feeding slot) branches
  | [] => rfl
  | branch :: rest =>
    congrArg₂ (· + ·) (branch.subscriptions_eq_feeds slot) (subscriptionsOfAll_eq_feedsOfAll slot rest)
end

end Stream

namespace Plan

mutual
theorem subscriptions_start (lengths : Nat → Nat) (slot : Nat) :
    ∀ plan : Plan, (plan.start lengths).subscriptions slot = plan.buses.count slot
  | .bus other => by simp [start, Stream.ofBus, Stream.subscriptions, buses, List.count_singleton]
  | .entity other _ => by
    simp [start, Stream.ofEntity, Stream.upToError, Stream.subscriptions, buses, List.count_singleton]
  | .items _ => rfl
  | .transitions plan => plan.subscriptions_start lengths slot
  | .untilError plan => plan.subscriptions_start lengths slot
  | .merged plans => subscriptionsOfAll_startAll lengths slot plans
  | .held _ _ plan => plan.subscriptions_start lengths slot
theorem subscriptionsOfAll_startAll (lengths : Nat → Nat) (slot : Nat) : ∀ plans : List Plan,
    Stream.subscriptionsOfAll slot (startAll lengths plans) = (busesOfAll plans).count slot
  | [] => rfl
  | plan :: rest => by
    rw [startAll, Stream.subscriptionsOfAll, busesOfAll, List.count_append,
      plan.subscriptions_start lengths slot, subscriptionsOfAll_startAll lengths slot rest]
end

end Plan

namespace Stream

/-- A stream that has some number of subscriptions to a bus and keeps them as long as the bus is open. -/
structure Subscribes (slot amount : Nat) (stream : Stream) : Prop where
  kept : stream.Kept IsLeaf (feeding slot)
  amount : stream.subscriptions slot = amount

theorem subscribes_start (lengths : Nat → Nat) (slot : Nat) (plan : Plan) :
    (plan.start lengths).Subscribes slot (plan.subscriptions slot) :=
  ⟨.inl (plan.live_start lengths _),
    (plan.subscriptions_start lengths slot).trans (plan.count_buses slot)⟩

theorem Subscribes.poll {slot amount : Nat} {stream : Stream} (h : stream.Subscribes slot amount)
    {instant : Instant} (ho : instant.closed slot = false) (limit : Option Nat) :
    (stream.poll instant limit).2.2.Subscribes slot amount := by
  have hspares : Spares (feeding slot) instant.closed := fun other _ hfeeding =>
    eq_of_beq hfeeding ▸ ho
  obtain ⟨⟨hkept, hfeeds⟩, -⟩ :=
    h.kept.poll (runSteadily_isLeaf (feeding slot) instant.closed) (fun _ => hspares) limit
  refine ⟨hkept, ?_⟩
  rw [subscriptions_eq_feeds, hfeeds, ← subscriptions_eq_feeds, h.amount]

end Stream

-- ---------------------------------------------------------------------------
-- Sessions
-- ---------------------------------------------------------------------------

namespace Session

structure CountsSubscribers (session : Session) (plans : Table Plan) (slot : Nat) : Prop where
  count : session.subscriberCount slot =
    plans.total (fun plan => plan.bareFeeds.count slot) + plans.total (fun plan => plan.handles.count slot)
  /-- Nothing changes the count but opening and dropping. -/
  unchanged : ∀ pick action, (∀ name plan, action ≠ .subscribe name plan) →
    (∀ name, action ≠ .dropStream name) →
      (session.perform pick action).2.subscriberCount slot = session.subscriberCount slot
  /-- A stream that had the name before is dropped. -/
  opened : ∀ pick name plan, (∀ other ∈ plan.buses, (session.bus? other).isSome = true) →
    (session.perform pick (.subscribe name plan)).2.subscriberCount slot +
        ((plans.get? name).map (Plan.subscriptions slot)).getD 0 =
      session.subscriberCount slot + plan.subscriptions slot
  refused : ∀ pick name plan, (∃ other ∈ plan.buses, session.bus? other = none) →
    (session.perform pick (.subscribe name plan)).2.subscriberCount slot = session.subscriberCount slot
  /-- All branches are released at once. -/
  dropped : ∀ pick name, (session.perform pick (.dropStream name)).2.subscriberCount slot +
      ((plans.get? name).map (Plan.subscriptions slot)).getD 0 = session.subscriberCount slot

def Accounts (session : Session) (plans : Table Plan) (slot : Nat) : Prop :=
  session.OpenedFor (fun stream plan => stream.Subscribes slot (plan.subscriptions slot)) plans

section
variable {session : Session} {plans : Table Plan} {slot : Nat}

theorem subscriberCount_eq (session : Session) (slot : Nat) :
    session.subscriberCount slot = session.streams.total (Stream.subscriptions slot) := by
  have htotal : ∀ table : Table Stream, Stream.subscriptionsOfAll slot (table.map (·.2)) =
      table.total (Stream.subscriptions slot) := fun table => by
    induction table with
    | nil => rfl
    | cons entry rest ih => rw [List.map_cons, Stream.subscriptionsOfAll, ih, Table.total]
  exact htotal session.streams

theorem Accounts.count (h : session.Accounts plans slot) :
    session.subscriberCount slot = plans.total (Plan.subscriptions slot) :=
  (session.subscriberCount_eq slot).trans (h.paired.total_eq fun hs => hs.amount)

theorem isSome_bus?_iff : (session.bus? slot).isSome = true ↔
    ∃ entry, session.slots[slot]? = some entry ∧ entry.referenced = true := by
  unfold bus?
  cases session.slots[slot]? with
  | none => simp
  | some entry => cases hr : entry.referenced <;> simp [hr]

theorem isSome_bus?_of_performSteps {steps : List Step}
    (h : ((session.performSteps steps).bus? slot).isSome = true) :
    (session.bus? slot).isSome = true := by
  obtain ⟨last, hl, hlast⟩ := isSome_bus?_iff.1 h
  have hlt : slot < session.slots.length :=
    session.length_slots_performSteps steps ▸ (List.getElem?_eq_some_iff.1 hl).1
  have hs := List.getElem?_eq_getElem hlt
  obtain ⟨next, hn, hr⟩ := referenced_performSteps hs steps
  obtain rfl : last = next := Option.some.inj (hl.symm.trans hn)
  exact isSome_bus?_iff.2 ⟨_, hs, (hr.1 hlast).1⟩

theorem closed_eq_false_of_isSome (h : (session.bus? slot).isSome = true) :
    session.closed slot = false := by
  obtain ⟨entry, hs, hr⟩ := isSome_bus?_iff.1 h
  simp [closed, hs, hr]

theorem retains_subscribes (hb : (session.bus? slot).isSome = true) :
    session.Retains fun stream plan => stream.Subscribes slot (plan.subscriptions slot) where
  opened plan _ := Stream.subscribes_start _ slot plan
  polled _ _ _ _ hs _ limit := hs.poll (closed_eq_false_of_isSome hb) limit

theorem Accounts.perform (h : session.Accounts plans slot) (hb : (session.bus? slot).isSome = true)
    (pick : List Nat → Nat) (action : Action) :
    (session.perform pick action).2.Accounts (session.plansAfter plans action) slot :=
  OpenedFor.perform h (retains_subscribes hb) pick action

theorem Accounts.performSteps (h : session.Accounts plans slot) {steps : List Step}
    (hb : ((session.performSteps steps).bus? slot).isSome = true) :
    (session.performSteps steps).Accounts (session.openPlans plans steps) slot := by
  refine OpenedFor.performSteps h fun front hf => retains_subscribes ?_
  obtain ⟨back, rfl⟩ := hf
  rw [performSteps_append] at hb
  exact isSome_bus?_of_performSteps hb

theorem Accounts.counts (h : session.Accounts plans slot)
    (hb : (session.bus? slot).isSome = true) : session.CountsSubscribers plans slot where
  count := h.count.trans (Table.total_add _ _ plans)
  unchanged pick action hs hd := by
    have hplans : session.plansAfter plans action = plans := by
      cases action with
      | subscribe name plan => exact absurd rfl (hs name plan)
      | dropStream name => exact absurd rfl (hd name)
      | _ => rfl
    rw [(h.perform hb pick action).count, hplans, h.count]
  opened pick name plan hbuses := by
    have hplans : session.plansAfter plans (.subscribe name plan) = plans.insert name plan :=
      if_pos (List.all_eq_true.2 hbuses)
    rw [(h.perform hb pick _).count, hplans, h.count]
    exact Table.total_insert h.plansAscending name plan _
  refused pick name plan hmissing := by
    have hrefused : ¬ (plan.buses.all fun other => (session.bus? other).isSome) = true := by
      obtain ⟨other, hm, hnone⟩ := hmissing
      intro hall
      have hsome := List.all_eq_true.1 hall other hm
      rw [hnone] at hsome
      cases hsome
    rw [perform_subscribe, if_neg hrefused]
  dropped pick name := by
    rw [(h.perform hb pick _).count, h.count]
    exact Table.total_erase h.plansAscending name _

end

/-- In every session a bus that is still referred to has as many subscribers as the streams that are not
dropped were opened for. -/
theorem countsSubscribers_performSteps (buses : List Bus) (steps : List Step) (slot : Nat)
    (h : (((ofBuses buses).performSteps steps).bus? slot).isSome = true) :
    ((ofBuses buses).performSteps steps).CountsSubscribers ((ofBuses buses).openPlans [] steps) slot :=
  (Accounts.performSteps (openedFor_ofBuses buses _) h).counts h

def pairPlan : Plan :=
  .held (fun _ state => state.isSome) 0 (.entities [(0, "light.a"), (0, "light.b")])

def laggingSteps : List Step :=
  ([Action.subscribe "pair" pairPlan, .subscribe "all" (.bus 0)] ++ flicker ++
    [Action.advance 1, .poll "pair" none]).map (Step.mk fun _ => 0)

theorem countsSubscribers_laggingSteps :
    (((ofBuses [tightBus]).performSteps laggingSteps).bus? 0).isSome = true ∧
      (ofBuses [tightBus]).replies "pair" laggingSteps = [([.error (.bus (.lagged 1))], .ended)] ∧
      ((ofBuses [tightBus]).performSteps laggingSteps).subscriberCount 0 = 3 ∧
      (((ofBuses [tightBus]).performSteps laggingSteps).perform (fun _ => 0)
        (.dropStream "pair")).2.subscriberCount 0 = 1 := by
  have hb : (((ofBuses [tightBus]).performSteps laggingSteps).bus? 0).isSome = true := rfl
  have hplans : (ofBuses [tightBus]).openPlans [] laggingSteps =
      [("all", .bus 0), ("pair", pairPlan)] := rfl
  have hcounts := countsSubscribers_performSteps [tightBus] laggingSteps 0 hb
  rw [hplans] at hcounts
  have hcount := hcounts.count
  have hdropped := hcounts.dropped (fun _ => 0) "pair"
  refine ⟨hb, rfl, hcount, ?_⟩
  rw [hcount] at hdropped
  exact Nat.add_right_cancel hdropped

end Session

end HomeHub
