import HomeHub.Proofs.Ownership

/-!
# Bare feeds of closed buses

A feed that reads a bus without owners has what is unread, what is lost being reported in front, and
behind that the one item that tells that the bus is closed. Its polls deal this out from the front, as
many items as they ask for, and tell the end to whoever asks for more.
-/

namespace HomeHub

-- ---------------------------------------------------------------------------
-- What is unread
-- ---------------------------------------------------------------------------

namespace Bus

variable {bus later : Bus}

theorem read_congr (hc : later.capacity = bus.capacity) (hl : later.log = bus.log) (cursor : Nat) :
    later.read cursor = bus.read cursor := by
  have hwindow : later.window = bus.window := by rw [window, hc, window]
  have hlost : later.lost cursor = bus.lost cursor := by rw [lost, hl, hwindow, lost]
  rw [read, hlost, hl, read]

theorem read_of_read_eq_cons {cursor behind : Nat} {item : Except BusError StateChange}
    {rest : List (Except BusError StateChange × Nat)}
    (h : bus.read cursor = (item, behind) :: rest) : bus.read behind = rest := by
  by_cases hl : bus.lost cursor = 0
  · have hnext : bus.lost (cursor + 1) = 0 := by
      unfold lost at hl ⊢
      omega
    simp only [read, hl, if_true, Nat.add_zero] at h
    cases hdrop : bus.log.drop cursor with
    | nil => simp [hdrop] at h
    | cons change more =>
      have hmore : bus.log.drop (cursor + 1) = more := by
        rw [← List.drop_drop, hdrop, List.drop_one, List.tail_cons]
      rw [hdrop, List.zipIdx_cons, List.map_cons] at h
      cases h
      simp only [read, hnext, if_true, Nat.add_zero, hmore]
  · have hnext : bus.lost (cursor + bus.lost cursor) = 0 := by
      unfold lost at hl ⊢
      omega
    simp only [read, hl, if_false] at h
    cases h
    simp only [read, hnext, if_true, Nat.add_zero]

def unread (bus : Bus) (cursor : Nat) : List Item :=
  (bus.read cursor).map fun (item, _) => item.mapError HubError.bus

theorem closed_notMem_unread (bus : Bus) (cursor : Nat) : .error (.bus .closed) ∉ bus.unread cursor := by
  intro hm
  obtain ⟨⟨item, behind⟩, hread, heq⟩ := List.mem_map.1 hm
  cases item with
  | ok change => simp [Except.mapError] at heq
  | error error =>
    obtain rfl : error = .closed := by simpa [Except.mapError] using heq
    exact Stream.ne_closed_of_mem_read hread rfl

end Bus

-- ---------------------------------------------------------------------------
-- Dealing
-- ---------------------------------------------------------------------------

/-- What a poll is given of items behind which there is the end, and what is left of them. -/
def deal (left : List Item) : Option Nat → (List Item × PollStatus) × List Item
  | none => ((left, .ended), [])
  | some count =>
    if count ≤ left.length then ((left.take count, .full), left.drop count) else ((left, .ended), [])

def deals : List Item → List (Option Nat) → List (List Item × PollStatus)
  | _, [] => []
  | left, limit :: limits => (deal left limit).1 :: deals (deal left limit).2 limits

theorem deal_zero (left : List Item) : deal left (some 0) = (([], .full), left) := by
  simp [deal]

section
variable {limit : Option Nat} (hl : limit ≠ some 0)
include hl

theorem deal_nil : deal [] limit = (([], .ended), []) := by
  cases limit with
  | none => rfl
  | some count =>
    have hpos : ¬count ≤ 0 := fun h => hl (congrArg some (Nat.le_zero.1 h))
    simp [deal, hpos]

theorem deal_cons (item : Item) (left : List Item) :
    deal (item :: left) limit = ((item :: (deal left (limit.map (· - 1))).1.1,
      (deal left (limit.map (· - 1))).1.2), (deal left (limit.map (· - 1))).2) := by
  cases limit with
  | none => rfl
  | some count =>
    cases count with
    | zero => exact (hl rfl).elim
    | succ count =>
      by_cases h : count ≤ left.length <;> simp [deal, h]

end

theorem deal_append (left : List Item) (limit : Option Nat) :
    (deal left limit).1.1 ++ (deal left limit).2 = left := by
  cases limit with
  | none => exact List.append_nil left
  | some count =>
    by_cases h : count ≤ left.length <;> simp [deal, h]

-- ---------------------------------------------------------------------------
-- Polls
-- ---------------------------------------------------------------------------

namespace Stream

inductive Drains (bus : Bus) (slot : Nat) : Stream → List Item → Prop where
  | feed (cursor : Nat) :
      Drains bus slot (.feed slot false cursor) (bus.unread cursor ++ [.error (.bus .closed)])
  | spent : Drains bus slot .over []

section
variable {bus : Bus} {slot cursor : Nat} {stream : Stream} {left : List Item} {instant : Instant}

theorem Drains.congr {later : Bus} (h : stream.Drains bus slot left)
    (hc : later.capacity = bus.capacity) (hl : later.log = bus.log) :
    stream.Drains later slot left := by
  cases h with
  | spent => exact .spent
  | feed cursor =>
    have hunread : later.unread cursor = bus.unread cursor := by
      rw [Bus.unread, Bus.read_congr hc hl, Bus.unread]
    rw [← hunread]
    exact .feed cursor

theorem takeSteps_read {entries : List (Except BusError StateChange × Nat)}
    (h : bus.read cursor = entries) (limit : Option Nat) :
    ∃ next, Run.takeSteps true .over limit (.feed slot false cursor)
        (entries.map (fun (item, behind) =>
            (Beat.item (item.mapError HubError.bus), Stream.feed slot false behind)) ++
          [(.item (.error (.bus .closed)), .over)]) =
        ((deal (bus.unread cursor ++ [.error (.bus .closed)]) limit).1.1,
          (deal (bus.unread cursor ++ [.error (.bus .closed)]) limit).1.2, next) ∧
      next.Drains bus slot (deal (bus.unread cursor ++ [.error (.bus .closed)]) limit).2 := by
  -- behind each item stands a feed that has the rest unread
  induction entries generalizing cursor limit with
  | nil =>
    have hunread : bus.unread cursor = [] := by rw [Bus.unread, h, List.map_nil]
    by_cases hl : limit = some 0
    · rw [hl, Run.takeSteps_zero, deal_zero]
      exact ⟨_, rfl, .feed cursor⟩
    · rw [hunread, List.map_nil, List.nil_append, Run.takeSteps_item hl, List.nil_append, deal_cons hl]
      by_cases hn : limit.map (· - 1) = some 0
      · rw [hn, Run.takeSteps_zero, deal_zero]
        exact ⟨_, rfl, .spent⟩
      · rw [Run.takeSteps_nil hn, deal_nil hn]
        exact ⟨_, rfl, .spent⟩
  | cons entry rest ih =>
    obtain ⟨item, behind⟩ := entry
    have hrest := Bus.read_of_read_eq_cons h
    have hunread : bus.unread cursor = item.mapError HubError.bus :: bus.unread behind := by
      rw [Bus.unread, h, List.map_cons, Bus.unread, hrest]
    by_cases hl : limit = some 0
    · rw [hl, Run.takeSteps_zero, deal_zero]
      exact ⟨_, rfl, .feed cursor⟩
    · obtain ⟨next, htake, hdrains⟩ := ih hrest (limit.map (· - 1))
      rw [hunread, List.map_cons, List.cons_append, Run.takeSteps_item hl, List.cons_append,
        deal_cons hl, htake]
      exact ⟨next, rfl, hdrains⟩

/-- A poll is dealt what it asks for. -/
theorem Drains.poll (h : stream.Drains bus slot left) (hb : instant.buses[slot]? = some bus)
    (hc : instant.closed slot = true) (limit : Option Nat) :
    ∃ next, stream.poll instant limit = ((deal left limit).1.1, (deal left limit).1.2, next) ∧
      next.Drains bus slot (deal left limit).2 := by
  cases h with
  | feed cursor =>
    have hrun : (Stream.feed slot false cursor).run instant =
        ⟨(bus.read cursor).map (fun (item, behind) =>
            (Beat.item (item.mapError HubError.bus), Stream.feed slot false behind)) ++
          [(.item (.error (.bus .closed)), .over)], .over, true⟩ := by
      simp only [Stream.run, feedRun, hb, hc, Option.map_some, Option.getD_some, if_true]
      rfl
    rw [Stream.poll, hrun]
    exact takeSteps_read rfl limit
  | spent =>
    by_cases hl : limit = some 0
    · rw [hl, poll_zero, deal_zero]
      exact ⟨_, rfl, .spent⟩
    · rw [deal_nil hl]
      exact ⟨.over, Run.takeSteps_nil hl .., .spent⟩

theorem takeSteps_read_waiting (rest start : Stream)
    (entries : List (Except BusError StateChange × Nat)) :
    (Run.takeSteps false rest none start (entries.map fun (item, behind) =>
        (Beat.item (item.mapError HubError.bus), Stream.feed slot false behind))) =
      (entries.map fun (item, _) => item.mapError HubError.bus, .waiting, rest) := by
  induction entries generalizing start with
  | nil => rfl
  | cons entry entries ih =>
    rw [List.map_cons, Run.takeSteps_item (by simp), Option.map_none, ih]
    rfl

theorem poll_feed_open (hb : instant.buses[slot]? = some bus) (hc : instant.closed slot = false)
    (cursor : Nat) : ∃ next,
      (Stream.feed slot false cursor).poll instant none = (bus.unread cursor, .waiting, next) := by
  simp only [Stream.poll, Stream.run, feedRun, hb, hc, Option.map_some, Option.getD_some,
    Bool.false_eq_true, if_false]
  exact ⟨_, takeSteps_read_waiting _ _ _⟩

theorem poll_over (instant : Instant) (limit : Option Nat) :
    ∃ status, Stream.over.poll instant limit = ([], status, .over) := by
  by_cases hl : limit = some 0
  · exact ⟨.full, hl ▸ poll_zero instant .over⟩
  · exact ⟨.ended, Run.takeSteps_nil hl ..⟩

/-- A poll of a bare feed tells that the bus is closed only if it is, and then behind all that was
unread; else the feed goes on. -/
theorem poll_feed (hb : instant.buses[slot]? = some bus) (cursor : Nat) (limit : Option Nat) :
    (∃ behind, ((Stream.feed slot false cursor).poll instant limit).2.2 = .feed slot false behind ∧
      .error (.bus .closed) ∉ ((Stream.feed slot false cursor).poll instant limit).1) ∨
    instant.closed slot = true ∧ ((Stream.feed slot false cursor).poll instant limit).2.2 = .over ∧
      ((Stream.feed slot false cursor).poll instant limit).1 =
        bus.unread cursor ++ [.error (.bus .closed)] := by
  cases hc : instant.closed slot with
  | true =>
    have hfeed : (Stream.feed slot false cursor).Drains bus slot _ := .feed cursor
    obtain ⟨next, hpoll, hnext⟩ := hfeed.poll hb hc limit
    have happend := deal_append (bus.unread cursor ++ [.error (.bus .closed)]) limit
    rw [hpoll]
    generalize deal (bus.unread cursor ++ [.error (.bus .closed)]) limit = dealt at hnext happend
    obtain ⟨⟨items, status⟩, rest⟩ := dealt
    cases hnext with
    | feed behind =>
      have hitems : items ++ bus.unread behind = bus.unread cursor :=
        List.append_cancel_right ((List.append_assoc ..).trans happend)
      refine .inl ⟨behind, rfl, fun hm => bus.closed_notMem_unread cursor ?_⟩
      rw [← hitems]
      exact List.mem_append_left _ hm
    | spent => exact .inr ⟨rfl, rfl, (List.append_nil items).symm.trans happend⟩
  | false =>
    have hsteady : ((Stream.feed slot false cursor).run instant).Steady
        (fun next => ∃ behind, next = .feed slot false behind)
        (fun next => ∃ behind, next = .feed slot false behind) (· ≠ .bus .closed) True := by
      refine steady_feedRun (fun behind => ⟨behind, rfl⟩) (fun _ => id) fun hclosed => ?_
      rw [hc] at hclosed
      exact absurd hclosed Bool.false_ne_true
    obtain ⟨⟨behind, hnext⟩, herrors⟩ := hsteady.take (fun _ => id) ⟨cursor, rfl⟩ limit
    exact .inl ⟨behind, hnext, fun hm => herrors _ hm rfl⟩

/-- A bare feed and what it has given since it was opened. It goes on, or it has told last that its bus
is closed, which it is. -/
inductive HasTold (slot : Nat) (closed : Bool) : Stream → List Item → Prop where
  | feed (cursor : Nat) {given : List Item} (hg : .error (.bus .closed) ∉ given) :
      HasTold slot closed (.feed slot false cursor) given
  | told {earlier : List Item} (hc : closed = true) (hg : .error (.bus .closed) ∉ earlier) :
      HasTold slot closed .over (earlier ++ [.error (.bus .closed)])

theorem HasTold.mono {closed later : Bool} {given : List Item} (h : stream.HasTold slot closed given)
    (hc : closed = true → later = true) : stream.HasTold slot later given := by
  cases h with
  | feed cursor hg => exact .feed cursor hg
  | told hclosed hg => exact .told (hc hclosed) hg

theorem HasTold.poll {given : List Item} (h : stream.HasTold slot (instant.closed slot) given)
    (hb : instant.buses[slot]? = some bus) (limit : Option Nat) :
    (stream.poll instant limit).2.2.HasTold slot (instant.closed slot)
      (given ++ (stream.poll instant limit).1) := by
  cases h with
  | feed cursor hg =>
    rcases poll_feed hb cursor limit with ⟨behind, hnext, hm⟩ | ⟨hc, hnext, hitems⟩
    · rw [hnext]
      exact .feed behind fun hmem => (List.mem_append.1 hmem).elim hg hm
    · rw [hnext, hitems, ← List.append_assoc]
      refine .told hc fun hmem => ?_
      exact (List.mem_append.1 hmem).elim hg (bus.closed_notMem_unread cursor)
  | told hc hg =>
    obtain ⟨status, hpoll⟩ := poll_over instant limit
    rw [hpoll, List.append_nil]
    exact .told hc hg

theorem HasTold.closed_notMem {given : List Item} (h : stream.HasTold slot false given) :
    .error (.bus .closed) ∉ given := by
  cases h with
  | feed cursor hg => exact hg
  | told hc => exact absurd hc Bool.false_ne_true

end

end Stream

end HomeHub
