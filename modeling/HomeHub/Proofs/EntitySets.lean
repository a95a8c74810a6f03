import HomeHub.Proofs.Closing
import HomeHub.Proofs.FanIn
import HomeHub.Proofs.HeldTransitions
import HomeHub.Proofs.TransitionChain

/-!
# Sets of handles

The changes of several handles as one stream. A poll asks questions, so what holds of a merged stream
that is asked holds of one that is polled in a session: the changes of every handle are given in order and
as often as the handle is listed, until one of the branches has lagged.
-/

namespace HomeHub

-- ---------------------------------------------------------------------------
-- Polls as questions
-- ---------------------------------------------------------------------------

namespace Stream

/-- A reply to a poll that asks some questions: their items, and what the last of them was told. -/
structure IsReplyTo (answers : List Answer) (reply : List Item × PollStatus) : Prop where
  items : reply.1 = Answer.given answers
  waiting : reply.2 = .waiting → answers.getLast? = some .waiting
  ended : reply.2 = .ended → answers.getLast? = some .ended

theorem exists_isReplyTo (stream : Stream) (instant : Instant) (limit : Option Nat) :
    ∃ count, IsReplyTo ((stream.inside instant).replies count)
        ((stream.poll instant limit).1, (stream.poll instant limit).2.1) ∧
      (stream.poll instant limit).2.2 = ((stream.inside instant).behind count).state := by
  obtain ⟨count, status, htake, hwaiting, hended⟩ :=
    Run.exists_replies_take limit stream (stream.run instant)
  rw [poll, htake]
  exact ⟨count, ⟨rfl, hwaiting, hended⟩, rfl⟩

theorem exists_questions (stream : Stream) (polls : List (Instant × Option Nat)) :
    ∃ questions : List (Instant × Nat), questions.map Prod.fst = polls.map Prod.fst ∧
      List.Forall₂ IsReplyTo (stream.answers questions) (stream.replies polls) := by
  induction polls generalizing stream with
  | nil => exact ⟨[], rfl, .nil⟩
  | cons asked rest ih =>
    obtain ⟨instant, limit⟩ := asked
    obtain ⟨count, hreply, hnext⟩ := stream.exists_isReplyTo instant limit
    obtain ⟨questions, hinstants, hreplies⟩ := ih (stream.poll instant limit).2.2
    refine ⟨(instant, count) :: questions, congrArg _ hinstants, .cons hreply ?_⟩
    rw [← hnext]
    exact hreplies

end Stream

-- ---------------------------------------------------------------------------
-- Merges of branches that lag
-- ---------------------------------------------------------------------------

/-- A branch that lacks some of a whole if it has more for now or has lagged, and for no other reason. -/
structure Lane.Tells (lane : Lane) (whole : List Item) : Prop where
  lagged : ∀ error, .error error ∈ Answer.given lane.answers → ∃ skipped, error = .bus (.lagged skipped)
  ended : .ended ∈ lane.answers → ∃ skipped, .error (.bus (.lagged skipped)) ∈ Answer.given lane.answers
  waiting : lane.latest = some .waiting → Answer.given lane.answers = whole

namespace FanIn

variable {lanes : List Lane} {merged : Lane} {wholes : List (List Item)}

theorem ok_of_waiting (h : FanIn lanes merged) (hw : merged.latest = some .waiting) :
    ∀ error, .error error ∉ Answer.given merged.answers := by
  intro error hm
  obtain ⟨front, hfront⟩ := List.getLast?_eq_some_iff.1 (Lane.getLast?_answers hw)
  have hdropped : .item (.error error) ∈ merged.answers.dropLast := by
    rw [Answer.mem_given, hfront] at hm
    rw [hfront, List.dropLast_concat]
    simpa using hm
  exact Answer.noConfusion ((h.ends .waiting hw).2 (.inl ⟨error, hdropped⟩))

theorem lagged_of_ended (h : FanIn lanes merged) (ht : List.Forall₂ Lane.Tells lanes wholes) {lane : Lane}
    (hlane : lane ∈ lanes) (he : .ended ∈ lane.answers) :
    ∃ skipped, .error (.bus (.lagged skipped)) ∈ Answer.given merged.answers := by
  obtain ⟨whole, -, htells⟩ := exists_of_forall₂ ht.flip hlane
  obtain ⟨skipped, hm⟩ := htells.ended he
  exact ⟨skipped, h.interleaved.mem_iff.2 ⟨_, List.mem_map_of_mem hlane, hm⟩⟩

theorem interleaves_wholes (h : FanIn lanes merged) (ht : List.Forall₂ Lane.Tells lanes wholes)
    (hw : merged.latest = some .waiting) : Interleaves wholes (Answer.given merged.answers) := by
  have hwaiting : ∀ lane ∈ lanes, lane.latest = some .waiting := fun lane hlane => by
    refine (h.waiting hw lane hlane).resolve_left fun he => ?_
    obtain ⟨skipped, hm⟩ := h.lagged_of_ended ht hlane he
    exact h.ok_of_waiting hw _ hm
  have hwholes : lanes.map (fun lane => Answer.given lane.answers) = wholes := by
    rw [← List.forall₂_eq_eq_eq, List.forall₂_map_left_iff]
    exact (List.forall₂_and_left _ _).2 ⟨hwaiting, ht⟩ |>.imp fun _ _ both => both.2.waiting both.1
  exact hwholes ▸ h.interleaved

theorem exists_lagged (h : FanIn lanes merged) (ht : List.Forall₂ Lane.Tells lanes wholes)
    (he : merged.latest = some .ended) :
    lanes = [] ∨ ∃ skipped, .error (.bus (.lagged skipped)) ∈ Answer.given merged.answers := by
  rcases (h.ends .ended he).1 rfl with ⟨error, hm⟩ | hended
  · have hmerged := Answer.mem_given.2 (List.dropLast_subset _ hm)
    obtain ⟨share, hshare, hm⟩ := h.interleaved.mem_iff.1 hmerged
    obtain ⟨lane, hlane, rfl⟩ := List.mem_map.1 hshare
    obtain ⟨whole, -, htells⟩ := exists_of_forall₂ ht.flip hlane
    obtain ⟨skipped, rfl⟩ := htells.lagged error hm
    exact .inr ⟨skipped, hmerged⟩
  · cases lanes with
    | nil => exact .inl rfl
    | cons lane rest => exact .inr (h.lagged_of_ended ht List.mem_cons_self (hended lane List.mem_cons_self))

end FanIn

-- ---------------------------------------------------------------------------
-- Branches of handles
-- ---------------------------------------------------------------------------

theorem forall_stretchSteps {σ : Type} (keep : StateChange → Bool) (state : Nat → σ)
    (changes : List StateChange) (behind : Nat) :
    ∀ step ∈ stretchSteps keep state changes behind, ∃ item, step.1 = .item item :=
  List.forall_mem_map.2 fun _ _ => ⟨_, rfl⟩

namespace Reads

variable {slot start : Nat} {entityId : String} {published : List StateChange} {stream : Stream}
  {items : List Item}

section
variable (h : Reads slot start entityId published stream items) {instant : Instant} {bus : Bus}
  (hb : instant.buses[slot]? = some bus) (ho : instant.closed slot = false)
  {earlier : List StateChange} (hstart : earlier.length = start) (hlog : bus.log = earlier ++ published)
include h hb ho hstart hlog

/-- The stream of a handle never pauses. -/
theorem forall_steps : ∀ step ∈ (stream.run instant).steps, ∃ item, step.1 = .item item := by
  cases h with
  | lagged => simp [Stream.run]
  | @reading read hr =>
    by_cases hl : bus.lost (start + read) = 0
    · have hcursor : start + read ≤ bus.log.length := by
        rw [hlog, List.length_append]
        omega
      rw [Stream.run_ofEntity hb ho hcursor hl]
      dsimp only
      exact forall_stretchSteps _ _ _ _
    · obtain ⟨next, hrun⟩ := Stream.run_ofEntity_lagged entityId hb ho hl
      rw [hrun]
      exact List.forall_mem_singleton.2 ⟨_, rfl⟩

theorem ask (count : Nat) :
    Reads slot start entityId published ((stream.inside instant).behind count).state
        (items ++ Answer.given ((stream.inside instant).replies count)) ∧
      (((stream.inside instant).replies count).getLast? = some .waiting →
        items ++ Answer.given ((stream.inside instant).replies count) = ownItems entityId published) ∧
      (.ended ∈ (stream.inside instant).replies count → ∃ skipped, .error (.bus (.lagged skipped)) ∈
        items ++ Answer.given ((stream.inside instant).replies count)) := by
  obtain ⟨status, htake, hwaiting, hended⟩ :=
    Run.exists_take_eq_replies (h.forall_steps hb ho hstart hlog) stream count
  have hpoll : stream.poll instant (some count) = (Answer.given ((stream.inside instant).replies count),
      status, ((stream.inside instant).behind count).state) := htake
  have hreads := h.poll hb (fun _ => ho) hstart hlog (some count)
  have hstatus := h.status hb (fun _ => ho) hstart hlog (some count)
  rw [hpoll] at hreads hstatus
  exact ⟨hreads, fun hw => hstatus.1 (hwaiting hw), fun he => hstatus.2 (hended he)⟩

end

end Reads

inductive Sights (slot : Nat) (earlier : List StateChange) :
    List (Instant × Nat) → List StateChange → Prop where
  | start : Sights slot earlier [] []
  | asked {questions : List (Instant × Nat)} {published : List StateChange} {instant : Instant}
      {bus : Bus} (h : Sights slot earlier questions published)
      (hb : instant.buses[slot]? = some bus) (ho : instant.closed slot = false)
      (hlog : bus.log = earlier ++ published) (count : Nat) :
      Sights slot earlier (questions ++ [(instant, count)]) published
  | wrote {questions : List (Instant × Nat)} {published : List StateChange}
      (h : Sights slot earlier questions published) (more : List StateChange) :
      Sights slot earlier questions (published ++ more)

/-- The branch of a handle that is asked along with others. It ends only because it has lagged. -/
structure Recounts (lane : Lane) (slot start : Nat) (entityId : String)
    (published : List StateChange) : Prop where
  reads : Reads slot start entityId published lane.stream (Answer.given lane.answers)
  ended : .ended ∈ lane.answers → ∃ skipped, .error (.bus (.lagged skipped)) ∈ Answer.given lane.answers

namespace Recounts

variable {slot start : Nat} {entityId : String} {published : List StateChange}

theorem mono {lane : Lane} (h : Recounts lane slot start entityId published) (more : List StateChange) :
    Recounts lane slot start entityId (published ++ more) :=
  ⟨h.reads.mono more, h.ended⟩

theorem lagged {lane : Lane} (h : Recounts lane slot start entityId published) {error : HubError}
    (he : .error error ∈ Answer.given lane.answers) : ∃ skipped, error = .bus (.lagged skipped) := by
  obtain ⟨front, -, errors, -, hitems, herrors⟩ := h.reads.items_eq
  rw [hitems] at he
  have hm := (List.mem_append.1 he).resolve_left (error_notMem_ownItems error entityId front)
  rcases herrors with rfl | ⟨skipped, -, rfl⟩
  · cases hm
  · exact ⟨skipped, by simpa using hm⟩

/-- When an instant is over, a branch that has nothing for now has told all that was published. -/
theorem close (cursor : Cursor) (h : Recounts cursor.lane slot start entityId published) {bus : Bus}
    (hb : cursor.instant.buses[slot]? = some bus) (ho : cursor.instant.closed slot = false)
    {earlier : List StateChange} (hstart : earlier.length = start) (hlog : bus.log = earlier ++ published) :
    Recounts cursor.close slot start entityId published ∧
      (cursor.close.latest = some .waiting →
        Answer.given cursor.close.answers = ownItems entityId published) := by
  obtain ⟨hreads, hwaiting, hended⟩ := h.reads.ask hb ho hstart hlog cursor.count
  have hgiven : Answer.given cursor.close.answers = Answer.given cursor.lane.answers ++
      Answer.given ((cursor.lane.stream.inside cursor.instant).replies cursor.count) := by
    rw [Cursor.answers_close, Cursor.answers, Answer.given_append]
    rfl
  rw [← hgiven] at hreads hwaiting hended
  refine ⟨⟨cursor.stream_close ▸ hreads, fun he => ?_⟩, fun hw => hwaiting ?_⟩
  · rw [Cursor.answers_close, Cursor.answers, List.mem_append] at he
    rcases he with he | he
    · obtain ⟨skipped, hm⟩ := h.ended he
      exact ⟨skipped, hgiven ▸ List.mem_append_left _ hm⟩
    · exact hended he
  · rwa [Cursor.latest_close] at hw

end Recounts

namespace Sights

variable {slot : Nat} {earlier published : List StateChange} {questions : List (Instant × Nat)}

theorem recounts (h : Sights slot earlier questions published) (entityId : String)
    {own : List (Instant × Nat)} (hown : List.Forall₂ IsWithin own questions) :
    Recounts ⟨.ofEntity slot earlier.length entityId, own⟩ slot earlier.length entityId published := by
  induction h generalizing own with
  | start =>
    obtain rfl := List.forall₂_nil_right_iff.1 hown
    exact ⟨.reading (Nat.zero_le _), fun he => by cases he⟩
  | wrote _ more ih => exact (ih hown).mono more
  | asked _ hb ho hlog count ih =>
    obtain ⟨front, ⟨instant, count⟩, rfl, hfront, hlast⟩ := exists_concat_of_forall₂ hown
    exact (Recounts.close ⟨⟨_, front⟩, instant, count⟩ (ih hfront) (hlast.buses ▸ hb)
      (hlast.closed ▸ ho) rfl hlog).1

end Sights

-- ---------------------------------------------------------------------------
-- Merged streams of a session
-- ---------------------------------------------------------------------------

namespace Session

def log (session : Session) (slot : Nat) : List StateChange :=
  ((session.slots[slot]?).map (·.bus.log)).getD []

def publishedSince (session first : Session) (slot : Nat) : List StateChange :=
  (session.log slot).drop (first.log slot).length

section
variable {session later opened : Session} {slot : Nat} {entry : BusSlot}

theorem log_eq (h : session.slots[slot]? = some entry) : session.log slot = entry.bus.log := by
  rw [log, h]
  rfl

theorem logLength_eq_length (session : Session) (slot : Nat) :
    session.logLength slot = (session.log slot).length := by
  rw [logLength, log]
  cases session.slots[slot]? <;> rfl

theorem Grows.log (h : session.Grows later) (hs : slot < session.slots.length) :
    session.log slot <+: later.log slot := by
  have hfound := List.getElem?_eq_getElem hs
  obtain ⟨next, hnext, hprecedes⟩ := h slot _ hfound
  rw [log_eq hfound, log_eq hnext]
  exact hprecedes.log

theorem publishedSince_eq {published : List StateChange}
    (h : session.log slot = opened.log slot ++ published) :
    session.publishedSince opened slot = published := by
  rw [publishedSince, h, List.drop_left]

end

/-- A merged stream of handles, what it has replied since it was opened, and the questions that this
took. -/
structure Gathers (session opened : Session) (slots : List Nat) (name : String) (branches : List Stream)
    (replies : List (List Item × PollStatus)) (questions : List (Instant × Nat)) : Prop where
  held : session.IsHeldOpen slots name ((Stream.merged branches).behind questions)
  given : replies.flatMap (·.1) = Answer.given (Lane.answers ⟨.merged branches, questions⟩)
  sights : ∀ slot ∈ slots, ∃ published, session.log slot = opened.log slot ++ published ∧
    Sights slot (opened.log slot) questions published

namespace Gathers

variable {session opened : Session} {slots : List Nat} {name : String} {branches : List Stream}
  {replies : List (List Item × PollStatus)} {questions : List (Instant × Nat)}

/-- The bus of a handle in an instant of the session. -/
theorem exists_bus (h : session.Gathers opened slots name branches replies questions)
    (pick : List Nat → Nat) {slot : Nat} (hslot : slot ∈ slots) :
    ∃ bus, (session.instant pick).buses[slot]? = some bus ∧ bus.log = session.log slot := by
  have hfound := List.getElem?_eq_getElem (h.held.present slot hslot)
  exact ⟨_, buses_instant pick hfound, (log_eq hfound).symm⟩

theorem poll (h : session.Gathers opened slots name branches replies questions) (pick : List Nat → Nat)
    (limit : Option Nat) :
    ∃ count reply, (session.perform pick (.poll name limit)).1 = .polled reply.1 reply.2 ∧
      Stream.IsReplyTo
        (Cursor.replies ⟨⟨.merged branches, questions⟩, session.instant pick, count⟩) reply ∧
      (session.perform pick (.poll name limit)).2.Gathers opened slots name branches
        (replies ++ [reply]) (questions ++ [(session.instant pick, count)]) := by
  obtain ⟨count, hreply, hnext⟩ :=
    Stream.exists_isReplyTo ((Stream.merged branches).behind questions) (session.instant pick) limit
  have hkeeps : (Action.poll name limit).Keeps name := trivial
  obtain ⟨⟨next, hheld⟩, -⟩ := h.held.perform pick hkeeps
  rw [perform_poll pick limit h.held.named] at hheld ⊢
  refine ⟨count, _, rfl, hreply, ?_, ?_, fun slot hslot => ?_⟩
  · obtain rfl := Option.some.inj (hheld.named.symm.trans (Table.get?_insert_self ..))
    rw [Stream.behind_concat, ← hnext]
    exact hheld
  · rw [List.flatMap_append, h.given, List.flatMap_singleton, hreply.items, ← Answer.given_append]
    exact congrArg Answer.given (Cursor.answers_close ⟨⟨_, questions⟩, _, count⟩).symm
  · obtain ⟨published, hlog, hsights⟩ := h.sights slot hslot
    obtain ⟨bus, hb, hbus⟩ := h.exists_bus pick hslot
    exact ⟨published, hlog, hsights.asked hb (h.held.closed_eq_false slot hslot) (hbus.trans hlog) count⟩

theorem perform (h : session.Gathers opened slots name branches replies questions)
    (pick : List Nat → Nat) {action : Action} (hk : action.Keeps name) :
    ∃ asked, (session.perform pick action).2.Gathers opened slots name branches
      (replies ++ (reply? name action (session.perform pick action).1).toList) asked := by
  rcases hk.cases with hne | ⟨limit, rfl⟩
  · refine ⟨questions, ?_, ?_, fun slot hslot => ?_⟩
    · obtain ⟨⟨next, hheld⟩, -⟩ := h.held.perform pick hk
      have hsame := (get?_streams_perform pick session hne).trans h.held.named
      obtain rfl := Option.some.inj (hheld.named.symm.trans hsame)
      exact hheld
    · rw [reply?_eq_none hne, Option.toList_none, List.append_nil]
      exact h.given
    · obtain ⟨published, hlog, hsights⟩ := h.sights slot hslot
      obtain ⟨more, hmore⟩ := (perform_grows pick session action).log (h.held.present slot hslot)
      exact ⟨published ++ more, by rw [← hmore, hlog, List.append_assoc], hsights.wrote more⟩
  · obtain ⟨count, reply, hreply, -, hnext⟩ := h.poll pick limit
    rw [hreply]
    exact ⟨_, by simpa [reply?, Action.stream?] using hnext⟩

theorem performSteps (h : session.Gathers opened slots name branches replies questions)
    {steps : List Step} (hk : ∀ step ∈ steps, step.action.Keeps name) :
    ∃ asked, (session.performSteps steps).Gathers opened slots name branches
      (replies ++ session.replies name steps) asked := by
  refine performSteps_induction (motive := fun session replies =>
    ∃ asked, session.Gathers opened slots name branches replies asked) ?_ replies ⟨questions, h⟩ hk
  rintro session earlier step ha ⟨asked, h⟩
  exact h.perform step.pick ha

theorem recounts (h : session.Gathers opened slots name branches replies questions) {slot : Nat}
    (hslot : slot ∈ slots) (entityId : String) {own : List (Instant × Nat)}
    (hown : List.Forall₂ IsWithin own questions) :
    Recounts ⟨.ofEntity slot (opened.log slot).length entityId, own⟩ slot (opened.log slot).length
      entityId (session.publishedSince opened slot) := by
  obtain ⟨published, hlog, hsights⟩ := h.sights slot hslot
  rw [publishedSince_eq hlog]
  exact hsights.recounts entityId hown

theorem tells (h : session.Gathers opened slots name branches replies questions)
    (pick : List Nat → Nat) {count : Nat} {slot : Nat} (hslot : slot ∈ slots) (entityId : String)
    {lane : Lane} (hbranch : lane.branch = .ofEntity slot (opened.log slot).length entityId)
    (hown : List.Forall₂ IsWithin lane.questions (questions ++ [(session.instant pick, count)])) :
    lane.Tells (ownItems entityId (session.publishedSince opened slot)) := by
  obtain ⟨branch, own⟩ := lane
  obtain rfl : branch = _ := hbranch
  obtain ⟨front, ⟨instant, asked⟩, rfl, hfront, hlast⟩ := exists_concat_of_forall₂ hown
  obtain ⟨published, hlog, -⟩ := h.sights slot hslot
  obtain ⟨bus, hb, hbus⟩ := h.exists_bus pick hslot
  have hearlier := h.recounts hslot entityId hfront
  rw [publishedSince_eq hlog] at hearlier ⊢
  obtain ⟨hlane, hwaiting⟩ := hearlier.close ⟨⟨_, front⟩, instant, asked⟩ (hlast.buses ▸ hb)
    (hlast.closed ▸ h.held.closed_eq_false slot hslot) rfl (hbus.trans hlog)
  exact ⟨fun _ => hlane.lagged, hlane.ended, hwaiting⟩

end Gathers

end Session

-- ---------------------------------------------------------------------------
-- Sets of handles
-- ---------------------------------------------------------------------------

namespace Plan

theorem start_entities (lengths : Nat → Nat) (members : List (Nat × String)) :
    (entities members).start lengths =
      .merged (members.map fun member => .ofEntity member.1 (lengths member.1) member.2) := by
  rw [entities, start, startAll_eq, List.map_map]
  rfl

theorem buses_entities (members : List (Nat × String)) :
    (entities members).buses = members.map Prod.fst := by
  rw [entities, buses, busesOfAll_eq, List.flatMap_map, List.map_eq_flatMap]
  rfl

theorem ofHandles_entities (members : List (Nat × String)) : (entities members).OfHandles :=
  .merged (List.forall_mem_map.2 fun _ _ => .entity _ _)

end Plan

namespace Session

/-- What one of several handles contributes: its changes up to some place of what its bus published, and
perhaps the error that it has lagged. -/
def IsShare (entityId : String) (published : List StateChange) (items : List Item) : Prop :=
  ∃ (front back : List StateChange) (errors : List HubError), published = front ++ back ∧
    items = ownItems entityId front ++ errors.map .error ∧
    (errors = [] ∨ ∃ skipped, 0 < skipped ∧ errors = [.bus (.lagged skipped)])

def memberBranches (session : Session) (members : List (Nat × String)) : List Stream :=
  members.map fun member => .ofEntity member.1 (session.log member.1).length member.2

section
variable {session opened : Session} {name : String} {members : List (Nat × String)}
  {replies : List (List Item × PollStatus)} {questions : List (Instant × Nat)}

theorem gathers_subscribe (pick : List Nat → Nat) (name : String)
    (h : ∀ member ∈ members, (session.bus? member.1).isSome = true) :
    (session.perform pick (.subscribe name (.entities members))).2.Gathers
      (session.perform pick (.subscribe name (.entities members))).2 (members.map Prod.fst) name
      ((session.perform pick (.subscribe name (.entities members))).2.memberBranches members) [] [] := by
  have hbuses : ∀ slot ∈ (Plan.entities members).buses, (session.bus? slot).isSome = true := by
    rw [Plan.buses_entities]
    exact List.forall_mem_map.2 h
  have hholds := Stream.holds_start_of_handles (Plan.ofHandles_entities members) session.logLength
  have hnamed := get?_subscribe pick name hbuses
  rw [Plan.buses_entities] at hbuses hholds
  have hslots : (session.perform pick (.subscribe name (.entities members))).2.slots = session.slots :=
    (perform_stream pick session rfl).1
  have hbranches : (Plan.entities members).start session.logLength = .merged
      ((session.perform pick (.subscribe name (.entities members))).2.memberBranches members) := by
    simp only [Plan.start_entities, memberBranches, logLength_eq_length, log, hslots]
  rw [hbranches] at hnamed hholds
  refine ⟨⟨hnamed, hholds, fun slot hslot => ?_⟩, rfl, fun slot _ => ⟨[], (List.append_nil _).symm, .start⟩⟩
  rw [hslots]
  exact lt_length_of_bus? (hbuses slot hslot)

namespace Gathers

variable (h : session.Gathers opened (members.map Prod.fst) name (opened.memberBranches members) replies
  questions)
include h

/-- Up to now the polls have given an interleaving of what the handles contribute. -/
theorem exists_shares : ∃ shares, List.Forall₂ (fun member share =>
      IsShare member.2 (session.publishedSince opened member.1) share) members shares ∧
    Interleaves shares (replies.flatMap (·.1)) := by
  obtain ⟨lanes, hbranches, hwithin, hfan, -⟩ :=
    exists_fanIn (opened.memberBranches members) questions
  refine ⟨lanes.map fun lane => Answer.given lane.answers, ?_, h.given ▸ hfan.interleaved⟩
  refine List.forall₂_map_right_iff.2 (List.Forall₂.flip ((forall₂_of_map_eq hbranches).imp ?_))
  rintro ⟨branch, own⟩ member ⟨hlane, hmember, hbranch⟩
  obtain rfl : branch = _ := hbranch
  exact (h.recounts (List.mem_map_of_mem hmember) member.2 (hwithin _ hlane)).reads.items_eq

/-- A poll that waits leaves nothing out, and one that tells the end does so since a branch has lagged. -/
theorem exists_poll (pick : List Nat → Nat) (limit : Option Nat) :
    ∃ given status, (session.perform pick (.poll name limit)).1 = .polled given status ∧
      (status = .waiting → Interleaves
        (members.map fun member => ownItems member.2 (session.publishedSince opened member.1))
        (replies.flatMap (·.1) ++ given)) ∧
      (status = .ended → members = [] ∨
        ∃ skipped, .error (.bus (.lagged skipped)) ∈ replies.flatMap (·.1) ++ given) := by
  obtain ⟨count, ⟨given, status⟩, hpoll, hreply, hnext⟩ := h.poll pick limit
  obtain ⟨lanes, hbranches, hwithin, hfan, -⟩ := exists_fanIn (opened.memberBranches members)
    (questions ++ [(session.instant pick, count)])
  have hgiven : replies.flatMap (·.1) ++ given = Answer.given (Lane.answers
      ⟨.merged (opened.memberBranches members), questions ++ [(session.instant pick, count)]⟩) := by
    rw [← hnext.given, List.flatMap_append, List.flatMap_singleton]
  have hlatest := Cursor.latest_close
    ⟨⟨.merged (opened.memberBranches members), questions⟩, session.instant pick, count⟩
  have htells : List.Forall₂ Lane.Tells lanes
      (members.map fun member => ownItems member.2 (session.publishedSince opened member.1)) :=
    List.forall₂_map_right_iff.2 <|
      (forall₂_of_map_eq hbranches).imp fun lane member ⟨hlane, hmember, hbranch⟩ =>
        h.tells pick (List.mem_map_of_mem hmember) member.2 hbranch (hwithin lane hlane)
  refine ⟨given, status, hpoll, ?_⟩
  rw [hgiven]
  refine ⟨fun hw => ?_, fun he => ?_⟩
  · exact hfan.interleaves_wholes htells (hlatest.trans (hreply.waiting hw))
  · refine (hfan.exists_lagged htells (hlatest.trans (hreply.ended he))).imp_left fun hnil => ?_
    rw [hnil] at hbranches
    exact List.map_eq_nil_iff.1 hbranches.symm

end Gathers

end

/-- A merged stream neither loses nor invents nor reorders, whichever branches it chooses to ask. What it
gives are the items of its branches, each once and those of a branch in order. If it waits, every branch
waits or has ended. It ends behind the first error, and else just when all branches have ended. Polls of
a stream are questions of that kind. So a set of handles gives the changes of every handle up to some
place, as often as the handle is listed, and all of them if a poll waits for more. If a poll tells the
end, there was no handle or one has lagged. -/
theorem merge_keeps_branches :
    (∀ (branches : List Stream) (questions : List (Instant × Nat)),
      ∃ lanes : List Lane, lanes.map Lane.branch = branches ∧
        (∀ lane ∈ lanes, List.Forall₂ IsWithin lane.questions questions) ∧
        FanIn lanes ⟨.merged branches, questions⟩) ∧
    (∀ (stream : Stream) (polls : List (Instant × Option Nat)),
      ∃ questions : List (Instant × Nat), questions.map Prod.fst = polls.map Prod.fst ∧
        List.Forall₂ Stream.IsReplyTo (stream.answers questions) (stream.replies polls)) ∧
    ∀ (session : Session) (pick : List Nat → Nat) (name : String) (members : List (Nat × String))
      (steps : List Step), (∀ member ∈ members, (session.bus? member.1).isSome = true) →
      (∀ step ∈ steps, step.action.Keeps name) →
      let opened := (session.perform pick (.subscribe name (.entities members))).2
      let last := opened.performSteps steps
      let given := (opened.replies name steps).flatMap (·.1)
      let own (member : Nat × String) := ownItems member.2 (last.publishedSince opened member.1)
      (∃ shares, List.Forall₂ (fun member share =>
          IsShare member.2 (last.publishedSince opened member.1) share) members shares ∧
        Interleaves shares given) ∧
      ∀ choice limit, ∃ more status, (last.perform choice (.poll name limit)).1 = .polled more status ∧
        (status = .waiting → Interleaves (members.map own) (given ++ more) ∧
          ∀ handle, (given ++ more).Perm
            ((List.replicate (members.count handle) (own handle)).flatten ++
              (members.filter fun member => !(member == handle)).flatMap own)) ∧
        (status = .ended →
          members = [] ∨ ∃ skipped, .error (.bus (.lagged skipped)) ∈ given ++ more) := by
  refine ⟨fun branches questions => ?_, Stream.exists_questions, ?_⟩
  · obtain ⟨lanes, hbranches, hwithin, hfan, -⟩ := exists_fanIn branches questions
    exact ⟨lanes, hbranches, hwithin, hfan⟩
  · intro session pick name members steps hbuses keeps opened last given own
    obtain ⟨questions, hlast⟩ := (gathers_subscribe pick name hbuses).performSteps keeps
    rw [List.nil_append] at hlast
    refine ⟨hlast.exists_shares, fun choice limit => ?_⟩
    obtain ⟨more, status, hpoll, hwaiting, hended⟩ := hlast.exists_poll choice limit
    exact ⟨more, status, hpoll, fun hw => ⟨hwaiting hw, (hwaiting hw).perm_of_count⟩, hended⟩

def dimSteps : List Step :=
  [Action.setState 0 0 (flickering "on"), .poll "changes" (some 1),
    .setState 0 5 (flickering "off")].map (Step.mk fun _ => 1)

theorem merge_keeps_branches_lamp_twice :
    (∀ member ∈ [(0, "light.a"), (0, "light.a")], ((ofBuses [roomyBus]).bus? member.1).isSome = true) ∧
      (∀ step ∈ dimSteps, step.action.Keeps "changes") ∧
      let opened := ((ofBuses [roomyBus]).perform (fun _ => 0)
        (.subscribe "changes" (.entities [(0, "light.a"), (0, "light.a")]))).2
      let last := opened.performSteps dimSteps
      let given := (opened.replies "changes" dimSteps).flatMap (·.1)
      let own := ownItems "light.a" (last.publishedSince opened 0)
      ∃ more, (last.perform (fun _ => 1) (.poll "changes" none)).1 = .polled more .waiting ∧
        given.length = 1 ∧ own.length = 2 ∧ Interleaves [own, own] (given ++ more) ∧
        (given ++ more).Perm (own ++ own) := by
  have buses : ∀ member ∈ [(0, "light.a"), (0, "light.a")],
      ((ofBuses [roomyBus]).bus? member.1).isSome = true := by decide
  have keeps : ∀ step ∈ dimSteps, step.action.Keeps "changes" := by
    simp [dimSteps, Action.Keeps]
  refine ⟨buses, keeps, ?_⟩
  obtain ⟨-, polls⟩ := merge_keeps_branches.2.2 _ (fun _ => 0) "changes" _ dimSteps buses keeps
  obtain ⟨more, status, reply, waiting, -⟩ := polls (fun _ => 1) none
  have replied : ∃ items, ((((ofBuses [roomyBus]).perform (fun _ => 0)
      (.subscribe "changes" (.entities [(0, "light.a"), (0, "light.a")]))).2.performSteps
        dimSteps).perform (fun _ => 1) (.poll "changes" none)).1 = .polled items .waiting := ⟨_, rfl⟩
  obtain ⟨items, replied⟩ := replied
  obtain ⟨rfl, rfl⟩ := Outcome.polled.inj (reply.symm.trans replied)
  obtain ⟨interleaved, listed⟩ := waiting rfl
  exact ⟨_, reply, rfl, rfl, interleaved, by simpa using listed (0, "light.a")⟩

end Session

end HomeHub
