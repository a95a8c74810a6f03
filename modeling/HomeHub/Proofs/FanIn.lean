import HomeHub.Proofs.Lanes
import Mathlib.Data.List.Induction

/-!
# Fan-in

A merged stream passes questions on to its branches. What it is told it gives, each item once and those
of a branch in order, whichever branches it chooses to ask; it says that there is nothing for now only if
all its branches said so, and ends behind an error and when all its branches have ended.
-/

namespace HomeHub

-- ---------------------------------------------------------------------------
-- Merges in an instant
-- ---------------------------------------------------------------------------

def Stream.stopped (stream : Stream) (ended : Bool) : Branch Stream := ⟨stream, ⟨[], stream, ended⟩⟩

def mergeOf (done : Bool) (branches : List (Branch Stream)) : Stream :=
  .merge done (branches.map Branch.state)

/-- A merged stream that goes on asking the branches that are left, or has found all of them resting. -/
inductive Weaves (cursors : List Cursor) : Branch Stream → Prop where
  | going {left : List (Branch Stream)} (hk : cursors.filterMap Cursor.kept? = left)
      (pick : Nat → Nat) {fuel : Nat} (hf : Branch.size left < fuel) (count : Nat) :
      Weaves cursors ⟨mergeOf false left, (Branch.runAll pick fuel count left).untilError.map
        fun (done, branches) => .merge done branches⟩
  | idle {left : List (Branch Stream)} (hk : cursors.filterMap Cursor.kept? = left)
      (h : ∀ cursor ∈ cursors, cursor.IsResting) :
      Weaves cursors ((mergeOf left.isEmpty left).stopped left.isEmpty)

theorem Branch.untilError_cons {σ τ : Type} {beat : Beat} (hb : ∀ error, beat ≠ .item (.error error))
    (first : τ) (f : Bool × σ → τ) (state : σ) (run : Run σ) :
    (Branch.mk first ((run.cons beat state).untilError.map f)).reply = beat.answer ∧
      (Branch.mk first ((run.cons beat state).untilError.map f)).next =
        ⟨f (false, state), run.untilError.map f⟩ := by
  rw [Run.untilError_cons hb]
  exact ⟨rfl, rfl⟩

theorem Stream.reply_stopped (stream : Stream) (ended : Bool) :
    (stream.stopped ended).reply = if ended then .ended else .waiting := rfl

theorem Stream.next_stopped (stream : Stream) (ended : Bool) :
    (stream.stopped ended).next = stream.stopped ended := rfl

/-- A merged stream that is asked, and what is left of its branches then. It goes on, and tells the end
just if none is left, or it tells an error and is over. -/
inductive Woven (cursors : List Cursor) (left : List (Branch Stream)) (branch : Branch Stream) : Prop where
  | going (ended : branch.reply = .ended ↔ left = [])
      (ok : ∀ error, branch.reply ≠ .item (.error error)) (h : Weaves cursors branch.next)
  | failed (hl : left ≠ []) (error : HubError) (branches : List Stream)
      (hr : branch.reply = .item (.error error))
      (hn : branch.next = (Stream.merge true branches).stopped true)

namespace Weaves

variable {cursors : List Cursor} {live : List (Branch Stream)}

theorem ask_idle (hk : cursors.filterMap Cursor.kept? = live) (h : ∀ cursor ∈ cursors, cursor.IsResting) :
    ∃ outcomes left,
      Outcomes cursors ((mergeOf live.isEmpty live).stopped live.isEmpty).reply.items left outcomes ∧
        Woven (outcomes.map Prod.snd) left ((mergeOf live.isEmpty live).stopped live.isEmpty) := by
  have hitems : ((mergeOf live.isEmpty live).stopped live.isEmpty).reply.items = [] := by
    cases live <;> rfl
  refine ⟨cursors.map ([], ·), live, hitems ▸ .passed hk h, .going ?_ ?_ ?_⟩
  · cases live <;> simp [Stream.reply_stopped]
  · cases live <;> simp [Stream.reply_stopped]
  · rw [Outcomes.map_snd_passed]
    exact .idle hk h

theorem ask_going (hk : cursors.filterMap Cursor.kept? = live) (pick : Nat → Nat) {fuel : Nat}
    (hf : Branch.size live < fuel + 1) (count : Nat) {branch : Branch Stream}
    (hb : branch = ⟨mergeOf false live, (Branch.runAll pick (fuel + 1) count live).untilError.map
      fun (done, branches) => .merge done branches⟩) :
    ∃ outcomes left, Outcomes cursors branch.reply.items left outcomes ∧
      Woven (outcomes.map Prod.snd) left branch := by
  have hsize := @Branch.size_askFrom _ (pick count % live.length) live
  have hleft := @Branch.askFrom_ne_nil _ (pick count % live.length) live
  obtain ⟨outcomes, ho⟩ := Outcomes.exists_askFrom cursors (pick count % live.length)
  rw [hk] at ho
  rw [Branch.runAll] at hb
  generalize Branch.askFrom (pick count % live.length) live = asked at hsize hleft ho hb
  obtain ⟨beat, left⟩ := asked
  refine ⟨outcomes, left, ?_⟩
  cases beat with
  | none =>
    -- all that are left are resting now
    have hreply : branch.reply = if left.isEmpty then .ended else .waiting := hb ▸ rfl
    have hnext : branch.next = (mergeOf left.isEmpty left).stopped left.isEmpty := hb ▸ rfl
    rw [hreply]
    refine ⟨?_, .going ?_ ?_ ?_⟩
    · cases left <;> exact ho
    · rw [hreply]
      cases left <;> simp
    · rw [hreply]
      cases left <;> simp
    · rw [hnext]
      exact .idle ho.kept (List.forall_mem_map.2 (ho.resting rfl))
  | some beat =>
    by_cases herror : ∃ error, beat = .item (.error error)
    · obtain ⟨error, rfl⟩ := herror
      obtain rfl := hb
      exact ⟨ho, .failed (hleft rfl) error (left.map Branch.state) rfl rfl⟩
    · have hne : ∀ error, beat ≠ .item (.error error) := fun error heq => herror ⟨error, heq⟩
      have hlt : Branch.size left < fuel := Nat.lt_of_lt_of_le (hsize rfl) (Nat.le_of_lt_succ hf)
      obtain ⟨hreply, hnext⟩ := Branch.untilError_cons hne (mergeOf false live)
        (fun (done, branches) => Stream.merge done branches) (left.map Branch.state)
        (Branch.runAll pick fuel (count + 1) left)
      dsimp only at hb
      rw [← hb] at hreply hnext
      rw [hreply]
      refine ⟨?_, .going ?_ (fun error => ?_) (hnext ▸ .going ho.kept pick hlt (count + 1))⟩
      · cases beat <;> exact ho
      · rw [hreply]
        cases beat <;> simp [Beat.answer, hleft rfl]
      · rw [hreply]
        cases beat with
        | item item => exact fun heq => hne error (congrArg _ (Answer.item.inj heq))
        | pause => simp [Beat.answer]

theorem ask {branch : Branch Stream} (h : Weaves cursors branch) :
    ∃ outcomes left, Outcomes cursors branch.reply.items left outcomes ∧
      Woven (outcomes.map Prod.snd) left branch := by
  cases h with
  | idle hk h => exact ask_idle hk h
  | @going live hk pick fuel hf count =>
    cases fuel with
    | zero => exact absurd hf (Nat.not_lt_zero _)
    | succ fuel => exact ask_going hk pick hf count rfl

end Weaves

structure IsGoing (cursors : List Cursor) (merged : Cursor) : Prop where
  ok : ∀ error, .item (.error error) ∉ merged.answers
  weaves : Weaves cursors merged.position
  resting : merged.replies.getLast? = some .waiting → ∀ cursor ∈ cursors, cursor.IsResting
  ended : ∀ answer, merged.replies.getLast? = some answer →
    (answer = .ended ↔ ∀ cursor ∈ cursors, .ended ∈ cursor.answers)

def HasFailed (answers : List Answer) : Prop :=
  ∃ front error count, answers = front ++ .item (.error error) :: List.replicate count .ended ∧
    ∀ other, .item (.error other) ∉ front

theorem HasFailed.last {answers : List Answer} (h : HasFailed answers) {answer : Answer}
    (ha : answers.getLast? = some answer) : answer ≠ .waiting ∧
      (answer = .ended ↔ ∃ error, .item (.error error) ∈ answers.dropLast) := by
  obtain ⟨front, error, count, rfl, hfront⟩ := h
  cases count with
  | zero =>
    rw [List.replicate_zero] at ha ⊢
    rw [List.getLast?_concat] at ha
    rw [List.dropLast_concat, ← Option.some.inj ha]
    exact ⟨by simp, iff_of_false (by simp) fun ⟨other, hm⟩ => hfront other hm⟩
  | succ count =>
    rw [List.replicate_succ', ← List.cons_append, ← List.append_assoc] at ha ⊢
    rw [List.getLast?_concat] at ha
    rw [List.dropLast_concat, ← Option.some.inj ha]
    exact ⟨by simp, iff_of_true rfl ⟨error, by simp⟩⟩

structure Merging (cursors : List Cursor) (merged : Cursor) : Prop where
  asked : ∀ cursor ∈ cursors, cursor.count ≤ merged.count
  interleaved : Interleaves (cursors.map fun cursor => Answer.given cursor.answers)
    (Answer.given merged.answers)
  once : ∀ cursor ∈ cursors, .ended ∉ cursor.answers.dropLast
  state : IsGoing cursors merged ∨
    HasFailed merged.answers ∧ (∃ cursor ∈ cursors, .ended ∉ cursor.answers) ∧
      ∃ branches, merged.position = (Stream.merge true branches).stopped true

namespace Merging

variable {cursors : List Cursor} {merged : Cursor} {left : List (Branch Stream)}
  {outcomes : List (List Answer × Cursor)} {items : List Item}

theorem kept_eq_nil (hk : cursors.filterMap Cursor.kept? = left) :
    left = [] ↔ ∀ cursor ∈ cursors, .ended ∈ cursor.answers := by
  rw [← hk, List.filterMap_eq_nil_iff]
  exact forall₂_congr fun cursor _ => Cursor.kept?_eq_none

theorem given_outcomes (h : List.Forall₂ Cursor.Goes cursors outcomes) :
    (outcomes.map Prod.snd).map (fun cursor => Answer.given cursor.answers) =
      List.zipWith (· ++ ·) (cursors.map fun cursor => Answer.given cursor.answers)
        (outcomes.map fun outcome => Answer.given outcome.1) := by
  induction h with
  | nil => rfl
  | cons h _ ih =>
    rw [List.map_cons, List.map_cons, ih, h.answers, Answer.given_append]
    rfl

theorem asked_outcomes (h : List.Forall₂ Cursor.Goes cursors outcomes) {limit : Nat}
    (hc : ∀ cursor ∈ cursors, cursor.count ≤ limit) :
    ∀ cursor ∈ outcomes.map Prod.snd, cursor.count ≤ limit + 1 := by
  refine List.forall_mem_map.2 fun outcome hm => ?_
  obtain ⟨cursor, hmem, hgoes⟩ := exists_of_forall₂ h hm
  have hle := hc cursor hmem
  cases hgoes with
  | passed => exact Nat.le_succ_of_le hle
  | asked => exact Nat.succ_le_succ hle

theorem once_outcomes (h : List.Forall₂ Cursor.Goes cursors outcomes)
    (hc : ∀ cursor ∈ cursors, .ended ∉ cursor.answers.dropLast) :
    ∀ cursor ∈ outcomes.map Prod.snd, .ended ∉ cursor.answers.dropLast := by
  refine List.forall_mem_map.2 fun outcome hm => ?_
  obtain ⟨cursor, hmem, hgoes⟩ := exists_of_forall₂ h hm
  cases hgoes with
  | passed => exact hc cursor hmem
  | asked hk =>
    rw [Cursor.answers_ask, List.dropLast_concat]
    exact (Cursor.kept?_eq_some.1 hk).1

theorem origin_outcomes (h : List.Forall₂ Cursor.Goes cursors outcomes) :
    (outcomes.map Prod.snd).map Cursor.origin = cursors.map Cursor.origin := by
  induction h with
  | nil => rfl
  | cons h _ ih =>
    have horigin := h.origin
    rw [List.map_cons, List.map_cons, List.map_cons, ih, horigin]

theorem ask (h : Merging cursors merged) :
    ∃ next, next.map Cursor.origin = cursors.map Cursor.origin ∧ Merging next merged.ask := by
  have hitems (reply : Answer) : Answer.given [reply] = reply.items := by simp [Answer.given]
  have hlast : merged.ask.replies.getLast? = some merged.position.reply := List.getLast?_concat
  obtain ⟨hasked, hinter, honce, hgoing | ⟨⟨front, error, count, hanswers, hfront⟩, hopen, branches, hover⟩⟩ := h
  · obtain ⟨outcomes, left, ho, hcases⟩ := hgoing.weaves.ask
    refine ⟨outcomes.map Prod.snd, origin_outcomes ho.goes, asked_outcomes ho.goes hasked, ?_,
      once_outcomes ho.goes honce, ?_⟩
    · rw [given_outcomes ho.goes, Cursor.answers_ask, Answer.given_append, hitems]
      refine hinter.append ho.interleaved ?_
      rw [List.length_map, List.length_map, ho.goes.length_eq]
    · rcases hcases with ⟨hend, hok, hweaves⟩ | ⟨hleft, error, branches, herror, hnext⟩
      · refine .inl ⟨fun error => ?_, hweaves, fun hw => ?_, fun answer ha => ?_⟩
        · rw [Cursor.answers_ask, List.mem_append, List.mem_singleton]
          exact fun hm => hm.elim (hgoing.ok error) fun heq => hok error heq.symm
        · have hreply := Option.some.inj (hlast.symm.trans hw)
          exact List.forall_mem_map.2 (ho.resting (by rw [hreply]; rfl))
        · obtain rfl := Option.some.inj (hlast.symm.trans ha)
          rw [hend, kept_eq_nil ho.kept]
      · refine .inr ⟨⟨merged.answers, error, 0, ?_, hgoing.ok⟩, ?_, branches, hnext⟩
        · rw [Cursor.answers_ask, herror]
          rfl
        · by_contra hnone
          exact hleft ((kept_eq_nil ho.kept).2 fun cursor hm => by_contra fun hn =>
            hnone ⟨cursor, hm, hn⟩)
  · have hreply : merged.position.reply = .ended := by rw [hover]; rfl
    refine ⟨cursors, rfl, fun cursor hm => Nat.le_succ_of_le (hasked cursor hm), ?_, honce,
      .inr ⟨⟨front, error, count + 1, ?_, hfront⟩, hopen, branches, ?_⟩⟩
    · rw [Cursor.answers_ask, hreply, Answer.given_append]
      exact (List.append_nil _).symm ▸ hinter
    · rw [Cursor.answers_ask, hreply, hanswers, List.append_assoc, List.cons_append,
        List.replicate_succ']
    · exact (congrArg Branch.next hover).trans (Stream.next_stopped _ true)

theorem asks (h : Merging cursors merged) (count : Nat) :
    ∃ next, next.map Cursor.origin = cursors.map Cursor.origin ∧
      Merging next { merged with count := merged.count + count } := by
  induction count with
  | zero => exact ⟨cursors, rfl, h⟩
  | succ count ih =>
    obtain ⟨middle, horigin, hmiddle⟩ := ih
    obtain ⟨next, hnext, hmerging⟩ := hmiddle.ask
    exact ⟨next, hnext.trans horigin, hmerging⟩

end Merging

-- ---------------------------------------------------------------------------
-- From one instant to the next
-- ---------------------------------------------------------------------------

/-- The same time and the same buses, whatever merges choose, and no more questions. -/
structure IsWithin (own whole : Instant × Nat) : Prop where
  now : own.1.now = whole.1.now
  buses : own.1.buses = whole.1.buses
  closed : own.1.closed = whole.1.closed
  count : own.2 ≤ whole.2

def Lane.latest (lane : Lane) : Option Answer :=
  (lane.branch.answers lane.questions).getLast?.bind List.getLast?

theorem Lane.getLast?_answers {lane : Lane} {answer : Answer} (h : lane.latest = some answer) :
    lane.answers.getLast? = some answer := by
  obtain ⟨group, hgroup, hanswer⟩ := Option.bind_eq_some_iff.1 h
  obtain ⟨front, hfront⟩ := List.getLast?_eq_some_iff.1 hgroup
  rw [Lane.answers, hfront, List.flatten_append, List.getLast?_append, List.flatten_singleton, hanswer,
    Option.some_or]

theorem Cursor.latest_close (cursor : Cursor) : cursor.close.latest = cursor.replies.getLast? := by
  rw [Lane.latest, close, Stream.answers_concat, List.getLast?_concat]
  rfl

structure FanIn (lanes : List Lane) (merged : Lane) : Prop where
  /-- Nothing is lost, invented or told in another order. -/
  interleaved : Interleaves (lanes.map fun lane => Answer.given lane.answers)
    (Answer.given merged.answers)
  /-- A branch that has ended has told all it has and is not asked again. -/
  once : ∀ lane ∈ lanes, .ended ∉ lane.answers.dropLast
  /-- Nothing is ready if there is nothing for now. -/
  waiting : merged.latest = some .waiting →
    ∀ lane ∈ lanes, .ended ∈ lane.answers ∨ lane.latest = some .waiting
  /-- The end comes behind an error and when all branches have ended. -/
  ends : ∀ answer, merged.latest = some answer → (answer = .ended ↔
    (∃ error, .item (.error error) ∈ merged.answers.dropLast) ∨
      ∀ lane ∈ lanes, .ended ∈ lane.answers)

theorem Merging.fanIn {cursors : List Cursor} {merged : Cursor} (h : Merging cursors merged) :
    FanIn (cursors.map Cursor.close) merged.close where
  interleaved := by
    rw [List.map_map, Cursor.answers_close]
    have hanswers : (fun lane => Answer.given lane.answers) ∘ Cursor.close =
        fun cursor => Answer.given cursor.answers :=
      funext fun cursor => congrArg Answer.given cursor.answers_close
    exact hanswers ▸ h.interleaved
  once := by
    refine List.forall_mem_map.2 fun cursor hm => ?_
    rw [Cursor.answers_close]
    exact h.once cursor hm
  waiting hw := by
    refine List.forall_mem_map.2 fun cursor hm => ?_
    rw [Cursor.latest_close] at hw ⊢
    rw [Cursor.answers_close]
    rcases h.state with hgoing | ⟨hfailed, -, -⟩
    · exact hgoing.resting hw cursor hm
    · exact absurd rfl (hfailed.last (merged.getLast?_answers hw)).1
  ends answer ha := by
    rw [Cursor.latest_close] at ha
    rw [Cursor.answers_close, List.forall_mem_map]
    simp only [Cursor.answers_close]
    rcases h.state with hgoing | ⟨hfailed, hopen, -⟩
    · have hnone : ¬ ∃ error, .item (.error error) ∈ merged.answers.dropLast :=
        fun ⟨error, hm⟩ => hgoing.ok error (List.dropLast_subset _ hm)
      rw [hgoing.ended answer ha, or_iff_right hnone]
    · have hsome : ¬ ∀ cursor ∈ cursors, .ended ∈ cursor.answers :=
        fun hall => hopen.elim fun cursor hc => hc.2 (hall cursor hc.1)
      rw [or_iff_left hsome]
      exact (hfailed.last (merged.getLast?_answers ha)).2

inductive Continues (lanes : List Lane) (merged : Lane) : Prop where
  | going (ok : ∀ error, .item (.error error) ∉ merged.answers)
      (h : merged.stream = .merge false (lanes.filterMap Lane.kept?))
  | ended (ok : ∀ error, .item (.error error) ∉ merged.answers)
      (he : ∀ lane ∈ lanes, .ended ∈ lane.answers) (h : merged.stream = .merge true [])
  | failed (hf : HasFailed merged.answers) (ho : ∃ lane ∈ lanes, .ended ∉ lane.answers)
      (branches : List Stream) (h : merged.stream = .merge true branches)

theorem Merging.continues {cursors : List Cursor} {merged : Cursor} (h : Merging cursors merged) :
    Continues (cursors.map Cursor.close) merged.close := by
  have hkept : (cursors.map Cursor.close).filterMap Lane.kept? =
      (cursors.filterMap Cursor.kept?).map Branch.state := by
    rw [List.filterMap_map, List.map_filterMap]
    exact List.filterMap_congr fun cursor _ => cursor.kept?_close
  rcases h.state with hgoing | ⟨hfailed, ⟨cursor, hm, ho⟩, branches, hs⟩
  · have hok : ∀ error, .item (.error error) ∉ merged.close.answers := by
      rw [Cursor.answers_close]
      exact hgoing.ok
    have hweaves := hgoing.weaves
    generalize hposition : merged.position = position at hweaves
    cases hweaves with
    | going hk =>
      refine .going hok ?_
      rw [Cursor.stream_close, hposition, hkept, hk]
      rfl
    | @idle left hk =>
      cases left with
      | nil =>
        refine .ended hok (List.forall_mem_map.2 fun cursor hm => ?_) ?_
        · rw [Cursor.answers_close]
          exact (Merging.kept_eq_nil hk).1 rfl cursor hm
        · rw [Cursor.stream_close, hposition]
          rfl
      | cons branch others =>
        refine .going hok ?_
        rw [Cursor.stream_close, hposition, hkept, hk]
        rfl
  · have hopen : .ended ∉ cursor.close.answers := by rwa [Cursor.answers_close]
    refine .failed (by rwa [Cursor.answers_close]) ⟨_, List.mem_map_of_mem hm, hopen⟩ branches ?_
    rw [Cursor.stream_close, hs]
    rfl

def openAll (instant : Instant) : Nat → List Lane → List Cursor
  | _, [] => []
  | place, lane :: rest =>
    ⟨lane, instant.inside place, 0⟩ ::
      openAll instant (if lane.hasEnded then place else place + 1) rest

theorem map_lane_openAll (instant : Instant) (place : Nat) (lanes : List Lane) :
    (openAll instant place lanes).map Cursor.lane = lanes := by
  induction lanes generalizing place with
  | nil => rfl
  | cons lane rest ih => exact congrArg _ (ih _)

theorem forall_mem_openAll (instant : Instant) (place : Nat) (lanes : List Lane) :
    ∀ cursor ∈ openAll instant place lanes,
      cursor.count = 0 ∧ ∃ branch, cursor.instant = instant.inside branch := by
  induction lanes generalizing place with
  | nil => simp [openAll]
  | cons lane rest ih => exact List.forall_mem_cons.2 ⟨⟨rfl, place, rfl⟩, ih _⟩

theorem answers_of_mem_openAll {instant : Instant} {place : Nat} {lanes : List Lane} {cursor : Cursor}
    (h : cursor ∈ openAll instant place lanes) : cursor.answers = cursor.lane.answers := by
  have hcount := (forall_mem_openAll instant place lanes cursor h).1
  rw [Cursor.answers, Cursor.replies, hcount]
  exact List.append_nil _

theorem kept_openAll (instant : Instant) (place : Nat) (lanes : List Lane) :
    (openAll instant place lanes).filterMap Cursor.kept? =
      (lanes.filterMap Lane.kept?).zipWith Branch.mk
        (Stream.runBranches instant place (lanes.filterMap Lane.kept?)) := by
  induction lanes generalizing place with
  | nil => rfl
  | cons lane rest ih =>
    have hnew : Cursor.kept? ⟨lane, instant.inside place, 0⟩ =
        lane.kept?.map (Stream.inside (instant.inside place)) := by
      rw [Cursor.kept?, Cursor.answers, Cursor.replies, Branch.replies, List.append_nil, Lane.kept?,
        Lane.hasEnded]
      split <;> rfl
    rw [openAll]
    cases hk : lane.hasEnded with
    | true =>
      have hgone : lane.kept? = none := by rw [Lane.kept?, hk, if_pos rfl]
      rw [List.filterMap_cons_none (hnew.trans (by rw [hgone]; rfl)), List.filterMap_cons_none hgone,
        if_pos rfl, ih]
    | false =>
      have hkept : lane.kept? = some lane.stream := by
        rw [Lane.kept?, hk, if_neg Bool.false_ne_true]
      rw [List.filterMap_cons_some (hnew.trans (by rw [hkept]; rfl)),
        List.filterMap_cons_some hkept, if_neg Bool.false_ne_true, ih, Stream.runBranches,
        List.zipWith_cons_cons]
      rfl

theorem size_zipWith (states : List Stream) (instant : Instant) (place : Nat) :
    Branch.size (states.zipWith Branch.mk (Stream.runBranches instant place states)) =
      ((Stream.runBranches instant place states).flatMap Run.steps).length := by
  induction states generalizing place with
  | nil => rfl
  | cons state rest ih =>
    rw [Stream.runBranches, List.zipWith_cons_cons, Branch.size_cons, ih, List.flatMap_cons,
      List.length_append]

theorem mergeOf_zipWith (done : Bool) (states : List Stream) (instant : Instant) (place : Nat) :
    mergeOf done (states.zipWith Branch.mk (Stream.runBranches instant place states)) =
      .merge done states := by
  have hstates : (states.zipWith Branch.mk (Stream.runBranches instant place states)).map
      Branch.state = states := by
    induction states generalizing place with
    | nil => rfl
    | cons state rest ih => exact congrArg _ (ih _)
  rw [mergeOf, hstates]

theorem Continues.merging {lanes : List Lane} {merged : Lane} (h : Continues lanes merged)
    (hf : FanIn lanes merged) (instant : Instant) :
    Merging (openAll instant 0 lanes) ⟨merged, instant, 0⟩ := by
  have hanswers : Cursor.answers ⟨merged, instant, 0⟩ = merged.answers := List.append_nil _
  have hmem : ∀ cursor ∈ openAll instant 0 lanes, cursor.lane ∈ lanes := fun cursor hm =>
    map_lane_openAll instant 0 lanes ▸ List.mem_map_of_mem hm
  refine ⟨fun cursor hm => ?_, ?_, fun cursor hm => ?_, ?_⟩
  · exact Nat.le_of_eq (forall_mem_openAll instant 0 lanes cursor hm).1
  · have hmap : (openAll instant 0 lanes).map (fun cursor => Answer.given cursor.answers) =
        lanes.map fun lane => Answer.given lane.answers := by
      conv_rhs => rw [← map_lane_openAll instant 0 lanes, List.map_map]
      exact List.map_congr_left fun cursor hm => congrArg _ (answers_of_mem_openAll hm)
    rw [hmap, hanswers]
    exact hf.interleaved
  · rw [answers_of_mem_openAll hm]
    exact hf.once _ (hmem cursor hm)
  · have hstart : Cursor.position ⟨merged, instant, 0⟩ = merged.stream.inside instant := rfl
    cases h with
    | going ok h =>
      refine .inl ⟨hanswers.symm ▸ ok, ?_, fun hn => ?_, fun _ hn => ?_⟩
      · have hgoing := Weaves.going (kept_openAll instant 0 lanes) (fun count => instant.pick [count])
          (Nat.lt_succ_self _) 0
        rw [mergeOf_zipWith, size_zipWith] at hgoing
        rw [hstart, h]
        exact hgoing
      · simp [Cursor.replies, Branch.replies] at hn
      · simp [Cursor.replies, Branch.replies] at hn
    | ended ok he h =>
      have hended : ∀ cursor ∈ openAll instant 0 lanes, .ended ∈ cursor.answers := fun cursor hm =>
        answers_of_mem_openAll hm ▸ he _ (hmem cursor hm)
      have hnone := (Merging.kept_eq_nil rfl).2 hended
      refine .inl ⟨hanswers.symm ▸ ok, ?_, fun hn => ?_, fun _ hn => ?_⟩
      · rw [hstart, h]
        exact .idle hnone fun cursor hm => .inl (hended cursor hm)
      · simp [Cursor.replies, Branch.replies] at hn
      · simp [Cursor.replies, Branch.replies] at hn
    | failed hfailed ho branches h =>
      obtain ⟨lane, hl, ho⟩ := ho
      rw [← map_lane_openAll instant 0 lanes] at hl
      obtain ⟨cursor, hm, rfl⟩ := List.mem_map.1 hl
      refine .inr ⟨hanswers.symm ▸ hfailed, ⟨cursor, hm, ?_⟩, branches, ?_⟩
      · rwa [answers_of_mem_openAll hm]
      · rw [hstart, h]
        rfl

theorem fanIn_start (branches : List Stream) :
    FanIn (branches.map (⟨·, []⟩)) ⟨.merged branches, []⟩ where
  interleaved := .nil (by simp [Lane.answers, Stream.answers, Answer.given])
  once := by simp [Lane.answers, Stream.answers]
  waiting h := by simp [Lane.latest, Stream.answers] at h
  ends _ h := by simp [Lane.latest, Stream.answers] at h

theorem continues_start (branches : List Stream) :
    Continues (branches.map (⟨·, []⟩)) ⟨.merged branches, []⟩ := by
  refine .going (by simp [Lane.answers, Stream.answers]) ?_
  have hkept : (branches.map fun branch => (⟨branch, []⟩ : Lane)).filterMap Lane.kept? = branches := by
    rw [List.filterMap_map]
    exact List.filterMap_some
  rw [hkept]
  rfl

/-- Whatever questions a merged stream is asked, it has told what its branches have. -/
theorem exists_fanIn (branches : List Stream) (questions : List (Instant × Nat)) :
    ∃ lanes : List Lane, lanes.map Lane.branch = branches ∧
      (∀ lane ∈ lanes, List.Forall₂ IsWithin lane.questions questions) ∧
      FanIn lanes ⟨.merged branches, questions⟩ ∧ Continues lanes ⟨.merged branches, questions⟩ := by
  induction questions using List.reverseRecOn with
  | nil =>
    refine ⟨branches.map (⟨·, []⟩), ?_, ?_, fanIn_start branches, continues_start branches⟩
    · rw [List.map_map]
      exact List.map_id _
    · exact List.forall_mem_map.2 fun _ _ => .nil
  | append_singleton earlier question ih =>
    obtain ⟨instant, count⟩ := question
    obtain ⟨lanes, hbranches, hwithin, hfan, hcontinues⟩ := ih
    obtain ⟨next, horigin, hnext⟩ := (hcontinues.merging hfan instant).asks count
    rw [Nat.zero_add] at hnext
    refine ⟨next.map Cursor.close, ?_, List.forall_mem_map.2 fun cursor hm => ?_, hnext.fanIn,
      hnext.continues⟩
    · have hlanes := congrArg (List.map fun origin => origin.1.branch) horigin
      rw [List.map_map, List.map_map] at hlanes
      rw [List.map_map, ← hbranches, ← map_lane_openAll instant 0 lanes, List.map_map]
      exact hlanes
    · obtain ⟨first, hfirst, heq⟩ := List.mem_map.1 (horigin ▸ List.mem_map_of_mem hm)
      obtain ⟨hlane, hinstant⟩ := Prod.mk.inj heq
      obtain ⟨-, place, hplace⟩ := forall_mem_openAll instant 0 lanes first hfirst
      have hquestions := hwithin first.lane
        (map_lane_openAll instant 0 lanes ▸ List.mem_map_of_mem hfirst)
      rw [hlane] at hquestions
      have hsame : cursor.instant = instant.inside place := hinstant.symm.trans hplace
      refine List.rel_append hquestions (.cons ⟨?_, ?_, ?_, hnext.asked cursor hm⟩ .nil)
      · rw [hsame]; rfl
      · rw [hsame]; rfl
      · rw [hsame]; rfl

end HomeHub
