import HomeHub.Proofs.HeldReader

/-!
# Runs that stop at an error

The run of a stream that is read up to an error, merged or held has no error but at its end, and where
it fails or ends it leaves a spent state. A filter keeps this. Who takes from such a run gets
changes, and at most one error behind them.
-/

namespace HomeHub

/-- Runs through states of one kind, with no error but at the end. Where the run fails or ends, it
leaves a spent state. -/
inductive Run.Closes {σ : Type} (kind spent : σ → Prop) : Run σ → Prop where
  | rest {rest : σ} {ended : Bool} (hk : kind rest) (ho : ended = true → spent rest) :
      Closes kind spent ⟨[], rest, ended⟩
  | failed (error : HubError) {state rest : σ} (hk : kind state) (ho : spent state) (hr : kind rest)
      (hor : spent rest) : Closes kind spent ⟨[(.item (.error error), state)], rest, true⟩
  | pause {state : σ} {run : Run σ} (hk : kind state) (h : Closes kind spent run) :
      Closes kind spent (run.cons .pause state)
  | change (change : StateChange) {state : σ} {run : Run σ} (hk : kind state)
      (h : Closes kind spent run) : Closes kind spent (run.cons (.item (.ok change)) state)

namespace Run

variable {σ τ : Type} {kind spent : σ → Prop} {run : Run σ}

theorem Closes.map {kind' spent' : τ → Prop} {f : σ → τ} (h : run.Closes kind spent)
    (hk : ∀ state, kind state → kind' (f state)) (ho : ∀ state, spent state → spent' (f state)) :
    (run.map f).Closes kind' spent' := by
  induction h with
  | rest hrest hover => exact .rest (hk _ hrest) fun he => ho _ (hover he)
  | failed error hstate hover hrest hover' =>
    exact .failed error (hk _ hstate) (ho _ hover) (hk _ hrest) (ho _ hover')
  | pause hstate _ ih => exact .pause (hk _ hstate) ih
  | change change hstate _ ih => exact .change change (hk _ hstate) ih

theorem Closes.filter (h : run.Closes kind spent) (keep : StateChange → Bool) :
    (run.filter keep).Closes kind spent := by
  induction h with
  | rest hrest hover => exact .rest hrest hover
  | failed error hstate hover hrest hover' => exact .failed error hstate hover hrest hover'
  | pause hstate _ ih => exact .pause hstate ih
  | @change change state run hstate _ ih =>
    cases hkeep : keep change with
    | true =>
      have hcons : (run.cons (.item (.ok change)) state).filter keep =
          (run.filter keep).cons (.item (.ok change)) state := by
        simp [Run.filter, Run.cons, Beat.passes, hkeep]
      exact hcons ▸ .change change hstate ih
    | false =>
      have hskip : (run.cons (.item (.ok change)) state).filter keep = run.filter keep := by
        simp [Run.filter, Run.cons, Beat.passes, hkeep]
      exact hskip ▸ ih

theorem untilError_cons {beat : Beat} (hb : ∀ error, beat ≠ .item (.error error)) (state : σ)
    (run : Run σ) : (run.cons beat state).untilError = run.untilError.cons beat (false, state) := by
  have hcut : cutSteps ((beat, state) :: run.steps) =
      ((beat, false, state) :: (cutSteps run.steps).1, (cutSteps run.steps).2) := by
    cases beat with
    | pause => rfl
    | item item =>
      cases item with
      | error error => exact (hb error rfl).elim
      | ok change => rfl
  simp only [untilError, cons, hcut]
  rcases cutSteps run.steps with ⟨steps, _ | last⟩ <;> rfl

theorem closes_untilError (run : Run σ) :
    run.untilError.Closes (fun _ => True) fun state => state.1 = true := by
  obtain ⟨steps, rest, ended⟩ := run
  induction steps with
  | nil => exact .rest trivial id
  | cons step steps ih =>
    obtain ⟨beat, state⟩ := step
    cases beat with
    | pause =>
      show ((Run.mk steps rest ended).cons .pause state).untilError.Closes _ _
      rw [untilError_cons (by simp)]
      exact .pause trivial ih
    | item item =>
      cases item with
      | error error => exact .failed error trivial rfl trivial rfl
      | ok change =>
        show ((Run.mk steps rest ended).cons (.item (.ok change)) state).untilError.Closes _ _
        rw [untilError_cons (by simp)]
        exact .change change trivial ih

end Run

-- ---------------------------------------------------------------------------
-- Holds
-- ---------------------------------------------------------------------------

namespace Hold

inductive Decides : Answer × Hold → Prop where
  | change (change : StateChange) (next : Hold) : Decides (.item (.ok change), next)
  | waiting (next : Hold) : Decides (.waiting, next)
  | ended {next : Hold} (h : next.finished = true) : Decides (.ended, next)

theorem decides_settle (hold : Hold) : Decides hold.settle := by
  unfold settle
  split
  · exact .ended rfl
  · exact .waiting hold

theorem decides_expire (hold : Hold) (now : Nat) : Decides (hold.expire now) := by
  unfold expire
  split
  · exact hold.decides_settle
  · split
    · dsimp only
      split
      · exact .change ..
      · exact decides_settle _
    · exact hold.decides_settle

theorem decides_poll (hold : Hold) (now : Nat) (batch : List StateChange) {ending : Ending}
    (he : ∀ error, ending ≠ .failed error) : Decides (hold.poll now batch ending) := by
  unfold Hold.poll
  split
  · rename_i hf
    exact .ended hf
  · dsimp only
    split
    · exact (he _ rfl).elim
    · exact decides_expire _ now

theorem IsOpen.finished_poll {hold : Hold} (h : hold.IsOpen) (now : Nat) (batch : List StateChange)
    (error : HubError) : (hold.poll now batch (.failed error)).2.finished = true := by
  simp [Hold.poll, h.unfinished, h.source]

end Hold

namespace Run

variable {σ : Type}

theorem closes_holdSteps_nil (now : Nat) {ending : Ending} (he : ∀ error, ending ≠ .failed error)
    (rest : σ) (hold : Hold) (batch : List StateChange) :
    (holdSteps now ending rest hold batch []).Closes (fun _ => True)
      fun state => state.1.finished = true := by
  have hdecides := hold.decides_poll now batch he
  unfold holdSteps
  generalize hold.poll now batch ending = result at hdecides
  cases hdecides with
  | waiting next => exact .rest trivial (by simp)
  | ended hf => exact .rest trivial fun _ => hf
  | change change next =>
    -- behind its change the hold is asked once more, and says whether it has ended
    have hnext : Hold.Decides (next.poll now [] .waiting) := next.decides_poll now [] (by simp)
    dsimp only
    generalize next.poll now [] .waiting = second at hnext
    cases hnext with
    | ended hf => exact .change change trivial (.rest trivial fun _ => hf)
    | change | waiting => exact .change change trivial (.rest trivial (by simp))

theorem closes_holdSteps (now : Nat) {ending : Ending} (he : ∀ error, ending ≠ .failed error)
    (rest : σ) {hold : Hold} (h : hold.IsOpen) (batch : List StateChange) (steps : List (Beat × σ)) :
    (holdSteps now ending rest hold batch steps).Closes (fun _ => True)
      fun state => state.1.finished = true := by
  induction steps generalizing hold batch with
  | nil => exact closes_holdSteps_nil now he rest hold batch
  | cons step steps ih =>
    obtain ⟨beat, state⟩ := step
    cases beat with
    | item item =>
      cases item with
      | ok change => exact ih h (batch ++ [change])
      | error error =>
        have hf := h.finished_poll now batch error
        exact .failed error trivial hf trivial hf
    | pause =>
      have hopen : (hold.poll now batch .waiting).2.IsOpen := by
        rw [h.poll]
        exact ((h.drain now batch).expire now).1
      have hdecides : Hold.Decides (hold.poll now batch .waiting) := hold.decides_poll now batch (by simp)
      unfold holdSteps
      generalize hold.poll now batch .waiting = result at hdecides hopen
      cases hdecides with
      | change change next => exact .change change trivial (ih hopen [])
      | waiting next => exact .pause trivial (ih hopen [])
      | ended hf => exact .pause trivial (ih hopen [])

theorem closes_hold (now : Nat) (hold : Hold) (source : σ) (run : Run σ) :
    (Run.hold now hold source run).Closes (fun _ => True) fun state => state.1.finished = true := by
  unfold Run.hold
  split
  · rename_i hf
    exact .rest trivial fun _ => hf
  · rename_i hf
    split
    · exact closes_holdSteps_nil now (by simp) source hold []
    · rename_i hs
      have hopen : hold.IsOpen := ⟨by simpa using hs, by simpa using hf⟩
      refine closes_holdSteps now ?_ run.rest hopen [] run.steps
      split <;> simp

end Run

-- ---------------------------------------------------------------------------
-- Taking
-- ---------------------------------------------------------------------------

namespace Run

variable {σ : Type} {kind spent : σ → Prop} {run : Run σ}

theorem takeSteps_pause {limit : Option Nat} (hl : limit ≠ some 0) (ended : Bool)
    (rest start state : σ) (steps : List (Beat × σ)) :
    takeSteps ended rest limit start ((.pause, state) :: steps) = ([], .waiting, state) := by
  cases limit with
  | none => rfl
  | some n =>
    cases n with
    | zero => exact (hl rfl).elim
    | succ n => rfl

/-- An answer to a poll that leaves a state of some kind: changes, and perhaps an error behind them.
The state is spent if there was an error or the end was told. -/
inductive Answered {σ : Type} (kind spent : σ → Prop) : List Item × PollStatus × σ → Prop where
  | going (changes : List StateChange) {status : PollStatus} {last : σ} (hk : kind last)
      (ho : status = .ended → spent last) : Answered kind spent (changes.map .ok, status, last)
  | failed (changes : List StateChange) (error : HubError) {status : PollStatus} {last : σ}
      (hk : kind last) (ho : spent last) :
      Answered kind spent (changes.map .ok ++ [.error error], status, last)

theorem answered_zero {start : σ} (hs : kind start) (run : Run σ) :
    Answered kind spent (run.take (some 0) start) := by
  rw [take, takeSteps_zero]
  exact .going [] hs (by simp)

theorem Closes.answered (h : run.Closes kind spent) {start : σ} (hs : kind start)
    (limit : Option Nat) : Answered kind spent (run.take limit start) := by
  induction h generalizing start limit with
  | @rest rest ended hk ho =>
    rcases eq_or_ne limit (some 0) with rfl | hl
    · exact answered_zero hs _
    · rw [Run.take, takeSteps_nil hl]
      exact .going [] hk (by cases ended <;> simp_all)
  | @failed error state rest hk ho hr hor =>
    rcases eq_or_ne limit (some 0) with rfl | hl
    · exact answered_zero hs _
    · rw [Run.take, takeSteps_item hl]
      by_cases hz : limit.map (· - 1) = some 0
      · rw [hz, takeSteps_zero]
        exact .failed [] error hk ho
      · rw [takeSteps_nil hz]
        exact .failed [] error hr hor
  | pause hk _ ih =>
    rcases eq_or_ne limit (some 0) with rfl | hl
    · exact answered_zero hs _
    · rw [Run.take, cons, takeSteps_pause hl]
      exact .going [] hk (by simp)
  | @change change state run hk _ ih =>
    rcases eq_or_ne limit (some 0) with rfl | hl
    · exact answered_zero hs _
    · rw [Run.take, cons, takeSteps_item hl]
      have hrest := ih hk (limit.map (· - 1))
      rw [Run.take] at hrest
      generalize takeSteps run.ended run.rest (limit.map (· - 1)) state run.steps = answer at hrest
      cases hrest with
      | going changes hlast hover => exact .going (change :: changes) hlast hover
      | failed changes error hlast hover => exact .failed (change :: changes) error hlast hover

end Run

end HomeHub
