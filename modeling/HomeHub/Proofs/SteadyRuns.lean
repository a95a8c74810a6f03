import HomeHub.Proofs.ClosingRuns
import HomeHub.Stream.Merge
import Mathlib.Algebra.GroupWithZero.Nat

/-!
# Runs through live states

Up to its first error a run of a live stream goes through live states, and from there on through states
that are at least kept. If it ends without an error, the stream was bare: there was nothing in it to
keep. To filter, to read up to an error, to merge and to hold make such runs from such runs.
-/

namespace HomeHub

inductive Run.Steady {σ : Type} (live kept : σ → Prop) (expected : HubError → Prop) (bare : Prop) :
    Run σ → Prop where
  | waiting {rest : σ} (h : live rest) : Steady live kept expected bare ⟨[], rest, false⟩
  | ended {rest : σ} (h : kept rest) (hb : bare) : Steady live kept expected bare ⟨[], rest, true⟩
  | pause {state rest : σ} {steps : List (Beat × σ)} {ended : Bool} (h : live state)
      (hs : Steady live kept expected bare ⟨steps, rest, ended⟩) :
      Steady live kept expected bare ⟨(.pause, state) :: steps, rest, ended⟩
  | change (change : StateChange) {state rest : σ} {steps : List (Beat × σ)} {ended : Bool}
      (h : live state) (hs : Steady live kept expected bare ⟨steps, rest, ended⟩) :
      Steady live kept expected bare ⟨(.item (.ok change), state) :: steps, rest, ended⟩
  | failed {error : HubError} {state rest : σ} {steps : List (Beat × σ)} {ended : Bool}
      (he : expected error) (h : kept state)
      (hs : ∀ step ∈ steps, kept step.2 ∧ ∀ other, step.1 = .item (.error other) → expected other)
      (hr : kept rest) :
      Steady live kept expected bare ⟨(.item (.error error), state) :: steps, rest, ended⟩

namespace Run

variable {σ τ : Type} {live kept : σ → Prop} {expected : HubError → Prop} {bare : Prop} {run : Run σ}

theorem Steady.map {live' kept' : τ → Prop} {f : σ → τ} (h : run.Steady live kept expected bare)
    (hl : ∀ state, live state → live' (f state)) (hk : ∀ state, kept state → kept' (f state)) :
    (run.map f).Steady live' kept' expected bare := by
  induction h with
  | waiting h => exact .waiting (hl _ h)
  | ended h hb => exact .ended (hk _ h) hb
  | pause h _ ih => exact .pause (hl _ h) ih
  | change change h _ ih => exact .change change (hl _ h) ih
  | failed he h hs hr =>
    refine .failed he (hk _ h) (fun step hm => ?_) (hk _ hr)
    obtain ⟨⟨beat, state⟩, hstep, rfl⟩ := List.mem_map.1 hm
    exact ⟨hk _ (hs _ hstep).1, (hs _ hstep).2⟩

theorem Steady.mono {live' kept' : σ → Prop} (h : run.Steady live kept expected bare)
    (hl : ∀ state, live state → live' state) (hk : ∀ state, kept state → kept' state) :
    run.Steady live' kept' expected bare := by
  have hmap : run.map id = run := by simp [Run.map]
  exact hmap ▸ h.map hl hk

theorem Steady.filter (h : run.Steady live kept expected bare) (keep : StateChange → Bool) :
    (run.filter keep).Steady live kept expected bare := by
  induction h with
  | waiting h => exact .waiting h
  | ended h hb => exact .ended h hb
  | pause h _ ih => exact .pause h ih
  | @change change state rest steps ended h _ ih =>
    cases hkeep : keep change with
    | true =>
      have hcons : (Run.mk ((.item (.ok change), state) :: steps) rest ended).filter keep =
          ((Run.mk steps rest ended).filter keep).cons (.item (.ok change)) state := by
        simp [Run.filter, Run.cons, Beat.passes, hkeep]
      exact hcons ▸ .change change h ih
    | false =>
      have hskip : (Run.mk ((.item (.ok change), state) :: steps) rest ended).filter keep =
          (Run.mk steps rest ended).filter keep := by
        simp [Run.filter, Beat.passes, hkeep]
      exact hskip ▸ ih
  | failed he h hs hr => exact .failed he h (fun step hm => hs step (List.mem_filter.1 hm).1) hr

/-- Nothing is left behind the first error, so no state behind it has to be kept. -/
theorem Steady.untilError (h : run.Steady live kept expected bare) :
    run.untilError.Steady (fun state => state.1 = false ∧ live state.2)
      (fun state => state.1 = true ∧ kept state.2) expected bare := by
  induction h with
  | waiting h => exact .waiting ⟨rfl, h⟩
  | ended h hb => exact .ended ⟨rfl, h⟩ hb
  | @pause state rest steps ended h _ ih =>
    show ((Run.mk steps rest ended).cons .pause state).untilError.Steady _ _ _ _
    rw [untilError_cons (by simp)]
    exact .pause ⟨rfl, h⟩ ih
  | @change change state rest steps ended h _ ih =>
    show ((Run.mk steps rest ended).cons (.item (.ok change)) state).untilError.Steady _ _ _ _
    rw [untilError_cons (by simp)]
    exact .change change ⟨rfl, h⟩ ih
  | failed he h _ _ => exact .failed he ⟨rfl, h⟩ (by simp) ⟨rfl, h⟩

theorem steady_of_live {steps : List (Beat × σ)} {rest : σ} {ended : Bool}
    (hl : ∀ state, live state → kept state)
    (hs : ∀ step ∈ steps, live step.2 ∧ ∀ error, step.1 = .item (.error error) → expected error)
    (hr : live rest) (hb : ended = true → bare) :
    (Run.mk steps rest ended).Steady live kept expected bare := by
  induction steps with
  | nil =>
    cases ended with
    | false => exact .waiting hr
    | true => exact .ended (hl _ hr) (hb rfl)
  | cons step steps ih =>
    obtain ⟨⟨hstate, hexpected⟩, hrest⟩ := List.forall_mem_cons.1 hs
    obtain ⟨beat, state⟩ := step
    cases beat with
    | pause => exact .pause hstate (ih hrest)
    | item item =>
      cases item with
      | ok change => exact .change change hstate (ih hrest)
      | error error =>
        exact .failed (hexpected error rfl) (hl _ hstate)
          (fun step hm => ⟨hl _ (hrest step hm).1, (hrest step hm).2⟩) (hl _ hr)

-- ---------------------------------------------------------------------------
-- Taking
-- ---------------------------------------------------------------------------

theorem Steady.forall_steps (h : run.Steady live kept expected bare)
    (hl : ∀ state, live state → kept state) :
    (∀ step ∈ run.steps, kept step.2 ∧ ∀ error, step.1 = .item (.error error) → expected error) ∧
      kept run.rest := by
  induction h with
  | waiting h => exact ⟨by simp, hl _ h⟩
  | ended h _ => exact ⟨by simp, h⟩
  | pause h _ ih => exact ⟨List.forall_mem_cons.2 ⟨⟨hl _ h, by simp⟩, ih.1⟩, ih.2⟩
  | change change h _ ih => exact ⟨List.forall_mem_cons.2 ⟨⟨hl _ h, by simp⟩, ih.1⟩, ih.2⟩
  | failed he h hs hr =>
    refine ⟨List.forall_mem_cons.2 ⟨⟨h, fun other heq => ?_⟩, hs⟩, hr⟩
    cases heq
    exact he

theorem takeSteps_of_forall {steps : List (Beat × σ)} {rest start : σ}
    (hs : ∀ step ∈ steps, kept step.2 ∧ ∀ error, step.1 = .item (.error error) → expected error)
    (hr : kept rest) (h : kept start) (ended : Bool) (limit : Option Nat) :
    kept (takeSteps ended rest limit start steps).2.2 ∧
      ∀ error, .error error ∈ (takeSteps ended rest limit start steps).1 → expected error := by
  induction steps generalizing start limit with
  | nil =>
    rcases eq_or_ne limit (some 0) with rfl | hlimit
    · rw [takeSteps_zero]
      exact ⟨h, by simp⟩
    · rw [takeSteps_nil hlimit]
      exact ⟨hr, by simp⟩
  | cons step steps ih =>
    obtain ⟨beat, state⟩ := step
    obtain ⟨⟨hstate, hexpected⟩, hrest⟩ := List.forall_mem_cons.1 hs
    rcases eq_or_ne limit (some 0) with rfl | hlimit
    · rw [takeSteps_zero]
      exact ⟨h, by simp⟩
    · cases beat with
      | pause =>
        rw [takeSteps_pause hlimit]
        exact ⟨hstate, by simp⟩
      | item item =>
        rw [takeSteps_item hlimit]
        obtain ⟨hlast, hitems⟩ := ih hrest hstate (limit.map (· - 1))
        refine ⟨hlast, fun error hm => ?_⟩
        rcases List.mem_cons.1 hm with rfl | hm
        · exact hexpected error rfl
        · exact hitems error hm

theorem Steady.take (h : run.Steady live kept expected bare) (hl : ∀ state, live state → kept state)
    {start : σ} (hs : kept start) (limit : Option Nat) :
    kept (run.take limit start).2.2 ∧
      ∀ error, .error error ∈ (run.take limit start).1 → expected error :=
  takeSteps_of_forall (h.forall_steps hl).1 (h.forall_steps hl).2 hs _ _

end Run

-- ---------------------------------------------------------------------------
-- Holds
-- ---------------------------------------------------------------------------

namespace Hold

variable {hold : Hold}

theorem sourceEnded_expire (h : hold.sourceEnded = true) (now : Nat) :
    (hold.expire now).2.sourceEnded = true := by
  have hsettle {other : Hold} (ho : other.sourceEnded = true) : other.settle.2.sourceEnded = true := by
    unfold settle
    split <;> exact ho
  unfold Hold.expire
  split
  · exact hsettle h
  · split
    · dsimp only
      split
      · exact h
      · exact hsettle h
    · exact hsettle h

theorem sourceEnded_poll (h : hold.sourceEnded = true) (now : Nat) (batch : List StateChange)
    (ending : Ending) : (hold.poll now batch ending).2.sourceEnded = true := by
  have hdrain : hold.drain now batch ending = hold := if_pos h
  unfold Hold.poll
  split
  · exact h
  · simp only [hdrain, h]
    exact sourceEnded_expire h now

theorem IsOpen.sourceEnded_poll (h : hold.IsOpen) (now : Nat) (batch : List StateChange) :
    (hold.poll now batch .ended).2.sourceEnded = true := by
  have hdrain : (hold.drain now batch .ended).sourceEnded = true := by
    simp [Hold.drain, h.source]
  have hpoll : hold.poll now batch .ended = (hold.drain now batch .ended).expire now := by
    simp [Hold.poll, h.unfinished, h.source]
  exact hpoll ▸ sourceEnded_expire hdrain now

end Hold

inductive Hold.IsLive {σ : Type} (live kept : σ → Prop) (bare : Prop) : Hold × σ → Prop where
  | going {hold : Hold} {source : σ} (h : hold.IsOpen) (hs : live source) : IsLive live kept bare (hold, source)
  | drained {hold : Hold} {source : σ} (h : hold.sourceEnded = true) (hs : kept source) (hb : bare) :
      IsLive live kept bare (hold, source)

inductive Hold.IsKept {σ : Type} (live kept : σ → Prop) (bare : Prop) : Hold × σ → Prop where
  | live {state : Hold × σ} (h : IsLive live kept bare state) : IsKept live kept bare state
  | finished {hold : Hold} {source : σ} (h : hold.finished = true) (hs : kept source) :
      IsKept live kept bare (hold, source)

namespace Run

variable {σ : Type} {live kept : σ → Prop} {expected : HubError → Prop} {bare : Prop} {hold : Hold}
  {rest : σ}

theorem steady_holdSteps_nil_drained (now : Nat) (batch : List StateChange) {ending : Ending}
    (he : ∀ error, ending ≠ .failed error)
    (hs : (hold.poll now batch ending).2.sourceEnded = true) (hr : kept rest) (hb : bare) :
    (holdSteps now ending rest hold batch []).Steady (Hold.IsLive live kept bare)
      (Hold.IsKept live kept bare) expected bare := by
  have hdecides := hold.decides_poll now batch he
  unfold holdSteps
  generalize hold.poll now batch ending = result at hdecides hs
  cases hdecides with
  | waiting next => exact .waiting (.drained hs hr hb)
  | ended hf => exact .ended (.finished hf hr) hb
  | change change next =>
    have hnext : Hold.Decides (next.poll now [] .waiting) := next.decides_poll now [] (by simp)
    have hlast := Hold.sourceEnded_poll hs now [] .waiting
    dsimp only
    generalize next.poll now [] .waiting = second at hnext hlast
    cases hnext with
    | ended hf => exact .change change (.drained hs hr hb) (.ended (.finished hf hr) hb)
    | change | waiting => exact .change change (.drained hs hr hb) (.waiting (.drained hlast hr hb))

theorem steady_holdSteps_nil_going (h : hold.IsOpen) (now : Nat) (batch : List StateChange)
    (hr : live rest) :
    (holdSteps now .waiting rest hold batch []).Steady (Hold.IsLive live kept bare)
      (Hold.IsKept live kept bare) expected bare := by
  obtain ⟨hnext, ha | ⟨change, ha, -⟩⟩ := (h.drain now batch).expire now <;>
    rw [holdSteps_nil h, h.poll, ha]
  · exact .waiting (.going hnext hr)
  · exact .change change (.going hnext hr) (.waiting (.going hnext hr))

theorem Steady.holdSteps {run : Run σ} (h : run.Steady live kept expected bare) (ho : hold.IsOpen)
    (now : Nat) (batch : List StateChange) :
    (holdSteps now (if run.ended then .ended else .waiting) run.rest hold batch run.steps).Steady
      (Hold.IsLive live kept bare) (Hold.IsKept live kept bare) expected bare := by
  induction h generalizing hold batch with
  | waiting h => exact steady_holdSteps_nil_going ho now batch h
  | ended h hb =>
    exact steady_holdSteps_nil_drained now batch (by simp) (ho.sourceEnded_poll now batch) h hb
  | change change _ _ ih => exact ih ho (batch ++ [change])
  | @failed error state _ _ _ he h _ _ =>
    have hf := ho.finished_poll now batch error
    exact .failed he (.finished hf h) (by simp) (.finished hf h)
  | pause h _ ih =>
    have hopen : (hold.poll now batch .waiting).2.IsOpen := by
      rw [ho.poll]
      exact ((ho.drain now batch).expire now).1
    have hdecides : Hold.Decides (hold.poll now batch .waiting) := hold.decides_poll now batch (by simp)
    simp only [Run.holdSteps]
    generalize hold.poll now batch .waiting = result at hdecides hopen
    cases hdecides with
    | change change next => exact .change change (.going hopen h) (ih hopen [])
    | waiting next => exact .pause (.going hopen h) (ih hopen [])
    | ended hf => exact .pause (.going hopen h) (ih hopen [])

theorem Steady.held {run : Run σ} (h : run.Steady live kept expected bare) (ho : hold.IsOpen)
    (now : Nat) (source : σ) :
    (Run.hold now hold source run).Steady (Hold.IsLive live kept bare)
      (Hold.IsKept live kept bare) expected bare := by
  simp only [Run.hold, ho.unfinished, ho.source, Bool.false_eq_true, if_false]
  exact h.holdSteps ho now []

theorem steady_hold_drained (he : hold.sourceEnded = true) {source : σ} (hs : kept source) (hb : bare)
    (now : Nat) (run : Run σ) :
    (Run.hold now hold source run).Steady (Hold.IsLive live kept bare)
      (Hold.IsKept live kept bare) expected bare := by
  unfold Run.hold
  split
  · exact .ended (.live (.drained he hs hb)) hb
  · exact steady_holdSteps_nil_drained now [] (by simp) (Hold.sourceEnded_poll he now [] _) hs hb

end Run

-- ---------------------------------------------------------------------------
-- Merges
-- ---------------------------------------------------------------------------

namespace Branch

variable {σ : Type}

def total (amount : σ → Nat) (branches : List (Branch σ)) : Nat :=
  (branches.map fun branch => amount branch.state).sum

/-- A live branch whose run keeps what the branch amounts to. -/
structure IsSteady (live kept : σ → Prop) (amount : σ → Nat) (expected : HubError → Prop)
    (branch : Branch σ) : Prop where
  state : live branch.state
  run : branch.run.Steady (fun state => live state ∧ amount state = amount branch.state)
    (fun state => kept state ∧ amount state = amount branch.state) expected
    (amount branch.state = 0)

/-- Branches that have been asked amount to what they did before. Those that are left go on, unless
the answer is an error, which is then an expected one. -/
structure HasAsked (live kept : σ → Prop) (amount : σ → Nat) (expected : HubError → Prop)
    (before : Nat) (answer : Option Beat) (left : List (Branch σ)) : Prop where
  total : total amount left = before
  errors : ∀ error, answer = some (.item (.error error)) → expected error
  steady : (∀ error, answer ≠ some (.item (.error error))) →
    ∀ branch ∈ left, branch.IsSteady live kept amount expected

section
variable {live kept : σ → Prop} {amount : σ → Nat} {expected : HubError → Prop}

theorem total_cons (branch : Branch σ) (others : List (Branch σ)) :
    total amount (branch :: others) = amount branch.state + total amount others := rfl

theorem total_append (first second : List (Branch σ)) :
    total amount (first ++ second) = total amount first + total amount second := by
  simp [total]

theorem HasAsked.cons {before : Nat} {answer : Option Beat} {left : List (Branch σ)}
    (h : HasAsked live kept amount expected before answer left) {branch : Branch σ}
    (hb : branch.IsSteady live kept amount expected) :
    HasAsked live kept amount expected (amount branch.state + before) answer (branch :: left) where
  total := by rw [total_cons, h.total]
  errors := h.errors
  steady hne := List.forall_mem_cons.2 ⟨hb, h.steady hne⟩

theorem HasAsked.congr {before : Nat} {answer other : Option Beat} {left : List (Branch σ)}
    (h : HasAsked live kept amount expected before answer left)
    (ho : ∀ error, other = some (.item (.error error)) ↔ answer = some (.item (.error error))) :
    HasAsked live kept amount expected before other left where
  total := h.total
  errors error heq := h.errors error ((ho error).1 heq)
  steady hne := h.steady fun error heq => hne error ((ho error).2 heq)

/-- Behind an answer without an item the second one decides. -/
theorem answer_eq_item {first : Option Beat} (h : ∀ item, first ≠ some (.item item))
    (second : Option Beat) (item : Item) :
    answer first second = some (.item item) ↔ second = some (.item item) := by
  rcases first with _ | _ | _ <;> rcases second with _ | _ | _ <;> simp_all [answer]

theorem hasAsked_ask {branches : List (Branch σ)}
    (h : ∀ branch ∈ branches, branch.IsSteady live kept amount expected) :
    HasAsked live kept amount expected (total amount branches) (ask branches).1 (ask branches).2 := by
  induction branches with
  | nil => exact ⟨rfl, by simp [ask], by simp [ask]⟩
  | cons branch others ih =>
    obtain ⟨⟨_, hrun⟩, hothers⟩ := List.forall_mem_cons.1 h
    have hasked := ih hothers
    obtain ⟨state, ⟨steps, rest, ended⟩⟩ := branch
    rw [total_cons]
    dsimp only at hrun ⊢
    cases hrun with
    | waiting hrest =>
      have hbranch : IsSteady live kept amount expected ⟨rest, [], rest, false⟩ :=
        ⟨hrest.1, .waiting ⟨hrest.1, rfl⟩⟩
      rw [← hrest.2]
      exact hasked.cons hbranch
    | ended _ hbare =>
      rw [hbare, Nat.zero_add]
      exact hasked
    | @pause next _ steps _ hnext hsteps =>
      have hbranch : IsSteady live kept amount expected ⟨next, steps, rest, ended⟩ :=
        ⟨hnext.1, hnext.2 ▸ hsteps⟩
      rw [← hnext.2]
      exact (hasked.cons hbranch).congr fun error => answer_eq_item (by simp) _ _
    | @change change next _ steps _ hnext hsteps =>
      have hbranch : IsSteady live kept amount expected ⟨next, steps, rest, ended⟩ :=
        ⟨hnext.1, hnext.2 ▸ hsteps⟩
      rw [← hnext.2]
      exact ⟨rfl, by simp [ask], fun _ => List.forall_mem_cons.2 ⟨hbranch, hothers⟩⟩
    | failed he hnext _ _ =>
      rw [← hnext.2]
      refine ⟨rfl, fun other heq => ?_, fun hne => absurd rfl (hne _)⟩
      cases heq
      exact he

theorem HasAsked.append {before others : Nat} {answer other : Option Beat}
    {left right : List (Branch σ)} (h : HasAsked live kept amount expected before answer left)
    (h' : HasAsked live kept amount expected others other right)
    (ho : ∀ error, other = some (.item (.error error)) → answer = some (.item (.error error))) :
    HasAsked live kept amount expected (before + others) answer (left ++ right) where
  total := by rw [total_append, h.total, h'.total]
  errors := h.errors
  steady hne := List.forall_mem_append.2
    ⟨h.steady hne, h'.steady fun error heq => hne error (ho error heq)⟩

theorem hasAsked_askFrom {branches : List (Branch σ)} (start : Nat)
    (h : ∀ branch ∈ branches, branch.IsSteady live kept amount expected) :
    HasAsked live kept amount expected (total amount branches) (askFrom start branches).1
      (askFrom start branches).2 := by
  have hfront : ∀ branch ∈ branches.take start, branch.IsSteady live kept amount expected :=
    fun branch hm => h branch (List.take_subset start branches hm)
  have hback := hasAsked_ask fun branch hm => h branch (List.drop_subset start branches hm)
  have hasked := hasAsked_ask hfront
  rw [← List.take_append_drop start branches, total_append, List.take_append_drop]
  unfold askFrom
  generalize ask (branches.drop start) = first at hback
  obtain ⟨first, back⟩ := first
  rcases first with _ | item | _
  · exact (hasked.append hback (by simp)).congr fun error => answer_eq_item (by simp) _ _
  · -- the branches in front have not been asked
    have unasked : HasAsked live kept amount expected (total amount (branches.take start))
        (some (.item item)) (branches.take start) := ⟨rfl, hback.errors, fun _ => hfront⟩
    exact unasked.append hback fun _ heq => heq
  · exact (hasked.append hback (by simp)).congr fun error => answer_eq_item (by simp) _ _

structure AreLive (live : σ → Prop) (amount : σ → Nat) (whole : Nat) (states : List σ) : Prop where
  live : ∀ state ∈ states, live state
  amount : (states.map amount).sum = whole

theorem sum_map_states (branches : List (Branch σ)) :
    ((branches.map state).map amount).sum = total amount branches := by
  simp [total, Function.comp_def]

theorem areLive_states {branches : List (Branch σ)}
    (h : ∀ branch ∈ branches, branch.IsSteady live kept amount expected) :
    AreLive live amount (total amount branches) (branches.map state) :=
  ⟨List.forall_mem_map.2 fun branch hm => (h branch hm).state, sum_map_states branches⟩

theorem steady_runAll {branches : List (Branch σ)} {whole : Nat} (hw : total amount branches = whole)
    (pick : Nat → Nat) (fuel count : Nat)
    (h : ∀ branch ∈ branches, branch.IsSteady live kept amount expected) :
    (runAll pick fuel count branches).untilError.Steady
      (fun state => state.1 = false ∧ AreLive live amount whole state.2)
      (fun state => state.1 = true ∧ (state.2.map amount).sum = whole) expected (whole = 0) := by
  have stopped {left : List (Branch σ)} (hl : total amount left = whole)
      (hs : ∀ branch ∈ left, branch.IsSteady live kept amount expected) :
      (Run.mk [] (left.map state) left.isEmpty).untilError.Steady
        (fun state => state.1 = false ∧ AreLive live amount whole state.2)
        (fun state => state.1 = true ∧ (state.2.map amount).sum = whole) expected (whole = 0) := by
    cases left with
    | nil => exact .ended ⟨rfl, hl⟩ hl.symm
    | cons branch others => exact .waiting ⟨rfl, hl ▸ areLive_states hs⟩
  -- a question that brings an item or a pause leaves branches that are steady again
  induction fuel generalizing count branches with
  | zero => exact stopped hw h
  | succ fuel ih =>
    have hasked := hw ▸ hasAsked_askFrom (pick count % branches.length) h
    unfold runAll
    generalize askFrom (pick count % branches.length) branches = asked at hasked
    obtain ⟨beat, left⟩ := asked
    have hleft : total amount left = whole := hasked.total
    rcases beat with _ | (error | change) | _
    · exact stopped hleft (hasked.steady (by simp))
    · have hsum := (sum_map_states left).trans hleft
      exact .failed (hasked.errors error rfl) ⟨rfl, hsum⟩ (by simp) ⟨rfl, hsum⟩
    · have hsteady := hasked.steady (by simp)
      dsimp only
      rw [Run.untilError_cons (by simp)]
      exact .change change ⟨rfl, hleft ▸ areLive_states hsteady⟩ (ih hleft _ hsteady)
    · have hsteady := hasked.steady (by simp)
      dsimp only
      rw [Run.untilError_cons (by simp)]
      exact .pause ⟨rfl, hleft ▸ areLive_states hsteady⟩ (ih hleft _ hsteady)

theorem steady_weave (pick : Nat → Nat) {states : List σ} {runs : List (Run σ)} {whole : Nat}
    (hw : (states.map amount).sum = whole)
    (h : List.Forall₂ (fun state run => IsSteady live kept amount expected ⟨state, run⟩) states runs) :
    (Run.weave pick states runs).untilError.Steady
      (fun state => state.1 = false ∧ AreLive live amount whole state.2)
      (fun state => state.1 = true ∧ (state.2.map amount).sum = whole) expected (whole = 0) := by
  have hbranches : ∀ branch ∈ states.zipWith Branch.mk runs,
      branch.IsSteady live kept amount expected := by
    clear hw
    induction h with
    | nil => simp
    | cons hsteady _ ih => exact List.forall_mem_cons.2 ⟨hsteady, ih⟩
  have hstates : (states.zipWith Branch.mk runs).map state = states := by
    clear hw hbranches
    induction h with
    | nil => rfl
    | cons _ _ ih => exact congrArg _ ih
  refine steady_runAll ?_ pick _ 0 hbranches
  rw [← sum_map_states, hstates, hw]

end

end Branch

end HomeHub
