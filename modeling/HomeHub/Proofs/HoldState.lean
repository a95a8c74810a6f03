import HomeHub.Proofs.Visits

/-!
# States of a held stream

What a held stream with a pure predicate knows of the changes it has drained, and how its answer to
a visit comes from that. The last edge waits until it is returned or refused; nothing else is kept.
-/

namespace HomeHub

namespace Hold

section
variable {p : Option EntityState → Bool} {d : Nat} {earlier visits : List Visit} {visit : Visit}
  {drained : List (Nat × StateChange)} {gone : Nat → Prop} {hold : Hold}

/-- What a hold knows of drained changes of which some have been returned, at a time up to which
edges were refused: the last edge waits, unless it was returned or refused. -/
structure Tracks (p : Option EntityState → Bool) (d now : Nat) (drained : List (Nat × StateChange))
    (gone : Nat → Prop) (hold : Hold) : Prop where
  predicate : hold.predicate = fun _ => p
  duration : hold.duration = d
  gone_isEdge : ∀ place, gone place →
    ∃ taken change, drained[place]? = some (taken, change) ∧ IsEdge p change
  pending : ∀ change due, hold.pending = some (change, due) →
    ∃ place taken, LastEdge p drained place taken change ∧ due = taken + d ∧ ¬ gone place
  decided : hold.pending = none → ∀ place taken change, LastEdge p drained place taken change →
    gone place ∨ p change.new = false ∧ taken + d ≤ now

namespace Tracks

theorem later {now next : Nat} (h : Tracks p d now drained gone hold) (hn : now ≤ next) :
    Tracks p d next drained gone hold :=
  { h with
    decided := fun hp place taken change hl =>
      (h.decided hp place taken change hl).imp_right fun ⟨hf, ht⟩ => ⟨hf, Nat.le_trans ht hn⟩ }

theorem congr {now : Nat} {gone' : Nat → Prop} (h : Tracks p d now drained gone hold)
    (hg : ∀ place, gone place ↔ gone' place) : Tracks p d now drained gone' hold := by
  obtain rfl : gone = gone' := funext fun place => propext (hg place)
  exact h

theorem see {now : Nat} (h : Tracks p d now drained gone hold) (taken : Nat)
    (change : StateChange) :
    Tracks p d now (drained ++ [(taken, change)]) gone (hold.see taken change) := by
  have hpending : (hold.see taken change).pending =
      if IsEdge p change then some (change, taken + d) else hold.pending := by
    by_cases he : p change.old = p change.new <;>
      simp [Hold.see, h.predicate, h.duration, IsEdge, he]
  have hgone : ∀ place, gone place → ∃ taken' change',
      (drained ++ [(taken, change)])[place]? = some (taken', change') ∧ IsEdge p change' :=
    fun place hr => by
      obtain ⟨taken', change', hf, he⟩ := h.gone_isEdge place hr
      exact ⟨taken', change', getElem?_concat_eq_some.2 (.inl hf), he⟩
  have hlength : ¬ gone drained.length := fun hr => by
    obtain ⟨_, _, hf, -⟩ := h.gone_isEdge _ hr
    simp at hf
  by_cases he : IsEdge p change
  · rw [if_pos he] at hpending
    refine ⟨h.predicate, h.duration, hgone, ?_, ?_⟩
    · intro other due hp
      obtain ⟨rfl, rfl⟩ := Prod.mk.inj (Option.some.inj (hpending.symm.trans hp))
      exact ⟨_, _, .concat_edge he, rfl, hlength⟩
    · intro hp
      rw [hpending] at hp
      contradiction
  · rw [if_neg he] at hpending
    refine ⟨h.predicate, h.duration, hgone, ?_, ?_⟩
    · intro other due hp
      obtain ⟨place, taken', hl, hd, hr⟩ := h.pending other due (hpending ▸ hp)
      exact ⟨place, taken', (LastEdge.concat_plain he).2 hl, hd, hr⟩
    · intro hp place taken' other hl
      exact h.decided (hpending ▸ hp) place taken' other ((LastEdge.concat_plain he).1 hl)

theorem seeAll {now : Nat} (h : Tracks p d now drained gone hold) (taken : Nat)
    (batch : List StateChange) :
    Tracks p d now (drained ++ batch.map (taken, ·)) gone (batch.foldl (Hold.see taken) hold) := by
  induction batch generalizing drained hold with
  | nil => simpa using h
  | cons change rest ih => simpa using ih (h.see taken change)

theorem decide_true {now place taken : Nat} {change : StateChange}
    (h : Tracks p d now drained gone hold) (hl : LastEdge p drained place taken change) (asked : Nat) :
    Tracks p d now drained (fun other => gone other ∨ other = place)
      { hold with asked := asked, pending := none } where
  predicate := h.predicate
  duration := h.duration
  gone_isEdge := by
    rintro other (hg | rfl)
    · exact h.gone_isEdge other hg
    · exact ⟨taken, change, hl.found, hl.isEdge⟩
  pending := by simp
  decided := fun _ other _ _ ho => .inl (.inr (hl.unique ho).1)

theorem decide_false {now place taken : Nat} {change : StateChange}
    (h : Tracks p d now drained gone hold) (hl : LastEdge p drained place taken change)
    (hf : p change.new = false) (hd : taken + d ≤ now) (asked : Nat) :
    Tracks p d now drained gone { hold with asked := asked, pending := none } where
  predicate := h.predicate
  duration := h.duration
  gone_isEdge := h.gone_isEdge
  pending := by simp
  decided := fun _ other taken' change' ho => by
    obtain ⟨-, rfl, rfl⟩ := hl.unique ho
    exact .inr ⟨hf, hd⟩

end Tracks

def Settled (p : Option EntityState → Bool) (d now : Nat) (drained : List (Nat × StateChange))
    (gone : Nat → Prop) : Prop :=
  ∀ place taken change, LastEdge p drained place taken change →
    gone place ∨ p change.new = false ∧ taken + d ≤ now

theorem Settled.returned {now place taken : Nat} {change : StateChange}
    (h : Settled p d now drained gone) (hl : LastEdge p drained place taken change)
    (ht : p change.new = true) : gone place := by
  rcases h place taken change hl with hg | ⟨hf, -⟩
  · exact hg
  · simp [ht] at hf

inductive Decision (p : Option EntityState → Bool) (d now : Nat) (drained : List (Nat × StateChange))
    (gone : Nat → Prop) (sourceEnded finished : Bool) : Answer × Hold → Prop where
  | delivered {place taken : Nat} {change : StateChange} {next : Hold}
      (edge : LastEdge p drained place taken change) (due : taken + d ≤ now)
      (holds : p change.new = true) (fresh : ¬ gone place)
      (tracks : Tracks p d now drained (fun other => gone other ∨ other = place) next)
      (hs : next.sourceEnded = sourceEnded) (hf : next.finished = finished) :
      Decision p d now drained gone sourceEnded finished (.item (.ok change), next)
  | ended {next : Hold} (closed : sourceEnded = true) (settled : Settled p d now drained gone)
      (tracks : Tracks p d now drained gone next) (hs : next.sourceEnded = sourceEnded)
      (hp : next.pending = none) :
      Decision p d now drained gone sourceEnded finished (.ended, next)
  | waiting {next : Hold} (more : ¬ (sourceEnded = true ∧ Settled p d now drained gone))
      (none : ∀ place taken change, LastEdge p drained place taken change → taken + d ≤ now →
        p change.new = true → gone place)
      (tracks : Tracks p d now drained gone next) (hs : next.sourceEnded = sourceEnded)
      (hf : next.finished = finished) :
      Decision p d now drained gone sourceEnded finished (.waiting, next)

namespace Tracks

theorem settle {now : Nat} (h : Tracks p d now drained gone hold)
    (hw : ∀ change due, hold.pending = some (change, due) → now < due) :
    Decision p d now drained gone hold.sourceEnded hold.finished hold.settle := by
  have hnone : ∀ place taken change, LastEdge p drained place taken change → taken + d ≤ now →
      p change.new = true → gone place := by
    intro place taken change hl hd ht
    cases hp : hold.pending with
    | none => exact Settled.returned (h.decided hp) hl ht
    | some waiting =>
      obtain ⟨other, taken', hl', hd', -⟩ := h.pending _ _ hp
      obtain ⟨-, rfl, -⟩ := hl'.unique hl
      have := hw _ _ hp
      omega
  unfold Hold.settle
  cases hs : hold.sourceEnded with
  | false => exact .waiting (by simp) hnone h hs rfl
  | true =>
    cases hp : hold.pending with
    | none =>
      refine .ended rfl (h.decided hp) ?_ rfl rfl
      exact ⟨h.predicate, h.duration, h.gone_isEdge, by simp, fun _ => h.decided hp⟩
    | some waiting =>
      refine .waiting (fun hsettled => ?_) hnone h hs rfl
      obtain ⟨place, taken, hl, hd, hg⟩ := h.pending _ _ hp
      have := hw _ _ hp
      rcases hsettled.2 _ _ _ hl with hg' | ⟨-, hd'⟩
      · exact hg hg'
      · omega

theorem expire {now : Nat} (h : Tracks p d now drained gone hold) :
    Decision p d now drained gone hold.sourceEnded hold.finished (hold.expire now) := by
  unfold Hold.expire
  cases hp : hold.pending with
  | none => exact h.settle (by simp [hp])
  | some waiting =>
    obtain ⟨change, due⟩ := waiting
    obtain ⟨place, taken, hl, rfl, hg⟩ := h.pending change due hp
    have hq : hold.predicate hold.asked change.new = p change.new := by rw [h.predicate]
    by_cases hd : taken + d ≤ now
    · cases ht : p change.new with
      | true =>
        simp only [hd, hq, ht, if_true]
        exact .delivered hl hd ht hg (h.decide_true hl _) rfl rfl
      | false =>
        simp only [hd, hq, ht, if_true, Bool.false_eq_true, if_false]
        exact (h.decide_false hl ht hd _).settle (by simp)
    · simp only [hd, if_false]
      refine h.settle fun other due ho => ?_
      obtain ⟨rfl, rfl⟩ := Prod.mk.inj (Option.some.inj (hp.symm.trans ho))
      omega

end Tracks

inductive Follows (p : Option EntityState → Bool) (d now : Nat) (drained : List (Nat × StateChange))
    (gone : Nat → Prop) : Ending → Hold → Prop where
  | waiting {hold : Hold} (tracks : Tracks p d now drained gone hold)
      (hs : hold.sourceEnded = false) (hf : hold.finished = false) :
      Follows p d now drained gone .waiting hold
  | ended {hold : Hold} (tracks : Tracks p d now drained gone hold) (hs : hold.sourceEnded = true)
      (hf : hold.finished = true → hold.pending = none) :
      Follows p d now drained gone .ended hold
  | failed {hold : Hold} {error : HubError} (hf : hold.finished = true) :
      Follows p d now drained gone (.failed error) hold

theorem Follows.later {now next : Nat} {ending : Ending}
    (h : Follows p d now drained gone ending hold) (hn : now ≤ next) :
    Follows p d next drained gone ending hold := by
  cases h with
  | waiting tracks hs hf => exact .waiting (tracks.later hn) hs hf
  | ended tracks hs hf => exact .ended (tracks.later hn) hs hf
  | failed hf => exact .failed hf

/-- How a visit goes, by how the source had ended before it and has ended with it. -/
inductive Response (p : Option EntityState → Bool) (d now : Nat) (drained : List (Nat × StateChange))
    (gone : Nat → Prop) : Ending → Ending → Answer × Hold → Prop where
  | silent {next : Hold} {error : HubError} (hf : next.finished = true) :
      Response p d now drained gone (.failed error) (.failed error) (.ended, next)
  | failed {next : Hold} {error : HubError} (hf : next.finished = true) :
      Response p d now drained gone .waiting (.failed error) (.item (.error error), next)
  | done {next : Hold} (tracks : Tracks p d now drained gone next) (hs : next.sourceEnded = true)
      (hp : next.pending = none) :
      Response p d now drained gone .ended .ended (.ended, next)
  | decided {before ending : Ending} {result : Answer × Hold}
      (hb : ∀ error, before ≠ .failed error) (he : ∀ error, ending ≠ .failed error)
      (decision : Decision p d now drained gone (ending == .ended) false result) :
      Response p d now drained gone before ending result

theorem finished_seeAll (now : Nat) (hold : Hold) (batch : List StateChange) :
    (batch.foldl (see now) hold).finished = hold.finished := by
  induction batch generalizing hold with
  | nil => rfl
  | cons change rest ih => exact ih (hold.see now change)

theorem Tracks.drain (h : Tracks p d visit.now drained gone hold) (hs : hold.sourceEnded = false) :
    Tracks p d visit.now (drained ++ visit.batch.map (visit.now, ·)) gone
      (hold.drain visit.now visit.batch visit.ending) := by
  obtain ⟨hp, hd, hg, hw, hn⟩ := h.seeAll visit.now visit.batch
  simp only [Hold.drain, hs, Bool.false_eq_true, if_false]
  exact ⟨hp, hd, hg, hw, hn⟩

theorem Follows.response {ending : Ending} (h : Follows p d visit.now drained gone ending hold) :
    Response p d visit.now
      (drained ++ if ending = .waiting then visit.batch.map (visit.now, ·) else []) gone ending
      (if ending = .waiting then visit.ending else ending) (hold.visit visit) := by
  cases h with
  | waiting tracks hs hf =>
    have hdrain := tracks.drain hs
    have hf' : (hold.drain visit.now visit.batch visit.ending).finished = false := by
      simp only [drain, hs, Bool.false_eq_true, if_false]
      rw [finished_seeAll, hf]
    have hs' : (hold.drain visit.now visit.batch visit.ending).sourceEnded =
        (visit.ending == .ended) := by
      simp [drain, hs]
    have hdecided := hdrain.expire
    rw [hf', hs'] at hdecided
    simp only [if_true, Hold.visit, poll, hf, hs, Bool.false_eq_true, if_false]
    -- an error is passed on before anything is decided
    cases he : visit.ending <;> rw [he] at hdecided
    case failed error => exact .failed rfl
    all_goals exact .decided (by simp) (by simp) hdecided
  | ended tracks hs hf =>
    simp only [reduceCtorEq, if_false, List.append_nil, Hold.visit, poll]
    cases hd : hold.finished with
    | true => exact .done tracks hs (hf hd)
    | false =>
      have hdecided := tracks.expire
      rw [hs, hd] at hdecided
      simp only [Bool.false_eq_true, if_false, hs, drain, if_true]
      exact .decided (by simp) (by simp) hdecided
  | failed hf =>
    simp only [reduceCtorEq, if_false, List.append_nil, Hold.visit, poll, hf, if_true]
    exact .silent hf

/-- The places that are returned with an answer to a visit. -/
def GoneWith (p : Option EntityState → Bool) (drained : List (Nat × StateChange))
    (gone : Nat → Prop) (answer : Answer) (place : Nat) : Prop :=
  gone place ∨ ∃ taken change, answer = .item (.ok change) ∧ LastEdge p drained place taken change

theorem goneWith_of_ne {answer : Answer} (ha : ∀ change, answer ≠ .item (.ok change)) (place : Nat) :
    gone place ↔ GoneWith p drained gone answer place :=
  ⟨.inl, fun h => h.resolve_right fun ⟨_, change, heq, _⟩ => ha change heq⟩

theorem goneWith_of_lastEdge {place taken : Nat} {change : StateChange}
    (hl : LastEdge p drained place taken change) (other : Nat) :
    gone other ∨ other = place ↔ GoneWith p drained gone (.item (.ok change)) other := by
  refine or_congr_right ⟨?_, ?_⟩
  · rintro rfl
    exact ⟨taken, change, rfl, hl⟩
  · rintro ⟨_, _, -, ho⟩
    exact (hl.unique ho).1

theorem Response.follows {now : Nat} {before ending : Ending} {result : Answer × Hold}
    (h : Response p d now drained gone before ending result) :
    Follows p d now drained (GoneWith p drained gone result.1) ending result.2 := by
  cases h with
  | silent hf => exact .failed hf
  | failed hf => exact .failed hf
  | done tracks hs hp => exact .ended (tracks.congr (goneWith_of_ne (by simp))) hs fun _ => hp
  | decided hb he decision =>
    -- the flag in the decision is that of the ending, which rules out the end of an open source
    cases ending with
    | failed error => exact (he error rfl).elim
    | waiting =>
      cases decision with
      | delivered edge due holds fresh tracks hs hf =>
        exact .waiting (tracks.congr (goneWith_of_lastEdge edge)) hs hf
      | ended closed => simp at closed
      | waiting more none tracks hs hf =>
        exact .waiting (tracks.congr (goneWith_of_ne (by simp))) hs hf
    | ended =>
      cases decision with
      | delivered edge due holds fresh tracks hs hf =>
        exact .ended (tracks.congr (goneWith_of_lastEdge edge)) hs (by simp [hf])
      | ended closed settled tracks hs hp =>
        exact .ended (tracks.congr (goneWith_of_ne (by simp))) hs fun _ => hp
      | waiting more none tracks hs hf =>
        exact .ended (tracks.congr (goneWith_of_ne (by simp))) hs (by simp [hf])

def IsOver (hold : Hold) : Prop :=
  hold.finished = true ∨ hold.sourceEnded = true ∧ hold.pending = none

-- ---------------------------------------------------------------------------
-- Answers
-- ---------------------------------------------------------------------------

section
variable {now : Nat} {before ending : Ending} {result : Answer × Hold}

theorem Response.item_iff (h : Response p d now drained gone before ending result)
    {change : StateChange} :
    result.1 = .item (.ok change) ↔ (∀ error, ending ≠ .failed error) ∧
      ∃ place taken, LastEdge p drained place taken change ∧ p change.new = true ∧
        taken + d ≤ now ∧ ¬ gone place := by
  cases h with
  | silent hf => simp
  | failed hf => simp
  | done tracks hs hp =>
    refine iff_of_false (by simp) ?_
    rintro ⟨-, place, taken, hl, ht, -, hg⟩
    exact hg (Settled.returned (tracks.decided hp) hl ht)
  | decided hb he decision =>
    cases decision with
    | delivered edge due holds fresh =>
      constructor
      · intro heq
        cases heq
        exact ⟨he, _, _, edge, holds, due, fresh⟩
      · rintro ⟨-, place, taken, hl, -⟩
        rw [(edge.unique hl).2.2]
    | ended closed settled =>
      refine iff_of_false (by simp) ?_
      rintro ⟨-, place, taken, hl, ht, -, hg⟩
      exact hg (settled.returned hl ht)
    | waiting more none =>
      refine iff_of_false (by simp) ?_
      rintro ⟨-, place, taken, hl, ht, hd, hg⟩
      exact hg (none _ _ _ hl hd ht)

theorem Response.error_iff (h : Response p d now drained gone before ending result)
    {error : HubError} :
    result.1 = .item (.error error) ↔ before = .waiting ∧ ending = .failed error := by
  cases h with
  | silent hf => simp
  | failed hf => simp
  | done tracks hs hp => simp
  | decided hb he decision =>
    refine iff_of_false ?_ fun ⟨_, heq⟩ => he error heq
    cases decision <;> simp

theorem Response.ended_iff (h : Response p d now drained gone before ending result) :
    result.1 = .ended ↔ (∃ error, before = .failed error) ∨
      ending = .ended ∧ Settled p d now drained gone := by
  cases h with
  | silent hf => simp
  | failed hf => simp
  | done tracks hs hp => exact iff_of_true rfl (.inr ⟨rfl, tracks.decided hp⟩)
  | decided hb he decision =>
    have hb' : ¬ ∃ error, before = .failed error := fun ⟨error, heq⟩ => hb error heq
    cases decision with
    | delivered edge due holds fresh =>
      refine iff_of_false (by simp) ?_
      rintro (hf | ⟨-, settled⟩)
      · exact hb' hf
      · exact fresh (settled.returned edge holds)
    | ended closed settled => exact iff_of_true rfl (.inr ⟨by simpa using closed, settled⟩)
    | waiting more none =>
      refine iff_of_false (by simp) ?_
      rintro (hf | ⟨heq, settled⟩)
      · exact hb' hf
      · exact more ⟨by simp [heq], settled⟩

theorem Response.isOver (h : Response p d now drained gone before ending result)
    (ha : result.1 = .ended ∨ ∃ error, result.1 = .item (.error error)) : result.2.IsOver := by
  cases h with
  | silent hf => exact .inl hf
  | failed hf => exact .inl hf
  | done tracks hs hp => exact .inr ⟨hs, hp⟩
  | decided hb he decision =>
    cases decision with
    | delivered => simp at ha
    | ended closed settled tracks hs hp => exact .inr ⟨hs.trans closed, hp⟩
    | waiting => simp at ha

end

end

theorem visit_of_isOver {hold : Hold} (h : hold.IsOver) (visit : Visit) :
    (hold.visit visit).1 = .ended ∧ (hold.visit visit).2.IsOver := by
  unfold Hold.visit poll
  by_cases hf : hold.finished = true
  · rw [if_pos hf]
    exact ⟨rfl, .inl hf⟩
  · obtain ⟨hs, hp⟩ := h.resolve_left hf
    simp [hf, drain, hs, expire, hp, settle, IsOver]

theorem answers_of_isOver {hold : Hold} (h : hold.IsOver) (visits : List Visit) :
    ∀ answer ∈ hold.answers visits, answer = .ended := by
  induction visits generalizing hold with
  | nil => simp [answers]
  | cons visit rest ih =>
    obtain ⟨ha, hn⟩ := visit_of_isOver h visit
    exact List.forall_mem_cons.2 ⟨ha, ih hn⟩

end Hold

end HomeHub
