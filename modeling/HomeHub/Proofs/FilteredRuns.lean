import HomeHub.Proofs.ClosingRuns

/-!
# Runs behind a filter

A filter leaves out steps of the run of its source. So whoever polls a filtered stream polls the source,
only with another limit, and is not given what the filter keeps back.
-/

namespace HomeHub

def passing (keep : StateChange → Bool) (items : List Item) : List Item :=
  items.filter fun item => (Beat.item item).passes keep

theorem passing_append (keep : StateChange → Bool) (first second : List Item) :
    passing keep (first ++ second) = passing keep first ++ passing keep second :=
  List.filter_append ..

theorem passing_map_ok (keep : StateChange → Bool) (changes : List StateChange) :
    passing keep (changes.map .ok) = (changes.filter keep).map .ok := by
  rw [passing, List.filter_map]
  rfl

namespace Run

variable {σ τ : Type}

def sparedSteps (keep : StateChange → Bool) (f : σ → τ) (steps : List (Beat × σ)) : List (Beat × τ) :=
  (steps.filter fun (beat, _) => beat.passes keep).map fun (beat, state) => (beat, f state)

section
variable {keep : StateChange → Bool} {beat : Beat}

theorem sparedSteps_cons_pos (h : beat.passes keep = true) (f : σ → τ) (state : σ)
    (steps : List (Beat × σ)) :
    sparedSteps keep f ((beat, state) :: steps) = (beat, f state) :: sparedSteps keep f steps := by
  simp [sparedSteps, h]

theorem sparedSteps_cons_neg (h : beat.passes keep = false) (f : σ → τ) (state : σ)
    (steps : List (Beat × σ)) :
    sparedSteps keep f ((beat, state) :: steps) = sparedSteps keep f steps := by
  simp [sparedSteps, h]

end

/-- Whoever asks for an item does not come back to the state from which it asked. -/
theorem takeSteps_congr_start {limit : Option Nat} (hl : limit ≠ some 0) (ended : Bool)
    (rest start other : σ) (steps : List (Beat × σ)) :
    takeSteps ended rest limit start steps = takeSteps ended rest limit other steps := by
  cases steps with
  | nil => rw [takeSteps_nil hl, takeSteps_nil hl]
  | cons step steps =>
    obtain ⟨beat, state⟩ := step
    cases beat with
    | pause => rw [takeSteps_pause hl, takeSteps_pause hl]
    | item item => rw [takeSteps_item hl, takeSteps_item hl]

theorem takeSteps_sparedSteps (keep : StateChange → Bool) (f : σ → τ) (ended : Bool) (rest start : σ)
    (limit : Option Nat) (steps : List (Beat × σ)) :
    ∃ asked items status last, takeSteps ended rest asked start steps = (items, status, last) ∧
      takeSteps ended (f rest) limit (f start) (sparedSteps keep f steps) =
        (passing keep items, status, f last) := by
  induction steps generalizing limit start with
  | nil =>
    by_cases hl : limit = some 0
    · refine ⟨some 0, [], .full, start, takeSteps_zero .., ?_⟩
      rw [hl, takeSteps_zero, passing, List.filter_nil]
    · refine ⟨none, [], _, rest, takeSteps_nil (by simp) .., ?_⟩
      exact takeSteps_nil hl ..
  | cons step steps ih =>
    by_cases hl : limit = some 0
    · refine ⟨some 0, [], .full, start, takeSteps_zero .., ?_⟩
      rw [hl, takeSteps_zero, passing, List.filter_nil]
    obtain ⟨beat, state⟩ := step
    cases beat with
    | pause =>
      rw [sparedSteps_cons_pos rfl, takeSteps_pause hl]
      exact ⟨none, [], .waiting, state, takeSteps_pause (by simp) .., rfl⟩
    | item item =>
      -- the source is asked for this item, too, whether or not it passes
      have hmore (asked : Option Nat) : takeSteps ended rest (asked.map (· + 1)) start
          ((.item item, state) :: steps) =
            (item :: (takeSteps ended rest asked state steps).1,
              (takeSteps ended rest asked state steps).2) := by
        have hl : asked.map (· + 1) ≠ some 0 := by simp
        rw [takeSteps_item hl, Option.map_map]
        simp [Function.comp_def]
      cases hk : (Beat.item item).passes keep with
      | true =>
        obtain ⟨asked, items, status, last, hs, hf⟩ := ih state (limit.map (· - 1))
        refine ⟨asked.map (· + 1), item :: items, status, last, by rw [hmore, hs], ?_⟩
        rw [sparedSteps_cons_pos hk, takeSteps_item hl, hf, passing, passing, List.filter_cons_of_pos]
        exact hk
      | false =>
        obtain ⟨asked, items, status, last, hs, hf⟩ := ih state limit
        refine ⟨asked.map (· + 1), item :: items, status, last, by rw [hmore, hs], ?_⟩
        rw [sparedSteps_cons_neg hk, passing, List.filter_cons_of_neg (by simp [hk]), ← passing, ← hf]
        exact takeSteps_congr_start hl ..

end Run

namespace Stream

/-- To poll a filtered stream is to poll its source for perhaps more items, of which some are left out. -/
theorem poll_filter (keep : StateChange → Bool) (source : Stream) (instant : Instant)
    (limit : Option Nat) :
    ∃ asked items status next, source.poll instant asked = (items, status, next) ∧
      (filter keep source).poll instant limit =
        (passing keep items, status, .filter keep next) :=
  Run.takeSteps_sparedSteps keep (Stream.filter keep) _ _ source limit _

end Stream

end HomeHub
