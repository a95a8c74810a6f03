import HomeHub.Proofs.Reader
import HomeHub.Proofs.Visits

/-!
# Readers that are held

A hold in front of the reader of one entity. A poll of both is one visit to the hold: the reader gives
all it has, the hold takes that in as one batch and answers. If the reader has lagged, so that a batch
would have a gap, the hold is told so and is over.
-/

namespace HomeHub

def Answer.items : Answer → List Item
  | .item given => [given]
  | _ => []

theorem Answer.change?_of_mem_items {answer : Answer} {change : StateChange}
    (h : .ok change ∈ answer.items) : answer = .item (.ok change) := by
  cases answer with
  | item given => rw [List.mem_singleton.1 h]
  | _ => simp [items] at h

-- ---------------------------------------------------------------------------
-- Visits in one instant
-- ---------------------------------------------------------------------------

namespace Hold

variable {hold next : Hold} {now : Nat}

structure IsOpen (hold : Hold) : Prop where
  source : hold.sourceEnded = false
  unfinished : hold.finished = false

theorem IsOpen.see (h : hold.IsOpen) (now : Nat) (change : StateChange) :
    (hold.see now change).IsOpen := ⟨h.source, h.unfinished⟩

theorem IsOpen.drain (h : hold.IsOpen) (now : Nat) (batch : List StateChange) :
    (hold.drain now batch .waiting).IsOpen := by
  have hf : (batch.foldl (Hold.see now) hold).IsOpen := by
    induction batch generalizing hold with
    | nil => exact h
    | cons change rest ih => exact ih (h.see now change)
  simp only [Hold.drain, h.source, Bool.false_eq_true, if_false]
  exact ⟨rfl, hf.unfinished⟩

theorem IsOpen.expire (h : hold.IsOpen) (now : Nat) : (hold.expire now).2.IsOpen ∧
    ((hold.expire now).1 = .waiting ∨
      ∃ change, (hold.expire now).1 = .item (.ok change) ∧ (hold.expire now).2.pending = none) := by
  have hsettle {other : Hold} (ho : other.IsOpen) : other.settle = (.waiting, other) := by
    simp [settle, ho.source]
  unfold Hold.expire
  cases hold.pending with
  | none => exact ⟨(hsettle h).symm ▸ h, .inl (hsettle h ▸ rfl)⟩
  | some waiting =>
    obtain ⟨change, due⟩ := waiting
    have hdecided : { hold with asked := hold.asked + 1, pending := none }.IsOpen :=
      ⟨h.source, h.unfinished⟩
    simp only
    split
    · split
      · exact ⟨hdecided, .inr ⟨change, rfl, rfl⟩⟩
      · exact ⟨(hsettle hdecided).symm ▸ hdecided, .inl (hsettle hdecided ▸ rfl)⟩
    · exact ⟨(hsettle h).symm ▸ h, .inl (hsettle h ▸ rfl)⟩

theorem IsOpen.poll (h : hold.IsOpen) (now : Nat) (batch : List StateChange) :
    hold.poll now batch .waiting = (hold.drain now batch .waiting).expire now := by
  simp [Hold.poll, h.unfinished, h.source]

theorem IsOpen.poll_idle (h : hold.IsOpen) (hp : hold.pending = none) (now : Nat) :
    hold.poll now [] .waiting = (.waiting, hold) := by
  have hdrain : hold.drain now [] .waiting = hold := by
    have hs := h.source
    cases hold
    simp_all [Hold.drain]
  rw [h.poll, hdrain, Hold.expire, hp]
  simp [settle, h.source]

end Hold

-- ---------------------------------------------------------------------------
-- The run of a held stretch
-- ---------------------------------------------------------------------------

namespace Run

variable {σ : Type} {hold : Hold}

theorem holdSteps_stretch (now : Nat) (rest : σ) (keep : StateChange → Bool) (state : Nat → σ)
    (changes batch : List StateChange) (behind : Nat) :
    holdSteps now .waiting rest hold batch (stretchSteps keep state changes behind) =
      holdSteps now .waiting rest hold (batch ++ changes.filter keep) [] := by
  induction changes generalizing batch behind with
  | nil => simp [stretchSteps]
  | cons change others ih =>
    rw [stretchSteps_cons]
    cases hk : keep change with
    | false => simpa [hk] using ih batch (behind + 1)
    | true => simpa [hk, holdSteps] using ih (batch ++ [change]) (behind + 1)

theorem holdSteps_nil (h : hold.IsOpen) (now : Nat) (rest : σ) (batch : List StateChange) :
    holdSteps now .waiting rest hold batch [] =
      ⟨(hold.poll now batch .waiting).1.items.map fun item =>
          (.item item, (hold.poll now batch .waiting).2, rest),
        ((hold.poll now batch .waiting).2, rest), false⟩ := by
  rw [holdSteps, h.poll]
  obtain ⟨hnext, ha | ⟨change, ha, hp⟩⟩ := (h.drain now batch).expire now
  · generalize (hold.drain now batch .waiting).expire now = result at hnext ha ⊢
    obtain ⟨answer, next⟩ := result
    obtain rfl : answer = .waiting := ha
    rfl
  · have hidle := hnext.poll_idle hp now
    generalize (hold.drain now batch .waiting).expire now = result at hnext ha hp hidle ⊢
    obtain ⟨answer, next⟩ := result
    obtain rfl : answer = .item (.ok change) := ha
    simp only [hidle]
    rfl

end Run

-- ---------------------------------------------------------------------------
-- Polls
-- ---------------------------------------------------------------------------

namespace Stream

section
variable {instant : Instant} {slot : Nat} {bus : Bus} {entityId : String} {cursor : Nat} {hold : Hold}
  {limit : Option Nat}

/-- A poll of a held reader that has not lagged is a visit with all the entity has behind the cursor. -/
theorem poll_held (entityId : String) (h : hold.IsOpen) (hb : instant.buses[slot]? = some bus)
    (ho : instant.closed slot = false) (hc : cursor ≤ bus.log.length) (hl : bus.lost cursor = 0)
    (hlimit : limit ≠ some 0) :
    ∃ status, (Stream.hold hold (.ofEntity slot cursor entityId)).poll instant limit =
      ((hold.visit ⟨instant.now, (bus.log.drop cursor).filter (·.entityId == entityId),
          .waiting⟩).1.items,
        status,
        .hold (hold.visit ⟨instant.now, (bus.log.drop cursor).filter (·.entityId == entityId),
          .waiting⟩).2 (.ofEntity slot bus.log.length entityId)) := by
  simp only [poll, run, run_ofEntity hb ho hc hl, Run.hold, h.unfinished, h.source,
    Bool.false_eq_true, if_false, Run.holdSteps_stretch, Run.holdSteps_nil h, List.nil_append,
    Run.take, Run.map, Hold.visit, List.map_map]
  generalize hold.poll _ _ _ = result
  obtain ⟨answer, next⟩ := result
  cases answer with
  | item item =>
    refine ⟨if limit.map (· - 1) = some 0 then .full else .waiting, ?_⟩
    simp only [Answer.items, List.map_cons, List.map_nil, Function.comp_apply,
      Run.takeSteps_item hlimit]
    by_cases hz : limit.map (· - 1) = some 0
    · simp only [hz, Run.takeSteps_zero, if_true]
    · simp only [Run.takeSteps_nil hz, hz, if_false, Bool.false_eq_true]
  | waiting => exact ⟨.waiting, by simp [Answer.items, Run.takeSteps_nil hlimit]⟩
  | ended => exact ⟨.waiting, by simp [Answer.items, Run.takeSteps_nil hlimit]⟩

theorem poll_held_lagged (entityId : String) (h : hold.IsOpen) (hb : instant.buses[slot]? = some bus)
    (ho : instant.closed slot = false) (hl : bus.lost cursor ≠ 0) (hlimit : limit ≠ some 0) :
    ∃ status next source, next.finished = true ∧
      (Stream.hold hold (.ofEntity slot cursor entityId)).poll instant limit =
        ([.error (.bus (.lagged (bus.lost cursor)))], status, .hold next source) := by
  obtain ⟨source, hrun⟩ := run_ofEntity_lagged entityId hb ho hl
  have hp : (hold.poll instant.now [] (.failed (.bus (.lagged (bus.lost cursor))))).2.finished = true := by
    simp [Hold.poll, h.unfinished, h.source]
  refine ⟨if limit.map (· - 1) = some 0 then .full else .ended, _, .untilError true source, hp, ?_⟩
  simp only [poll, run, Run.hold, h.unfinished, h.source, hrun, Bool.false_eq_true, if_false,
    Run.holdSteps, Run.cons, Run.map, List.map_cons, List.map_nil, Run.take, Run.takeSteps_item hlimit]
  by_cases hz : limit.map (· - 1) = some 0
  · simp only [hz, Run.takeSteps_zero, if_true]
  · simp only [Run.takeSteps_nil hz, hz, if_false, if_true]

theorem poll_held_finished (instant : Instant) (h : hold.finished = true) (source : Stream)
    (hlimit : limit ≠ some 0) :
    (Stream.hold hold source).poll instant limit = ([], .ended, .hold hold source) := by
  simp only [poll, run, Run.hold, h, if_true, Run.map, List.map_nil, Run.take,
    Run.takeSteps_nil hlimit]

end

end Stream

end HomeHub
