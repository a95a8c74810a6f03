import HomeHub.Stream.Basic
import Mathlib.Data.List.Basic

/-!
# Readers of one entity

A reader that wants the changes of one entity stands at some place of the log of a bus. A poll takes it
over a stretch of the log and gives what the stretch has of the entity, or tells that too much has
been missed.
-/

namespace HomeHub

-- ---------------------------------------------------------------------------
-- The window of a bus
-- ---------------------------------------------------------------------------

/-- The window of a bus is the least power of two that is no less than its capacity. -/
theorem Bus.window_isLeast (bus : Bus) :
    (∃ exponent, bus.window = twoTo exponent) ∧ bus.capacity ≤ bus.window ∧
      ∀ exponent, bus.capacity ≤ twoTo exponent → bus.window ≤ twoTo exponent := by
  unfold window
  by_cases h : bus.capacity ≤ 1
  · rw [if_pos h]
    exact ⟨⟨0, rfl⟩, h, fun exponent _ => twoTo_pos exponent⟩
  · rw [if_neg h]
    refine ⟨⟨_, rfl⟩, ?_, fun exponent he => ?_⟩
    · have hlt : bus.capacity - 1 < twoTo ((bus.capacity - 1).log2 + 1) := Nat.lt_log2_self
      omega
    · have hlt : bus.capacity - 1 < twoTo exponent := by omega
      exact Nat.pow_le_pow_right (by decide) ((Nat.log2_lt (by omega)).2 hlt)

-- ---------------------------------------------------------------------------
-- Taking the steps of a stretch
-- ---------------------------------------------------------------------------

section
variable {σ τ : Type}

/-- The steps over a stretch of a log, with the state behind each change that is kept. -/
def stretchSteps (keep : StateChange → Bool) (state : Nat → σ) (changes : List StateChange)
    (behind : Nat) : List (Beat × σ) :=
  ((changes.zipIdx behind).filter fun (change, _) => keep change).map fun (change, behind) =>
    (.item (.ok change), state behind)

theorem stretchSteps_cons (keep : StateChange → Bool) (state : Nat → σ) (change : StateChange)
    (rest : List StateChange) (behind : Nat) :
    stretchSteps keep state (change :: rest) behind =
      if keep change then (.item (.ok change), state behind) :: stretchSteps keep state rest (behind + 1)
      else stretchSteps keep state rest (behind + 1) := by
  by_cases h : keep change <;> simp [stretchSteps, List.zipIdx_cons, h]

theorem filter_stretch (keep : StateChange → Bool) (state : Nat → σ) (changes : List StateChange)
    (behind : Nat) (rest : σ) (ended : Bool) :
    (Run.mk (stretchSteps (fun _ => true) state changes behind) rest ended).filter keep =
      ⟨stretchSteps keep state changes behind, rest, ended⟩ := by
  simp only [Run.filter, stretchSteps, List.filter_true, List.filter_map]
  rfl

theorem map_stretch (f : σ → τ) (keep : StateChange → Bool) (state : Nat → σ)
    (changes : List StateChange) (behind : Nat) (rest : σ) (ended : Bool) :
    (Run.mk (stretchSteps keep state changes behind) rest ended).map f =
      ⟨stretchSteps keep (fun place => f (state place)) changes behind, f rest, ended⟩ := by
  simp only [Run.map, stretchSteps, List.map_map]
  rfl

theorem untilError_stretch (keep : StateChange → Bool) (state : Nat → σ) (changes : List StateChange)
    (behind : Nat) (rest : σ) (ended : Bool) :
    (Run.mk (stretchSteps keep state changes behind) rest ended).untilError =
      ⟨stretchSteps keep (fun place => (false, state place)) changes behind, (ended, rest), ended⟩ := by
  have hcut : Run.cutSteps (stretchSteps keep state changes behind) =
      (stretchSteps keep (fun place => (false, state place)) changes behind, none) := by
    induction changes generalizing behind with
    | nil => rfl
    | cons change rest ih =>
      rw [stretchSteps_cons, stretchSteps_cons]
      cases hk : keep change with
      | false => exact ih (behind + 1)
      | true => simp only [if_true, Run.cutSteps, ih]
  simp only [Run.untilError, hcut]

theorem Run.takeSteps_zero (ended : Bool) (rest start : σ) (steps : List (Beat × σ)) :
    takeSteps ended rest (some 0) start steps = ([], .full, start) := by
  simp [takeSteps]

theorem Run.takeSteps_nil {limit : Option Nat} (hl : limit ≠ some 0) (ended : Bool) (rest start : σ) :
    takeSteps ended rest limit start [] = ([], if ended then .ended else .waiting, rest) := by
  cases limit with
  | none => rfl
  | some n =>
    cases n with
    | zero => exact (hl rfl).elim
    | succ n => rfl

theorem Run.takeSteps_item {limit : Option Nat} (hl : limit ≠ some 0) (ended : Bool)
    (rest start state : σ) (item : Item) (steps : List (Beat × σ)) :
    takeSteps ended rest limit start ((.item item, state) :: steps) =
      (item :: (takeSteps ended rest (limit.map (· - 1)) state steps).1,
        (takeSteps ended rest (limit.map (· - 1)) state steps).2) := by
  cases limit with
  | none => rfl
  | some n =>
    cases n with
    | zero => exact (hl rfl).elim
    | succ n => rfl

/-- Taking from the steps of a stretch stops behind some change and gives what is kept up to there.
The state to return to without a further item lies in front of changes that are not kept. -/
theorem takeSteps_stretch (keep : StateChange → Bool) (state : Nat → σ) (changes : List StateChange)
    {skipped : List StateChange} (hskip : ∀ change ∈ skipped, keep change = false)
    (cursor : Nat) (limit : Option Nat) :
    ∃ count status, count ≤ (skipped ++ changes).length ∧
      Run.takeSteps false (state (cursor + (skipped ++ changes).length)) limit (state cursor)
          (stretchSteps keep state changes (cursor + skipped.length + 1)) =
        ((((skipped ++ changes).take count).filter keep).map .ok, status, state (cursor + count)) ∧
      status ≠ .ended ∧ (status = .waiting → count = (skipped ++ changes).length) := by
  -- a change that is not kept joins those in front, a kept one is given and leaves none in front
  induction changes generalizing skipped cursor limit with
  | nil =>
    by_cases hl : limit = some 0
    · exact ⟨0, .full, Nat.zero_le _, by simp [hl, Run.takeSteps_zero], by simp, by simp⟩
    · have hnone : skipped.filter keep = [] := List.filter_eq_nil_iff.2 (by simpa using hskip)
      refine ⟨skipped.length, .waiting, by simp, ?_, by simp, by simp⟩
      simp [stretchSteps, Run.takeSteps_nil hl, hnone]
  | cons change rest ih =>
    by_cases hl : limit = some 0
    · exact ⟨0, .full, Nat.zero_le _, by simp [hl, Run.takeSteps_zero], by simp, by simp⟩
    rw [stretchSteps_cons]
    cases hk : keep change with
    | false =>
      have hskip' : ∀ other ∈ skipped ++ [change], keep other = false := by
        simpa [or_imp, forall_and, hk] using hskip
      simpa [Nat.add_assoc] using ih hskip' cursor limit
    | true =>
      have hnone : skipped.filter keep = [] := List.filter_eq_nil_iff.2 (by simpa using hskip)
      have hstart : ∀ other ∈ ([] : List StateChange), keep other = false := by simp
      obtain ⟨count, status, hc, ht, hs, hw⟩ :=
        ih hstart (cursor + skipped.length + 1) (limit.map (· - 1))
      have hlength : cursor + (skipped ++ change :: rest).length =
          cursor + skipped.length + 1 + rest.length := by
        simp
        omega
      have htake : (skipped ++ change :: rest).take (skipped.length + 1 + count) =
          skipped ++ change :: rest.take count := by
        rw [Nat.add_assoc, List.take_length_add_append, Nat.add_comm 1, List.take_succ_cons]
      refine ⟨skipped.length + 1 + count, status, ?_, ?_, hs, fun h => ?_⟩
      · simp at hc ⊢
        omega
      · simp only [List.nil_append, List.length_nil, Nat.add_zero] at ht
        have hstate : cursor + (skipped.length + 1 + count) = cursor + skipped.length + 1 + count := by
          omega
        simp only [if_true, Run.takeSteps_item hl, hlength, hstate, ht, htake, List.filter_append,
          hnone, List.filter_cons_of_pos hk, List.nil_append, List.map_cons]
      · have := hw h
        simp at this ⊢
        omega

end

-- ---------------------------------------------------------------------------
-- Polls of a reader
-- ---------------------------------------------------------------------------

namespace Stream

section
variable {instant : Instant} {slot : Nat} {bus : Bus} {entityId : String} {cursor : Nat}

theorem feedRun_of_lost_eq_zero (hb : instant.buses[slot]? = some bus)
    (ho : instant.closed slot = false) (hc : cursor ≤ bus.log.length) (hl : bus.lost cursor = 0) :
    feedRun instant slot true cursor =
      ⟨stretchSteps (fun _ => true) (.feed slot true) (bus.log.drop cursor) (cursor + 1),
        .feed slot true bus.log.length, false⟩ := by
  have hread : bus.read cursor = ((bus.log.drop cursor).zipIdx (cursor + 1)).map
      fun (change, behind) => (.ok change, behind) := by
    simp [Bus.read, hl]
  have hlast : (((bus.read cursor).getLast?.map (·.2)).getD cursor) = bus.log.length := by
    rw [hread, List.getLast?_map, List.getLast?_zipIdx, List.length_drop]
    cases hlast : (bus.log.drop cursor).getLast? with
    | none =>
      have hlength := congrArg List.length (List.getLast?_eq_none_iff.1 hlast)
      simp at hlength ⊢
      omega
    | some last =>
      have hne : bus.log.drop cursor ≠ [] := by
        rintro heq
        simp [heq] at hlast
      have hlength := List.length_pos_of_ne_nil hne
      simp at hlength ⊢
      omega
  simp only [feedRun, hb, ho, Option.map_some, Option.getD_some, Bool.false_eq_true, if_false, hlast]
  rw [hread, stretchSteps, List.filter_true, List.map_map]
  rfl

theorem run_ofEntity (hb : instant.buses[slot]? = some bus) (ho : instant.closed slot = false)
    (hc : cursor ≤ bus.log.length) (hl : bus.lost cursor = 0) :
    (ofEntity slot cursor entityId).run instant =
      ⟨stretchSteps (·.entityId == entityId) (ofEntity slot · entityId) (bus.log.drop cursor) (cursor + 1),
        ofEntity slot bus.log.length entityId, false⟩ := by
  simp only [ofEntity, upToError, run, feedRun_of_lost_eq_zero hb ho hc hl, filter_stretch,
    map_stretch, untilError_stretch, Bool.false_eq_true, if_false]

theorem run_ofEntity_lagged (entityId : String) (hb : instant.buses[slot]? = some bus)
    (ho : instant.closed slot = false) (hl : bus.lost cursor ≠ 0) :
    ∃ next, (ofEntity slot cursor entityId).run instant =
      ⟨[(.item (.error (.bus (.lagged (bus.lost cursor)))), .untilError true next)],
        .untilError true next, true⟩ := by
  refine ⟨.filter (·.entityId == entityId) (.feed slot true (cursor + bus.lost cursor)), ?_⟩
  simp only [ofEntity, upToError, run, feedRun, hb, ho, Bus.read, Option.map_some, Option.getD_some,
    Bool.false_eq_true, if_false, if_neg hl, List.map_cons]
  rfl

theorem poll_zero (instant : Instant) (stream : Stream) :
    stream.poll instant (some 0) = ([], .full, stream) :=
  Run.takeSteps_zero _ _ _ _

/-- A reader that has not lagged goes on to some place and gives all that is its own up to there. It
waits only at the end of the log. -/
theorem poll_ofEntity (entityId : String) (hb : instant.buses[slot]? = some bus)
    (ho : instant.closed slot = false) (hc : cursor ≤ bus.log.length) (hl : bus.lost cursor = 0)
    (limit : Option Nat) :
    ∃ count status, count ≤ bus.log.length - cursor ∧
      (ofEntity slot cursor entityId).poll instant limit =
        ((((bus.log.drop cursor).take count).filter (·.entityId == entityId)).map .ok, status,
          ofEntity slot (cursor + count) entityId) ∧
      status ≠ .ended ∧ (status = .waiting → count = bus.log.length - cursor) := by
  have hskip : ∀ change ∈ ([] : List StateChange), (change.entityId == entityId) = false := by simp
  obtain ⟨count, status, hcount, ht, hs, hw⟩ := takeSteps_stretch (·.entityId == entityId)
    (ofEntity slot · entityId) (bus.log.drop cursor) hskip cursor limit
  have hlength : cursor + (bus.log.drop cursor).length = bus.log.length := by
    rw [List.length_drop]
    omega
  simp only [List.nil_append, List.length_nil, Nat.add_zero, hlength] at ht hcount hw
  rw [List.length_drop] at hcount hw
  refine ⟨count, status, hcount, ?_, hs, hw⟩
  rw [poll, run_ofEntity hb ho hc hl]
  exact ht

theorem poll_ofEntity_lagged (entityId : String) (hb : instant.buses[slot]? = some bus)
    (ho : instant.closed slot = false) (hl : bus.lost cursor ≠ 0) {limit : Option Nat} (hlimit : limit ≠ some 0) :
    ∃ status next, (ofEntity slot cursor entityId).poll instant limit =
      ([.error (.bus (.lagged (bus.lost cursor)))], status, .untilError true next) ∧
      status ≠ .waiting := by
  obtain ⟨next, hr⟩ := run_ofEntity_lagged entityId hb ho hl
  rw [poll, hr, Run.take, Run.takeSteps_item hlimit]
  by_cases h : limit.map (· - 1) = some 0
  · exact ⟨.full, next, by rw [h, Run.takeSteps_zero], by simp⟩
  · exact ⟨.ended, next, by rw [Run.takeSteps_nil h]; rfl, by simp⟩

theorem poll_untilError_true (instant : Instant) (source : Stream) {limit : Option Nat}
    (hlimit : limit ≠ some 0) :
    (untilError true source).poll instant limit = ([], .ended, .untilError true source) := by
  simp only [poll, run, if_true, Run.take, Run.takeSteps_nil hlimit]

end

end Stream

end HomeHub
