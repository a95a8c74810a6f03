/-!
# Dotted identifiers

Entity ids such as `light.kitchen` and qualified service names such as `light.turn_on` have one
shape: what stands before the first dot is the domain.
-/

namespace HomeHub.EntityId

def splitChars : List Char → Option (List Char) × List Char
  | [] => (none, [])
  | c :: rest =>
    if c = '.' then (some [], rest)
    else
      match splitChars rest with
      | (some left, right) => (some (c :: left), right)
      | (none, whole) => (none, c :: whole)

/-- The parts before and behind the first dot; without one, nothing and the whole. -/
def split (id : String) : Option String × String :=
  let (left, right) := splitChars id.toList
  (left.map String.ofList, String.ofList right)

def domain? (id : String) : Option String := (split id).1

/-- The domain an entity is filed under: its id as a whole where that has no dot. -/
def groupingDomain (id : String) : String := (domain? id).getD id

/-- The part behind the first dot, empty without one. -/
def object (id : String) : String :=
  match split id with
  | (some _, rest) => rest
  | (none, _) => ""

theorem splitChars_none {id whole : List Char} (h : splitChars id = (none, whole)) :
    whole = id ∧ '.' ∉ id := by
  induction id generalizing whole with
  | nil => simp_all [splitChars]
  | cons c rest ih =>
    unfold splitChars at h
    split at h
    · simp at h
    · cases hs : splitChars rest with
      | mk left right =>
        cases left with
        | some left => simp [hs] at h
        | none =>
          obtain ⟨rfl, hd⟩ := ih hs
          simp only [hs, Prod.mk.injEq, true_and] at h
          subst h
          simp_all [eq_comm]

theorem splitChars_some {id left right : List Char} (h : splitChars id = (some left, right)) :
    id = left ++ '.' :: right ∧ '.' ∉ left := by
  induction id generalizing left right with
  | nil => simp [splitChars] at h
  | cons c rest ih =>
    unfold splitChars at h
    split at h
    · simp_all
    · cases hs : splitChars rest with
      | mk first second =>
        cases first with
        | none => simp [hs] at h
        | some first =>
          have := ih hs
          simp only [hs, Prod.mk.injEq, Option.some.injEq] at h
          obtain ⟨rfl, rfl⟩ := h
          simp_all [eq_comm]

end HomeHub.EntityId
