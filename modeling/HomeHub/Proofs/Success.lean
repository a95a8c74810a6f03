import HomeHub.Proofs.Lists

/-!
# Computations that succeed

What the success of a computation with errors says about its parts, and when all parts together
succeed.
-/

namespace HomeHub

theorem bind_eq_ok {x : Except ε α} {f : α → Except ε β} {b : β} :
    (x >>= f) = .ok b ↔ ∃ a, x = .ok a ∧ f a = .ok b := by
  cases x <;> simp [bind, Except.bind]

theorem bind_eq_error {x : Except ε α} {f : α → Except ε β} {error : ε} :
    (x >>= f) = .error error ↔ x = .error error ∨ ∃ a, x = .ok a ∧ f a = .error error := by
  cases x <;> simp [bind, Except.bind]

theorem pure_eq_ok {a b : α} : (pure a : Except ε α) = .ok b ↔ a = b := by
  simp [pure, Except.pure]

theorem map_result_eq_ok {x : Except ε α} {f : α → β} {b : β} :
    x.map f = .ok b ↔ ∃ a, x = .ok a ∧ f a = b := by
  cases x <;> simp [Except.map]

theorem map_result_eq_error {x : Except ε α} {f : α → β} {error : ε} :
    x.map f = .error error ↔ x = .error error := by
  cases x <;> simp [Except.map]

theorem map_toOption_eq_some {x : Except ε α} {f : α → β} {b : β} :
    x.toOption.map f = some b ↔ ∃ a, x = .ok a ∧ f a = b := by
  cases x <;> simp [Except.toOption]

theorem mapM_eq_ok {f : α → Except ε β} {items : List α} {results : List β} :
    items.mapM f = .ok results ↔ List.Forall₂ (fun item result => f item = .ok result) items results := by
  induction items generalizing results with
  | nil => cases results <;> simp [pure_eq_ok]
  | cons item rest ih =>
    simp only [List.mapM_cons, bind_eq_ok, pure_eq_ok, ih, List.forall₂_cons_left_iff]
    constructor
    · rintro ⟨result, h, others, hs, rfl⟩
      exact ⟨result, others, h, hs, rfl⟩
    · rintro ⟨result, others, h, hs, rfl⟩
      exact ⟨result, h, others, hs, rfl⟩

theorem forM_eq_ok {f : α → Except ε Unit} {items : List α} :
    items.forM f = .ok () ↔ ∀ item ∈ items, f item = .ok () := by
  induction items with
  | nil => simp [pure_eq_ok]
  | cons item rest ih =>
    have hcons : (item :: rest).forM f = f item >>= fun _ => rest.forM f := rfl
    rw [hcons, bind_eq_ok, List.forall_mem_cons, ← ih]
    exact ⟨fun ⟨_, h, hr⟩ => ⟨h, hr⟩, fun ⟨h, hr⟩ => ⟨(), h, hr⟩⟩

theorem mapM_congr {f g : α → Except ε β} {items : List α} (h : ∀ item ∈ items, f item = g item) :
    items.mapM f = items.mapM g := by
  induction items with
  | nil => rfl
  | cons item rest ih =>
    obtain ⟨hitem, hrest⟩ := List.forall_mem_cons.1 h
    rw [List.mapM_cons, List.mapM_cons, hitem, ih hrest]

theorem exists_mapM_ok {f : α → Except ε β} {items : List α} :
    (∃ results, items.mapM f = .ok results) ↔ ∀ item ∈ items, ∃ result, f item = .ok result := by
  simp only [mapM_eq_ok]
  induction items with
  | nil => simp
  | cons item rest ih =>
    simp only [List.forall₂_cons_left_iff, List.forall_mem_cons, ← ih]
    constructor
    · rintro ⟨_, result, others, h, hs, rfl⟩
      exact ⟨⟨result, h⟩, others, hs⟩
    · rintro ⟨⟨result, h⟩, others, hs⟩
      exact ⟨_, result, others, h, hs, rfl⟩

theorem mem_of_mapM_eq_ok {f : α → Except ε β} {items : List α} {results : List β}
    (h : items.mapM f = .ok results) {result : β} (hm : result ∈ results) :
    ∃ item ∈ items, f item = .ok result :=
  exists_of_forall₂ (mapM_eq_ok.1 h) hm

theorem exists_of_mem_of_mapM_eq_ok {f : α → Except ε β} {items : List α} {results : List β}
    (h : items.mapM f = .ok results) {item : α} (hm : item ∈ items) :
    ∃ result ∈ results, f item = .ok result :=
  exists_of_forall₂ (mapM_eq_ok.1 h).flip hm

theorem exists_of_mapM_eq_error {f : α → Except ε β} {items : List α} {error : ε}
    (h : items.mapM f = .error error) : ∃ item ∈ items, f item = .error error := by
  induction items with
  | nil => cases h
  | cons item rest ih =>
    rw [List.mapM_cons] at h
    rcases bind_eq_error.1 h with hfail | ⟨_, -, h⟩
    · exact ⟨item, List.mem_cons_self, hfail⟩
    · rcases bind_eq_error.1 h with hrest | ⟨_, -, hpure⟩
      · obtain ⟨found, hm, he⟩ := ih hrest
        exact ⟨found, List.mem_cons_of_mem _ hm, he⟩
      · cases hpure

/-- What is told from each result, when it can be told from the item already. -/
theorem filterMap_of_mapM_eq_ok {f : α → Except ε β} {items : List α} {results : List β}
    {told : β → Option γ} {foretold : α → Option γ} (h : items.mapM f = .ok results)
    (ht : ∀ item result, f item = .ok result → told result = foretold item) :
    results.filterMap told = items.filterMap foretold := by
  rw [mapM_eq_ok] at h
  induction h with
  | nil => rfl
  | cons hr _ ih => rw [List.filterMap_cons, List.filterMap_cons, ht _ _ hr, ih]

theorem map_of_mapM_eq_ok {f : α → Except ε β} {items : List α} {results : List β}
    {told : β → γ} {foretold : α → γ} (h : items.mapM f = .ok results)
    (ht : ∀ item result, f item = .ok result → told result = foretold item) :
    results.map told = items.map foretold := by
  simp only [← List.filterMap_eq_map']
  exact filterMap_of_mapM_eq_ok h fun item result hr => congrArg some (ht item result hr)

end HomeHub
