import HomeHub.Proofs.ServiceGroups
import Mathlib

/-!
# The shape of identifiers

Whatever the keys are, an identifier starts with an upper-case letter and has letters and digits
behind it. The marks of scopes and the numbers of shared identifiers bring in underscores, each of
them directly in front of a digit.
-/

namespace HomeHub.Naming

inductive IsTail : List Char → Prop where
  | nil : IsTail []
  | char {c : Char} {rest : List Char} (hc : c.isAlphanum = true) (hr : IsTail rest) :
      IsTail (c :: rest)
  | number {c : Char} {rest : List Char} (hd : c.isDigit = true) (hr : IsTail rest) :
      IsTail ('_' :: c :: rest)

inductive IsIdentifier : String → Prop where
  | mk {c : Char} {rest : List Char} (hc : c.isUpper = true) (hr : IsTail rest) :
      IsIdentifier (String.ofList (c :: rest))

theorem isAlphanum_of_isUpper {c : Char} (h : c.isUpper = true) : c.isAlphanum = true := by
  simp [Char.isAlphanum, Char.isAlpha, h]

theorem isAlphanum_of_isDigit {c : Char} (h : c.isDigit = true) : c.isAlphanum = true := by
  simp [Char.isAlphanum, h]

theorem isLower_eq_false_of_isDigit {c : Char} (h : c.isDigit = true) : c.isLower = false := by
  simp only [Char.isDigit, Char.isLower, Bool.and_eq_true, decide_eq_true_eq, ge_iff_le,
    UInt32.le_iff_toNat_le, Bool.and_eq_false_iff, decide_eq_false_iff_not] at h ⊢
  have h9 : '9'.val.toNat < 'a'.val.toNat := by decide
  omega

theorem isUpper_eq_false_of_isDigit {c : Char} (h : c.isDigit = true) : c.isUpper = false := by
  simp only [Char.isDigit, Char.isUpper, Bool.and_eq_true, decide_eq_true_eq, ge_iff_le,
    UInt32.le_iff_toNat_le, decide_eq_false_iff_not] at h ⊢
  have h9 : '9'.val.toNat < 'A'.val.toNat := by decide
  omega

namespace IsTail

theorem of_forall {text : List Char} (h : ∀ c ∈ text, c.isAlphanum = true) : IsTail text := by
  induction text with
  | nil => exact .nil
  | cons c rest ih =>
    obtain ⟨hc, hr⟩ := List.forall_mem_cons.1 h
    exact .char hc (ih hr)

theorem append {first second : List Char} (hf : IsTail first) (hs : IsTail second) :
    IsTail (first ++ second) := by
  induction hf with
  | nil => exact hs
  | char hc _ ih => exact .char hc ih
  | number hd _ ih => exact .number hd ih

theorem underscore {text : List Char} (hne : text ≠ []) (h : ∀ c ∈ text, c.isDigit = true) :
    IsTail ('_' :: text) := by
  cases text with
  | nil => exact absurd rfl hne
  | cons c rest =>
    obtain ⟨hc, hr⟩ := List.forall_mem_cons.1 h
    exact .number hc (.of_forall fun d hd => isAlphanum_of_isDigit (hr d hd))

theorem isAlphanum_or_eq {text : List Char} (h : IsTail text) :
    ∀ c ∈ text, c.isAlphanum = true ∨ c = '_' := by
  induction h with
  | nil => simp
  | char hc _ ih => exact List.forall_mem_cons.2 ⟨.inl hc, ih⟩
  | number hd _ ih =>
    exact List.forall_mem_cons.2 ⟨.inr rfl, List.forall_mem_cons.2 ⟨.inl (isAlphanum_of_isDigit hd), ih⟩⟩

end IsTail

-- ---------------------------------------------------------------------------
-- Keys
-- ---------------------------------------------------------------------------

theorem isAlphanum_toUpper {c : Char} (h : c.isAlphanum = true) : c.toUpper.isAlphanum = true := by
  by_cases hl : c.isLower = true
  · exact isAlphanum_of_isUpper (by simp [Char.isAlpha, hl])
  · rwa [Char.toUpper_eq_of_not_isLower hl]

theorem isAlphanum_of_mem_pascalChars {atStart : Bool} {key : List Char} :
    ∀ c ∈ pascalChars atStart key, c.isAlphanum = true := by
  fun_induction pascalChars atStart key with
  | case1 => simp
  | case2 atStart c rest hc ih =>
    refine List.forall_mem_cons.2 ⟨?_, ih⟩
    cases atStart with
    | false => exact hc
    | true => exact isAlphanum_toUpper hc
  | case3 atStart c rest hc ih => exact ih

theorem pascalChars_cons {key : List Char} (h : pascalChars true key = c :: rest) :
    c.isUpper = true ∨ c.isDigit = true := by
  induction key with
  | nil => simp [pascalChars] at h
  | cons first others ih =>
    unfold pascalChars at h
    split at h
    · rename_i hf
      obtain ⟨rfl, -⟩ := List.cons.inj h
      rcases Bool.or_eq_true_iff.1 hf with ha | hd
      · exact .inl (by simpa using ha)
      · rw [if_pos rfl, Char.toUpper_eq_of_not_isLower (by simp [isLower_eq_false_of_isDigit hd])]
        exact .inr hd
    · exact ih h

def IsMark (mark : String) : Prop :=
  ∃ c, c.isUpper = true ∧ mark.toList = [c, '_']

theorem isMark_entityMark : IsMark entityMark := ⟨'E', rfl, rfl⟩

theorem isMark_fieldMark : IsMark fieldMark := ⟨'A', rfl, rfl⟩

theorem isMark_domainMark : IsMark domainMark := ⟨'D', rfl, rfl⟩

theorem isIdentifier_resolve (key : String) {mark : String} (h : IsMark mark) :
    IsIdentifier (resolve key mark) := by
  obtain ⟨u, hu, hm⟩ := h
  unfold resolve resolveChars
  split
  · show IsIdentifier (String.ofList ('U' :: ['n', 'n', 'a', 'm', 'e', 'd']))
    exact .mk rfl (.of_forall (List.all_eq_true.1 rfl))
  · rename_i c rest heq
    have hall : ∀ d ∈ pascalChars true key.toList, d.isAlphanum = true :=
      isAlphanum_of_mem_pascalChars
    rw [heq] at hall
    obtain ⟨-, hr⟩ := List.forall_mem_cons.1 hall
    split
    · rename_i hd
      rw [hm]
      exact .mk hu (.number hd (.of_forall hr))
    · rename_i hd
      exact .mk ((pascalChars_cons heq).resolve_right hd) (.of_forall hr)

theorem isIdentifier_domainName (domain : String) : IsIdentifier (domainName domain) :=
  isIdentifier_resolve domain isMark_domainMark

-- ---------------------------------------------------------------------------
-- Scopes
-- ---------------------------------------------------------------------------

theorem IsIdentifier.numbered {identifier : String} (h : IsIdentifier identifier) (n : Nat) :
    IsIdentifier (numbered identifier n) := by
  obtain @⟨c, rest, hc, hr⟩ := h
  have hn : IsTail ('_' :: Nat.toDigits 10 n) :=
    .underscore Nat.toDigits_ne_nil fun c hm =>
      Nat.isDigit_of_mem_toDigits (by decide) (by decide) hm
  have heq : Naming.numbered (String.ofList (c :: rest)) n =
      String.ofList (c :: (rest ++ '_' :: Nat.toDigits 10 n)) := by
    simp [Naming.numbered, ← String.toList_inj]
  exact heq ▸ .mk hc (hr.append hn)

theorem isIdentifier_of_mem_dedupe {items : List Named}
    (h : ∀ item ∈ items, IsIdentifier item.identifier) {identifier : String}
    (hm : identifier ∈ dedupe items) : IsIdentifier identifier := by
  obtain ⟨⟨item, position⟩, hp, rfl⟩ := List.mem_map.1 hm
  have hi := h item ((List.mem_zipIdx' hp).2 ▸ List.getElem_mem _)
  dsimp only
  split
  · exact hi
  · exact hi.numbered _

theorem isIdentifier_of_mem_identifiers {keys : List String} {mark identifier : String}
    (h : IsMark mark) (hm : identifier ∈ identifiers keys mark) : IsIdentifier identifier := by
  refine isIdentifier_of_mem_dedupe (fun item hi => ?_) hm
  obtain ⟨key, -, rfl⟩ := List.mem_map.1 hi
  exact isIdentifier_resolve key h

theorem isIdentifier_of_mem_canonicalNames {keys : List String} {mark : String} {named : Named}
    (h : IsMark mark) (hm : named ∈ canonicalNames keys mark) : IsIdentifier named.identifier := by
  have hz := (canonicalNames_perm keys mark).mem_iff.1 hm
  rw [← List.map_uncurry_zip_eq_zipWith] at hz
  obtain ⟨⟨identifier, key⟩, hp, rfl⟩ := List.mem_map.1 hz
  exact isIdentifier_of_mem_identifiers h (List.of_mem_zip hp).1

end HomeHub.Naming
