/-!
# Identifiers of buses

A 128-bit number, written as 32 hexadecimal digits in groups of 8, 4, 4, 4 and 12. It is read in
that form, bare or between braces or behind `urn:uuid:`, and also without the hyphens; the case of
letters does not matter.
-/

namespace HomeHub

structure BusId where
  value : BitVec 128
  deriving DecidableEq

namespace BusId

def ofNat (n : Nat) : BusId := ⟨BitVec.ofNat 128 n⟩

def insertAscending (id : BusId) : List BusId → List BusId
  | [] => [id]
  | first :: rest =>
    if id.value < first.value then id :: first :: rest
    else if id = first then first :: rest
    else first :: insertAscending id rest

def ascending (ids : List BusId) : List BusId :=
  ids.foldr insertAscending []

def digit? (c : Char) : Option Nat :=
  if '0' ≤ c && c ≤ '9' then some (c.toNat - '0'.toNat)
  else if 'a' ≤ c && c ≤ 'f' then some (c.toNat - 'a'.toNat + 10)
  else if 'A' ≤ c && c ≤ 'F' then some (c.toNat - 'A'.toNat + 10)
  else none

def digitsValue? (digits : List Char) : Option Nat :=
  digits.foldlM (fun n c => (digit? c).map (16 * n + ·)) 0

def unhyphenated? (text : List Char) : Option (List Char) :=
  if text.length = 36 && [8, 13, 18, 23].all (fun i => text[i]? == some '-') then
    some (text.take 8 ++ (text.drop 9).take 4 ++ (text.drop 14).take 4 ++ (text.drop 19).take 4 ++
      text.drop 24)
  else none

def digits? (text : List Char) : Option (List Char) :=
  if text.length = 32 then some text
  else if text.length = 38 && text.head? == some '\x7b' && text.getLast? == some '\x7d' then
    unhyphenated? (text.drop 1).dropLast
  else if (text.take 9).map Char.toLower == ['u', 'r', 'n', ':', 'u', 'u', 'i', 'd', ':'] then
    unhyphenated? (text.drop 9)
  else unhyphenated? text

def ofText? (text : String) : Option BusId := do
  let digits ← digits? text.toList
  (digitsValue? digits).map ofNat

def digitsOf : Nat → Nat → List Char
  | 0, _ => []
  | count + 1, n => digitsOf count (n / 16) ++ [Nat.digitChar (n % 16)]

def text (id : BusId) : String :=
  let digits := digitsOf 32 id.value.toNat
  String.ofList (digits.take 8 ++ '-' :: (digits.drop 8).take 4 ++ '-' :: (digits.drop 12).take 4 ++
    '-' :: (digits.drop 16).take 4 ++ '-' :: digits.drop 20)

theorem mem_insertAscending {id other : BusId} {ids : List BusId} :
    other ∈ insertAscending id ids ↔ other = id ∨ other ∈ ids := by
  induction ids with
  | nil => simp [insertAscending]
  | cons first rest ih => grind [insertAscending]

theorem mem_ascending {id : BusId} {ids : List BusId} : id ∈ ascending ids ↔ id ∈ ids := by
  induction ids with
  | nil => simp [ascending]
  | cons first rest ih =>
    have h : ascending (first :: rest) = insertAscending first (ascending rest) := rfl
    rw [h, mem_insertAscending, ih, List.mem_cons]

theorem pairwise_insertAscending {id : BusId} {ids : List BusId}
    (h : ids.Pairwise fun first second => first.value < second.value) :
    (insertAscending id ids).Pairwise fun first second => first.value < second.value := by
  induction ids with
  | nil => simp [insertAscending]
  | cons first rest ih =>
    obtain ⟨hf, hr⟩ := List.pairwise_cons.1 h
    unfold insertAscending
    split
    · rename_i hlt
      refine List.pairwise_cons.2 ⟨fun other hm => ?_, h⟩
      rcases List.mem_cons.1 hm with rfl | hm
      · exact hlt
      · exact BitVec.lt_trans hlt (hf other hm)
    · split
      · exact h
      · rename_i hlt hne
        refine List.pairwise_cons.2 ⟨fun other hm => ?_, ih hr⟩
        rcases mem_insertAscending.1 hm with rfl | hm
        · have hvalue : other.value ≠ first.value := fun heq => hne (congrArg BusId.mk heq)
          bv_omega
        · exact hf other hm

theorem pairwise_ascending (ids : List BusId) :
    (ascending ids).Pairwise fun first second => first.value < second.value := by
  induction ids with
  | nil => simp [ascending]
  | cons first rest ih => exact pairwise_insertAscending ih

theorem nodup_ascending (ids : List BusId) : (ascending ids).Nodup := by
  refine (pairwise_ascending ids).imp fun hlt heq => ?_
  subst heq
  exact BitVec.lt_irrefl _ hlt

end BusId

end HomeHub
