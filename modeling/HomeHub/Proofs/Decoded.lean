import HomeHub.Json.Record
import HomeHub.Proofs.Success

/-!
# What decoders give

A value that was read has the shape of its decoder, whatever the document was: tables ascend, and
each field of a record was read by the decoder of the field, or is its default.
-/

namespace HomeHub.Json

variable {α β : Type} {ts : List Type}

def Decoder.Reads (decoder : Decoder α) (value : α) : Prop :=
  ∃ levels document, decoder levels document = .ok value

-- ---------------------------------------------------------------------------
-- Lists and tables
-- ---------------------------------------------------------------------------

namespace Decoder

theorem opened_eq_ok {levels : Nat} {body : Nat → Except Failure α} {value : α} :
    opened levels body = .ok value ↔ ∃ below, levels = below + 1 ∧ body below = .ok value := by
  cases levels <;> simp [opened]

theorem reads_of_run {decoder : Decoder α} {text : List Text.Symbol} {value : α}
    (h : run decoder text = .ok value) : decoder.Reads value := by
  unfold run at h
  generalize Document.ofText text = parsed at h
  obtain ⟨result, hr, h⟩ := bind_eq_ok.1 h
  split at h
  · obtain rfl := Except.ok.inj h
    exact ⟨_, _, hr⟩
  · cases h

theorem reads_of_list {decoder : Decoder α} {values : List α} (h : (list decoder).Reads values) :
    ∀ value ∈ values, decoder.Reads value := by
  obtain ⟨levels, document, h⟩ := h
  unfold list at h
  split at h
  · obtain ⟨below, -, h⟩ := opened_eq_ok.1 h
    obtain ⟨results, hitems, h⟩ := bind_eq_ok.1 h
    obtain ⟨-, -, h⟩ := bind_eq_ok.1 h
    obtain rfl := pure_eq_ok.1 h
    intro value hm
    obtain ⟨item, -, hr⟩ := mem_of_mapM_eq_ok hitems hm
    exact ⟨below, item, hr⟩
  · cases h

theorem reads_of_option {decoder : Decoder α} {value : α} (h : (option decoder).Reads (some value)) :
    decoder.Reads value := by
  obtain ⟨levels, document, h⟩ := h
  unfold option at h
  split at h
  · cases h
  · obtain ⟨found, hf, hs⟩ := map_result_eq_ok.1 h
    exact ⟨levels, document, Option.some.inj hs ▸ hf⟩

theorem reads_of_map {decoder : Decoder α} {f : α → β} {value : β} (h : (map f decoder).Reads value) :
    ∃ found, decoder.Reads found ∧ f found = value := by
  obtain ⟨levels, document, h⟩ := h
  obtain ⟨found, hf, hv⟩ := map_result_eq_ok.1 h
  exact ⟨found, ⟨levels, document, hf⟩, hv⟩

theorem collect_eq_ok {decoder : Decoder α} {levels : Nat} {members : List (Leaf String × Document)}
    {table result : Table α} (h : collect (decoder levels) members table = .ok result)
    (ha : table.IsAscending) (hr : ∀ entry ∈ table, decoder.Reads entry.2) :
    result.IsAscending ∧ ∀ entry ∈ result, decoder.Reads entry.2 := by
  induction members generalizing table with
  | nil =>
    obtain rfl := Except.ok.inj h
    exact ⟨ha, hr⟩
  | cons member rest ih =>
    obtain ⟨key, -, h⟩ := bind_eq_ok.1 h
    obtain ⟨value, hvalue, h⟩ := bind_eq_ok.1 h
    refine ih h (Table.isAscending_insert ha key value) fun entry hm => ?_
    rcases Table.mem_insert hm with rfl | hm
    · exact ⟨levels, member.2, hvalue⟩
    · exact hr entry hm

theorem reads_of_table {decoder : Decoder α} {result : Table α} (h : (table decoder).Reads result) :
    result.IsAscending ∧ ∀ entry ∈ result, decoder.Reads entry.2 := by
  obtain ⟨levels, document, h⟩ := h
  unfold table at h
  split at h
  · obtain ⟨below, -, h⟩ := opened_eq_ok.1 h
    obtain ⟨collected, hcollect, h⟩ := bind_eq_ok.1 h
    obtain ⟨-, -, h⟩ := bind_eq_ok.1 h
    obtain rfl := pure_eq_ok.1 h
    exact collect_eq_ok hcollect .nil (by simp)
  · cases h

end Decoder

-- ---------------------------------------------------------------------------
-- Records
-- ---------------------------------------------------------------------------

namespace Layout

def Holds : {ts : List Type} → Layout ts → Draft ts → Prop
  | _, .nil, _ => True
  | _, .required _ decoder rest, (value, others) =>
    (∀ a, value = some a → decoder.Reads a) ∧ rest.Holds others
  | _, .optional _ decoder _ rest, (value, others) =>
    (∀ a, value = some a → decoder.Reads a) ∧ rest.Holds others

def Gives : {ts : List Type} → Layout ts → Fields ts → Prop
  | _, .nil, _ => True
  | _, .required _ decoder rest, (value, others) => decoder.Reads value ∧ rest.Gives others
  | _, .optional _ decoder default rest, (value, others) =>
    (decoder.Reads value ∨ value = default) ∧ rest.Gives others

theorem holds_blank (layout : Layout ts) : layout.Holds layout.blank := by
  induction layout with
  | nil => trivial
  | required name decoder rest ih
  | optional name decoder default rest ih => exact ⟨by simp, ih⟩

theorem accept_eq_ok {decoder : Decoder α} {levels : Nat} {document : Document} {name key : String}
    {value : Option α} {others : Draft ts} {accepted? : Option (Except Failure (Draft ts))}
    {next : Option α × Draft ts}
    (h : (if name = key then
        some (if value.isSome then .error .mismatch
          else (decoder levels document).map fun value => (some value, others))
      else accepted?.map (·.map (value, ·))) = some (.ok next)) :
    (∃ a, decoder levels document = .ok a ∧ next = (some a, others)) ∨
      ∃ draft, accepted? = some (.ok draft) ∧ next = (value, draft) := by
  split at h
  · split at h
    · cases h
    · obtain ⟨a, ha, rfl⟩ := map_result_eq_ok.1 (Option.some.inj h)
      exact .inl ⟨a, ha, rfl⟩
  · obtain ⟨result, hresult, hnext⟩ := Option.map_eq_some_iff.1 h
    obtain ⟨draft, rfl, rfl⟩ := map_result_eq_ok.1 hnext
    exact .inr ⟨draft, hresult, rfl⟩

theorem Holds.accept {layout : Layout ts} {levels : Nat} {key : String} {document : Document}
    {draft next : Draft ts} (hd : layout.Holds draft)
    (h : layout.accept? levels key document draft = some (.ok next)) : layout.Holds next := by
  induction layout with
  | nil => cases h
  | required name decoder rest ih
  | optional name decoder default rest ih =>
    rcases accept_eq_ok h with ⟨a, ha, rfl⟩ | ⟨accepted, hr, rfl⟩
    · exact ⟨fun b hb => Option.some.inj hb ▸ ⟨levels, document, ha⟩, hd.2⟩
    · exact ⟨hd.1, ih hd.2 hr⟩

theorem Holds.acceptMembers {layout : Layout ts} {levels : Nat}
    {members : List (Leaf String × Document)} {draft next : Draft ts} (hd : layout.Holds draft)
    (h : layout.acceptMembers levels members draft = .ok next) : layout.Holds next := by
  induction members generalizing draft with
  | nil =>
    obtain rfl := Except.ok.inj h
    exact hd
  | cons member rest ih =>
    obtain ⟨key, -, h⟩ := bind_eq_ok.1 h
    dsimp only at h
    split at h
    · rename_i result hr
      obtain ⟨accepted, rfl, h⟩ := bind_eq_ok.1 h
      exact ih (hd.accept hr) h
    · obtain ⟨accepted, hskip, h⟩ := bind_eq_ok.1 h
      obtain ⟨-, -, rfl⟩ := map_result_eq_ok.1 hskip
      exact ih hd h

theorem holds_of_acceptItems {layout : Layout ts} {levels : Nat} {ending : Except Failure Unit}
    {items : List Document} {draft : Draft ts}
    (h : layout.acceptItems levels ending items = .ok draft) : layout.Holds draft := by
  induction layout generalizing items with
  | nil => trivial
  | required name decoder rest ih
  | optional name decoder default rest ih =>
    cases items with
    | nil =>
      obtain ⟨-, -, rfl⟩ := map_result_eq_ok.1 h
      exact holds_blank _
    | cons item items =>
      obtain ⟨a, ha, h⟩ := bind_eq_ok.1 h
      obtain ⟨others, ho, h⟩ := bind_eq_ok.1 h
      obtain rfl := pure_eq_ok.1 h
      exact ⟨fun b hb => Option.some.inj hb ▸ ⟨levels, item, ha⟩, ih ho⟩

theorem Holds.complete {layout : Layout ts} {draft : Draft ts} {fields : Fields ts}
    (hd : layout.Holds draft) (h : layout.complete draft = .ok fields) : layout.Gives fields := by
  induction layout with
  | nil => trivial
  | required name decoder rest ih =>
    obtain ⟨_ | a, others⟩ := draft
    · cases h
    · obtain ⟨below, hb, rfl⟩ := map_result_eq_ok.1 h
      exact ⟨hd.1 a rfl, ih hd.2 hb⟩
  | optional name decoder default rest ih =>
    obtain ⟨value, others⟩ := draft
    obtain ⟨below, hb, rfl⟩ := map_result_eq_ok.1 h
    refine ⟨?_, ih hd.2 hb⟩
    cases value with
    | none => exact .inr rfl
    | some a => exact .inl (hd.1 a rfl)

end Layout

theorem Decoder.reads_of_record {layout : Layout ts} {build : Fields ts → α} {value : α}
    (h : (record layout build).Reads value) : ∃ fields, layout.Gives fields ∧ build fields = value := by
  obtain ⟨levels, document, h⟩ := h
  unfold record at h
  split at h
  · obtain ⟨below, -, h⟩ := opened_eq_ok.1 h
    obtain ⟨draft, hdraft, h⟩ := bind_eq_ok.1 h
    obtain ⟨-, -, h⟩ := bind_eq_ok.1 h
    obtain ⟨fields, hfields, h⟩ := bind_eq_ok.1 h
    exact ⟨fields, (layout.holds_blank.acceptMembers hdraft).complete hfields, pure_eq_ok.1 h⟩
  · obtain ⟨below, -, h⟩ := opened_eq_ok.1 h
    obtain ⟨draft, hdraft, h⟩ := bind_eq_ok.1 h
    obtain ⟨fields, hfields, h⟩ := bind_eq_ok.1 h
    exact ⟨fields, (Layout.holds_of_acceptItems hdraft).complete hfields, pure_eq_ok.1 h⟩
  · cases h

end HomeHub.Json
