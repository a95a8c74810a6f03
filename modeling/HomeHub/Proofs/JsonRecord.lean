import HomeHub.Json.Record
import HomeHub.Proofs.JsonText
import HomeHub.Proofs.Success

/-!
# Reading records back

A record that is written as an object, field by field and with fields left out only where they have
their default, is read back as the record. The same holds of lists and of names out of a list.
-/

namespace HomeHub.Json

namespace Document

theorem ofItems_eq_map (items : List Value) : ofItems items = items.map ofValue := by
  induction items with
  | nil => rfl
  | cons v rest ih => rw [ofItems, ih, List.map_cons]

theorem ofMembers_cons (key : String) (value : Value) (members : List (String × Value)) :
    ofMembers ((key, value) :: members) = (.ok key, ofValue value) :: ofMembers members := rfl

end Document

def Draft.cons {α : Type} {ts : List Type} (value : Option α) (others : Draft ts) : Draft (α :: ts) :=
  (value, others)

def Fields.cons {α : Type} {ts : List Type} (value : α) (others : Fields ts) : Fields (α :: ts) :=
  (value, others)

namespace Layout

variable {α : Type} {ts : List Type}

def names : {ts : List Type} → Layout ts → List String
  | _, .nil => []
  | _, .required name _ rest => name :: rest.names
  | _, .optional name _ _ rest => name :: rest.names

inductive Writes (levels : Nat) :
    {ts : List Type} → Layout ts → List (String × Value) → Fields ts → Prop where
  | nil : Writes levels .nil [] ()
  | required {α : Type} {ts : List Type} {name : String} {decoder : Decoder α} {rest : Layout ts}
      {value : Value} {a : α} {members : List (String × Value)} {fields : Fields ts}
      (h : decoder levels (.ofValue value) = .ok a) (hr : Writes levels rest members fields) :
      Writes levels (.required name decoder rest) ((name, value) :: members) (.cons a fields)
  | present {α : Type} {ts : List Type} {name : String} {decoder : Decoder α} {default : α}
      {rest : Layout ts} {value : Value} {a : α} {members : List (String × Value)}
      {fields : Fields ts} (h : decoder levels (.ofValue value) = .ok a)
      (hr : Writes levels rest members fields) :
      Writes levels (.optional name decoder default rest) ((name, value) :: members) (.cons a fields)
  | absent {α : Type} {ts : List Type} {name : String} {decoder : Decoder α} {default : α}
      {rest : Layout ts} {members : List (String × Value)} {fields : Fields ts}
      (hr : Writes levels rest members fields) :
      Writes levels (.optional name decoder default rest) members (.cons default fields)

theorem Writes.mem_names {levels : Nat} {layout : Layout ts} {members : List (String × Value)}
    {fields : Fields ts} (h : layout.Writes levels members fields) :
    ∀ member ∈ members, member.1 ∈ layout.names := by
  induction h with
  | nil => simp
  | required _ _ ih =>
    exact List.forall_mem_cons.2 ⟨List.mem_cons_self, fun m hm => List.mem_cons_of_mem _ (ih m hm)⟩
  | present _ _ ih =>
    exact List.forall_mem_cons.2 ⟨List.mem_cons_self, fun m hm => List.mem_cons_of_mem _ (ih m hm)⟩
  | absent _ ih => exact fun m hm => List.mem_cons_of_mem _ (ih m hm)

theorem Writes.ne_of_notMem {levels : Nat} {layout : Layout ts} {members : List (String × Value)}
    {fields : Fields ts} (h : layout.Writes levels members fields) {name : String}
    (hn : name ∉ layout.names) : ∀ member ∈ members, member.1 ≠ name :=
  fun member hm heq => hn (heq ▸ h.mem_names member hm)

theorem acceptMembers_cons (layout : Layout ts) (levels : Nat) (key : String) (document : Document)
    (rest : List (Leaf String × Document)) (draft : Draft ts) :
    layout.acceptMembers levels ((.ok key, document) :: rest) draft =
      ((layout.accept? levels key document draft).getD (document.skip.map fun _ => draft)) >>=
        layout.acceptMembers levels rest := by
  simp only [acceptMembers, Leaf.ok, bind, Except.bind]
  cases layout.accept? levels key document draft <;> rfl

structure Heads (layout : Layout (α :: ts)) (name : String) (decoder : Decoder α)
    (rest : Layout ts) : Prop where
  accept : ∀ levels key document value others,
    layout.accept? levels key document (.cons value others) =
      if name = key then
        some (if value.isSome then .error .mismatch
          else (decoder levels document).map fun value => .cons (some value) others)
      else (rest.accept? levels key document others).map (·.map (.cons value ·))
  blank : layout.blank = .cons none rest.blank

theorem heads_required (name : String) (decoder : Decoder α) (rest : Layout ts) :
    (required name decoder rest).Heads name decoder rest :=
  ⟨fun _ _ _ _ _ => rfl, rfl⟩

theorem heads_optional (name : String) (decoder : Decoder α) (default : α) (rest : Layout ts) :
    (optional name decoder default rest).Heads name decoder rest :=
  ⟨fun _ _ _ _ _ => rfl, rfl⟩

section
variable {layout : Layout (α :: ts)} {name : String} {decoder : Decoder α} {rest : Layout ts}
  {levels : Nat} {members : List (String × Value)}

theorem Heads.acceptMembers (h : layout.Heads name decoder rest) (hm : ∀ m ∈ members, m.1 ≠ name)
    {value : Option α} {others draft : Draft ts}
    (hr : rest.acceptMembers levels (Document.ofMembers members) others = .ok draft) :
    layout.acceptMembers levels (Document.ofMembers members) (.cons value others) =
      .ok (.cons value draft) := by
  induction members generalizing others with
  | nil =>
    obtain rfl := Except.ok.inj hr
    rfl
  | cons member more ih =>
    obtain ⟨key, v⟩ := member
    obtain ⟨hk, hm⟩ := List.forall_mem_cons.1 hm
    rw [Document.ofMembers_cons, acceptMembers_cons, bind_eq_ok] at hr ⊢
    obtain ⟨next, hn, hr⟩ := hr
    refine ⟨.cons value next, ?_, ih hm hr⟩
    rw [h.accept, if_neg hk.symm]
    cases hf : rest.accept? levels key (Document.ofValue v) others with
    | none =>
      rw [hf] at hn
      cases hd : (Document.ofValue v).skip with
      | error failure => simp [hd, Except.map] at hn
      | ok done =>
        rw [hd] at hn
        obtain rfl := Except.ok.inj hn
        rfl
    | some result =>
      rw [hf] at hn
      obtain rfl : result = .ok next := hn
      rfl

theorem Heads.acceptMembers_cons (h : layout.Heads name decoder rest)
    (hm : ∀ m ∈ members, m.1 ≠ name) {v : Value} {value : α}
    (hv : decoder levels (.ofValue v) = .ok value) {draft : Draft ts}
    (hr : rest.acceptMembers levels (Document.ofMembers members) rest.blank = .ok draft) :
    layout.acceptMembers levels (Document.ofMembers ((name, v) :: members)) layout.blank =
      .ok (.cons (some value) draft) := by
  rw [Document.ofMembers_cons, Layout.acceptMembers_cons, bind_eq_ok, h.blank]
  refine ⟨.cons (some value) rest.blank, ?_, h.acceptMembers hm hr⟩
  rw [h.accept, if_pos rfl, hv]
  rfl

end

theorem complete_required {name : String} {decoder : Decoder α} {rest : Layout ts} {draft : Draft ts}
    {fields : Fields ts} (h : rest.complete draft = .ok fields) (value : α) :
    (required name decoder rest).complete (.cons (some value) draft) = .ok (.cons value fields) := by
  show (rest.complete draft).map (Fields.cons value ·) = _
  rw [h]
  rfl

theorem complete_optional {name : String} {decoder : Decoder α} {default : α} {rest : Layout ts}
    {draft : Draft ts} {fields : Fields ts} (h : rest.complete draft = .ok fields) (value : Option α) :
    (optional name decoder default rest).complete (.cons value draft) =
      .ok (.cons (value.getD default) fields) := by
  show (rest.complete draft).map (Fields.cons (value.getD default) ·) = _
  rw [h]
  rfl

theorem Writes.exists_draft {levels : Nat} {layout : Layout ts} {members : List (String × Value)}
    {fields : Fields ts} (h : layout.Writes levels members fields) (hn : layout.names.Nodup) :
    ∃ draft, layout.acceptMembers levels (Document.ofMembers members) layout.blank = .ok draft ∧
      layout.complete draft = .ok fields := by
  induction h with
  | nil => exact ⟨(), rfl, rfl⟩
  | required h hr ih =>
    obtain ⟨hname, hn⟩ := List.nodup_cons.1 hn
    obtain ⟨draft, hd, hc⟩ := ih hn
    exact ⟨_, (heads_required ..).acceptMembers_cons (hr.ne_of_notMem hname) h hd,
      complete_required hc _⟩
  | present h hr ih =>
    obtain ⟨hname, hn⟩ := List.nodup_cons.1 hn
    obtain ⟨draft, hd, hc⟩ := ih hn
    exact ⟨_, (heads_optional ..).acceptMembers_cons (hr.ne_of_notMem hname) h hd,
      complete_optional hc (some _)⟩
  | absent hr ih =>
    obtain ⟨hname, hn⟩ := List.nodup_cons.1 hn
    obtain ⟨draft, hd, hc⟩ := ih hn
    exact ⟨_, (heads_optional ..).acceptMembers (hr.ne_of_notMem hname) hd, complete_optional hc none⟩

end Layout

namespace Decoder

variable {α : Type} {ts : List Type}

/-- What the decoder reads from a value that is written in so many containers is what was written. -/
def Inverts (decoder : Decoder α) (toValue : α → Value) (depth : Nat) : Prop :=
  ∀ a levels, depth ≤ levels → decoder levels (.ofValue (toValue a)) = .ok a

theorem record_ofValue {layout : Layout ts} {levels : Nat} {members : List (String × Value)}
    {fields : Fields ts} (h : layout.Writes levels members fields) (hn : layout.names.Nodup)
    (build : Fields ts → α) :
    record layout build (levels + 1) (.ofValue (.object members)) = .ok (build fields) := by
  obtain ⟨draft, hd, hc⟩ := h.exists_draft hn
  show (do
    let draft ← layout.acceptMembers levels (Document.ofMembers members) layout.blank
    Except.ok ()
    return build (← layout.complete draft)) = _
  rw [hd]
  show (do return build (← layout.complete draft)) = _
  rw [hc]
  rfl

theorem map_eq_ok {β : Type} {decoder : Decoder α} {levels : Nat} {document : Document} {a : α}
    (h : decoder levels document = .ok a) (f : α → β) : map f decoder levels document = .ok (f a) := by
  rw [map, h]
  rfl

theorem inverts_string : string.Inverts Value.string 0 :=
  fun _ _ _ => rfl

theorem inverts_choice {emptyObject : Bool} {names : List (String × α)} {name : α → String}
    (h : ∀ a, names.lookup (name a) = some a) :
    (choice emptyObject names).Inverts (fun a => .string (name a)) 0 := by
  intro a levels _
  simp only [Document.ofValue, choice, Leaf.ok, bind, Except.bind, h]
  rfl

theorem Inverts.list {decoder : Decoder α} {toValue : α → Value} {depth : Nat}
    (h : decoder.Inverts toValue depth) :
    (Decoder.list decoder).Inverts (fun items => .array (items.map toValue)) (depth + 1) := by
  intro items levels hl
  obtain ⟨more, rfl⟩ := Nat.exists_eq_add_of_le' hl
  have hitems : (Document.ofItems (items.map toValue)).mapM (decoder (more + depth)) = .ok items := by
    rw [Document.ofItems_eq_map, List.map_map, mapM_eq_ok, List.forall₂_map_left_iff]
    exact List.forall₂_same.2 fun a _ => h a (more + depth) (Nat.le_add_left depth more)
  show (do
    let values ← (Document.ofItems (items.map toValue)).mapM (decoder (more + depth))
    Except.ok ()
    return values) = _
  rw [hitems]
  rfl

-- ---------------------------------------------------------------------------
-- Any value
-- ---------------------------------------------------------------------------

theorem valuesOf_eq_mapM (levels : Nat) (documents : List Document) :
    valuesOf levels documents = documents.mapM (valueOf levels) := by
  induction documents with
  | nil => rfl
  | cons document rest ih => rw [valuesOf, ih, List.mapM_cons]

theorem exists_membersOf {levels : Nat} {members : List (String × Value)}
    (h : ∀ m ∈ members, ∃ read, valueOf levels (.ofValue m.2) = .ok read) (table : Json.Members) :
    ∃ read, membersOf levels (Document.ofMembers members) table = .ok read := by
  induction members generalizing table with
  | nil => exact ⟨table, rfl⟩
  | cons member rest ih =>
    obtain ⟨key, v⟩ := member
    obtain ⟨⟨value, hv⟩, hr⟩ := List.forall_mem_cons.1 h
    obtain ⟨read, hread⟩ := ih hr (table.insert key value)
    have hm : memberOf levels (.ok key, .ofValue v) = .ok (key, value) := by
      show (valueOf levels (.ofValue v) >>= fun value => Except.ok (key, value)) = _
      rw [hv]
      rfl
    exact ⟨read, bind_eq_ok.2 ⟨(key, value), hm, hread⟩⟩

theorem exists_valueOf {levels : Nat} {v : Value} (h : v.IsTextual levels) :
    ∃ read, valueOf levels (.ofValue v) = .ok read := by
  induction h with
  | null => exact ⟨_, rfl⟩
  | bool value => exact ⟨_, rfl⟩
  | string text => exact ⟨_, rfl⟩
  | @array levels items _ ih =>
    have hitems : ∀ document ∈ Document.ofItems items, ∃ read, valueOf levels document = .ok read := by
      rw [Document.ofItems_eq_map]
      exact List.forall_mem_map.2 ih
    obtain ⟨values, hv⟩ := exists_mapM_ok.2 hitems
    rw [← valuesOf_eq_mapM] at hv
    exact ⟨.array values, bind_eq_ok.2 ⟨values, hv, rfl⟩⟩
  | object _ ih =>
    obtain ⟨table, ht⟩ := exists_membersOf ih []
    exact ⟨.object table, bind_eq_ok.2 ⟨table, ht, rfl⟩⟩

end Decoder

end HomeHub.Json
