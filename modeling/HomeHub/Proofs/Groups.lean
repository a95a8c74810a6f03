import HomeHub.Proofs.Lists
import HomeHub.Proofs.Sorted
import HomeHub.Schema
import Mathlib.Data.List.Nodup
import Mathlib.Data.List.ProdSigma

/-!
# Groups of samples

The schemas of samples have distinct keys in ascending order, and there is one for a domain and a
flag exactly if some sample falls under them. Each sample stands in one schema, the one of its domain
and its flag.
-/

namespace HomeHub

namespace EntitySchema

/-- By domain, and in a domain the numeric schema last. -/
def Before (first second : EntitySchema) : Prop :=
  first.domain < second.domain ∨
    first.domain = second.domain ∧ first.isNumeric = false ∧ second.isNumeric = true

theorem Before.ne {first second : EntitySchema} (h : Before first second) :
    first.domain ≠ second.domain ∨ first.isNumeric ≠ second.isNumeric := by
  rcases h with hlt | ⟨-, hf, hs⟩
  · exact .inl fun heq => String.lt_irrefl _ (heq ▸ hlt)
  · exact .inr (by simp [hf, hs])

end EntitySchema

section
variable {samples : List EntitySample} {options : SchemaOptions}

def membersOf (samples : List EntitySample) (options : SchemaOptions) (domain : String)
    (isNumeric : Bool) : List EntitySample :=
  samples.filter fun s => s.domain == domain && options.isNumeric s == isNumeric

theorem mem_membersOf {sample : EntitySample} : sample ∈ membersOf samples options domain flag ↔
    sample ∈ samples ∧ sample.domain = domain ∧ options.isNumeric sample = flag := by
  simp [membersOf]

def group? (samples : List EntitySample) (options : SchemaOptions) (domain : String)
    (isNumeric : Bool) : Option EntitySchema :=
  match membersOf samples options domain isNumeric with
  | [] => none
  | members => some (.ofMembers domain isNumeric members)

theorem group?_eq_some {schema : EntitySchema} : group? samples options domain flag = some schema ↔
    membersOf samples options domain flag ≠ [] ∧
      schema = .ofMembers domain flag (membersOf samples options domain flag) := by
  unfold group?
  split
  · rename_i h
    simp [h]
  · rename_i hne
    exact ⟨fun h => ⟨hne, (Option.some.inj h).symm⟩, fun h => h.2 ▸ rfl⟩

theorem assemble_eq (samples : List EntitySample) (options : SchemaOptions) :
    assemble samples options =
      (Text.ascending (samples.map EntitySample.domain)).flatMap fun domain =>
        [false, true].filterMap (group? samples options domain) := rfl

theorem mem_assemble {schema : EntitySchema} : schema ∈ assemble samples options ↔
    ∃ domain flag, group? samples options domain flag = some schema := by
  simp only [assemble_eq, List.mem_flatMap, List.mem_filterMap, Text.mem_ascending, List.mem_map]
  constructor
  · rintro ⟨domain, -, flag, -, h⟩
    exact ⟨domain, flag, h⟩
  · rintro ⟨domain, flag, h⟩
    obtain ⟨sample, hm⟩ := List.exists_mem_of_ne_nil _ (group?_eq_some.1 h).1
    obtain ⟨hs, hd, -⟩ := mem_membersOf.1 hm
    exact ⟨domain, ⟨sample, hs, hd⟩, flag, by cases flag <;> simp, h⟩

theorem exists_mem_assemble {domain : String} {flag : Bool} :
    (∃ schema ∈ assemble samples options, schema.domain = domain ∧ schema.isNumeric = flag) ↔
      ∃ sample ∈ samples, sample.domain = domain ∧ options.isNumeric sample = flag := by
  constructor
  · rintro ⟨schema, hm, rfl, rfl⟩
    obtain ⟨domain, flag, h⟩ := mem_assemble.1 hm
    obtain ⟨hne, rfl⟩ := group?_eq_some.1 h
    obtain ⟨sample, hs⟩ := List.exists_mem_of_ne_nil _ hne
    exact ⟨sample, mem_membersOf.1 hs⟩
  · rintro ⟨sample, hs, rfl, rfl⟩
    have hm : sample ∈ membersOf samples options sample.domain (options.isNumeric sample) :=
      mem_membersOf.2 ⟨hs, rfl, rfl⟩
    exact ⟨_, mem_assemble.2 ⟨_, _, group?_eq_some.2 ⟨List.ne_nil_of_mem hm, rfl⟩⟩, rfl, rfl⟩

theorem of_mem_assemble {schema : EntitySchema} (h : schema ∈ assemble samples options) :
    schema.entities ≠ [] ∧ ∀ sample ∈ schema.entities,
      sample.domain = schema.domain ∧ options.isNumeric sample = schema.isNumeric := by
  obtain ⟨domain, flag, hg⟩ := mem_assemble.1 h
  obtain ⟨hne, rfl⟩ := group?_eq_some.1 hg
  have hperm := Text.sortedBy_perm EntitySample.entityId (membersOf samples options domain flag)
  exact ⟨fun heq => hne (List.perm_nil.1 (heq ▸ hperm.symm)),
    fun sample hs => (mem_membersOf.1 (hperm.mem_iff.1 hs)).2⟩

theorem entities_group?_perm (domain : String) (flag : Bool) :
    ((group? samples options domain flag).toList.flatMap EntitySchema.entities).Perm
      (membersOf samples options domain flag) := by
  unfold group?
  split
  · rename_i hm
    simp [hm]
  · simpa [EntitySchema.ofMembers] using Text.sortedBy_perm EntitySample.entityId _

theorem entities_assemble_perm (samples : List EntitySample) (options : SchemaOptions) :
    ((assemble samples options).flatMap EntitySchema.entities).Perm samples := by
  let keys := Text.ascending (samples.map EntitySample.domain) ×ˢ [false, true]
  have hkeys : keys.Nodup := (Text.nodup_ascending _).product (by decide)
  have hmem : ∀ sample ∈ samples, (sample.domain, options.isNumeric sample) ∈ keys := by
    intro sample hs
    have hd := Text.mem_ascending.2 (List.mem_map_of_mem (f := EntitySample.domain) hs)
    exact List.mem_product.2 ⟨hd, by cases options.isNumeric sample <;> simp⟩
  have hgroups : (assemble samples options).flatMap EntitySchema.entities =
      keys.flatMap fun (domain, flag) =>
        (group? samples options domain flag).toList.flatMap EntitySchema.entities := by
    simp only [assemble_eq, List.filterMap_eq_flatMap_toList, List.flatMap_assoc, keys,
      SProd.sprod, List.product, List.flatMap_map]
  rw [hgroups]
  exact (List.Perm.flatMap_left _ fun key _ => entities_group?_perm key.1 key.2).trans
    (flatMap_filter_perm hkeys hmem)

theorem pairwise_assemble (samples : List EntitySample) (options : SchemaOptions) :
    (assemble samples options).Pairwise EntitySchema.Before := by
  rw [assemble_eq]
  refine List.pairwise_flatMap.2 ⟨fun domain _ => List.pairwise_filterMap.2 ?_, ?_⟩
  · simp only [List.pairwise_cons, List.mem_singleton, forall_eq, List.not_mem_nil, false_implies,
      implies_true, List.Pairwise.nil, and_true]
    intro first hf second hs
    obtain ⟨-, rfl⟩ := group?_eq_some.1 hf
    obtain ⟨-, rfl⟩ := group?_eq_some.1 hs
    exact .inr ⟨rfl, rfl, rfl⟩
  · refine (Text.pairwise_ascending _).imp fun {domain other} hlt first hf second hs => ?_
    obtain ⟨_, -, hf⟩ := List.mem_filterMap.1 hf
    obtain ⟨_, -, hs⟩ := List.mem_filterMap.1 hs
    obtain ⟨-, rfl⟩ := group?_eq_some.1 hf
    obtain ⟨-, rfl⟩ := group?_eq_some.1 hs
    exact .inl hlt

end

end HomeHub
