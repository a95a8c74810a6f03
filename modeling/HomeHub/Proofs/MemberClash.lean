import HomeHub.Proofs.EntityProperties
import HomeHub.Proofs.Identifiers
import HomeHub.Proofs.Numbering
import HomeHub.Proofs.RecordKeys
import HomeHub.Proofs.TypeClash

/-!
# When member names clash

An identifier has an underscore only where the letter of its scope stands before a digit. So the one
numbered name that an identifier can look like is that of the bare letter. A model whose type names
differ is refused exactly where keys of one scope meet in this way. The fields of a service are not
looked at where its entry declares another of the name behind it: they are lost with its record.
-/

namespace HomeHub

namespace Naming

-- ---------------------------------------------------------------------------
-- One scope
-- ---------------------------------------------------------------------------

section
variable {letter key shared : String} {items : List Named} {n : Nat}

theorem underscore_notMem_pascalChars {atStart : Bool} {chars : List Char} :
    '_' ∉ pascalChars atStart chars := fun hm =>
  absurd (isAlphanum_of_mem_pascalChars _ hm) (by decide)

/-- An identifier that looks like a numbered one looks like a number of the bare letter. -/
theorem eq_of_resolve_eq_numbered (h : resolve key (letter ++ "_") = numbered shared n) :
    shared = letter := by
  have hnone : '_' ∉ pascalChars true key.toList := underscore_notMem_pascalChars
  have hl := congrArg String.toList h
  rw [toList_numbered, resolve, String.toList_ofList, String.toList_append] at hl
  unfold resolveChars at hl
  split at hl
  · have hm : '_' ∈ unnamed.toList := hl ▸ by simp
    exact absurd hm (by decide)
  · rename_i c rest hchars
    rw [hchars] at hnone
    split at hl
    · have hsplit : letter.toList ++ '_' :: (c :: rest) = shared.toList ++ '_' :: Nat.toDigits 10 n := by
        simpa using hl
      exact String.toList_inj.1 (eq_of_append_cons_eq hsplit hnone (underscore_notMem_toDigits n)).1.symm
    · exact absurd (hl ▸ by simp) hnone

/-- Several keys are the bare letter of their scope, and one key alone looks like one of their numbered
names. -/
def KeysMeet (keys : List String) (letter : String) : Prop :=
  ∃ n, IsMet (keys.map (resolve · (letter ++ "_"))) letter n

def AreScoped (letter : String) (items : List Named) : Prop :=
  ∀ item ∈ items, ∃ key, item.identifier = resolve key (letter ++ "_")

theorem IsMet.eq_letter (h : IsMet (items.map Named.identifier) shared n)
    (hs : AreScoped letter items) : shared = letter := by
  obtain ⟨item, hi, hn⟩ := List.mem_map.1 (List.count_pos_iff.1 (Nat.lt_of_lt_of_eq Nat.zero_lt_one
    h.single.symm))
  obtain ⟨key, hk⟩ := hs item hi
  exact eq_of_resolve_eq_numbered (hk.symm.trans hn)

theorem nodup_iff_not_keysMeet {keys members : List String} (hm : members.Perm (dedupe items))
    (hk : (items.map Named.identifier).Perm (keys.map (resolve · (letter ++ "_")))) :
    members.Nodup ↔ ¬ KeysMeet keys letter := by
  have hs : AreScoped letter items := by
    intro item hi
    obtain ⟨key, -, heq⟩ := List.mem_map.1 (hk.mem_iff.1 (List.mem_map_of_mem hi))
    exact ⟨key, heq.symm⟩
  rw [hm.nodup_iff, nodup_dedupe]
  constructor
  · rintro h ⟨n, hn⟩
    exact h letter n ((IsMet.congr hk).2 hn)
  · intro h shared n hn
    obtain rfl := hn.eq_letter hs
    exact h ⟨n, (IsMet.congr hk).1 hn⟩

theorem nodup_iff_not_keysMeet_of_perm {keys names members : List String} {mark : String}
    (hm : members.Perm (identifiers names mark)) (hk : names.Perm keys)
    (hmark : mark = letter ++ "_") : members.Nodup ↔ ¬ KeysMeet keys letter := by
  subst hmark
  refine nodup_iff_not_keysMeet hm (.trans (.of_eq ?_) (hk.map _))
  rw [List.map_map]
  rfl

/-- Two places of a scope with one name: the item at one of them is the bare letter, and the item at the
other alone looks like a number of it. -/
theorem isMet_letter_of_getElem?_eq {first second : Named} {i j : Nat} (hs : AreScoped letter items)
    (hne : i ≠ j) (hi : items[i]? = some first) (hj : items[j]? = some second)
    (h : (dedupe items)[i]? = (dedupe items)[j]?) :
    ∃ n, IsMet (items.map Named.identifier) letter n ∧
      (first.identifier = letter ∧ second.identifier = numbered letter n ∨
        second.identifier = letter ∧ first.identifier = numbered letter n) := by
  obtain ⟨n, ⟨hm, heq⟩ | ⟨hm, heq⟩⟩ := isMet_of_getElem?_eq hne hi hj h
  · obtain rfl := hm.eq_letter hs
    exact ⟨n, hm, .inl ⟨rfl, heq⟩⟩
  · obtain rfl := hm.eq_letter hs
    exact ⟨n, hm, .inr ⟨rfl, heq⟩⟩

theorem KeysMeet.ne_nil {keys : List String} (h : KeysMeet keys letter) : keys ≠ [] := by
  rintro rfl
  obtain ⟨n, hn⟩ := h
  simpa using hn.several

end

end Naming

-- ---------------------------------------------------------------------------
-- The scopes of a model
-- ---------------------------------------------------------------------------

open Naming (KeysMeet)

def entityKeys (samples : List EntitySample) (domain : String) : List String :=
  (samples.filter (·.domain == domain)).map (DomainAggregator.propertyKey ·.entityId)

/-- What makes two members of one definition meet. Which services lend their fields to a scope is left
open. -/
inductive MemberNameClash (lends : ServiceDomain → Service → Prop) (samples : List EntitySample)
    (options : SchemaOptions) (catalog : List ServiceDomain) : Prop where
  | entities (domain : String) (h : KeysMeet (entityKeys samples domain) "E")
  | attributes {schema : EntitySchema} (hs : schema ∈ assemble samples options)
      (h : KeysMeet (schema.attributes.map Attribute.name) "A")
  | services {entry : ServiceDomain} (he : entry ∈ catalog)
      (h : KeysMeet (entry.services.map Service.name) "A")
  | fields {entry : ServiceDomain} {service : Service} (he : entry ∈ catalog)
      (hs : service ∈ entry.services) (hl : lends entry service)
      (h : KeysMeet (service.fields.map ServiceField.name) "A")

section
variable {samples : List EntitySample} {options : SchemaOptions}

theorem MemberNameClash.imp {lends other : ServiceDomain → Service → Prop}
    {catalog : List ServiceDomain} (hc : MemberNameClash lends samples options catalog)
    (h : ∀ entry ∈ catalog, ∀ service ∈ entry.services, lends entry service → other entry service) :
    MemberNameClash other samples options catalog := by
  cases hc with
  | entities domain hk => exact .entities domain hk
  | attributes hs hk => exact .attributes hs hk
  | services he hk => exact .services he hk
  | fields he hs hl hk => exact .fields he hs (h _ he _ hs hl) hk

theorem memberNameClash_of_declareOnce {catalog : List ServiceDomain}
    (h : ServiceDomain.DeclareOnce catalog) :
    MemberNameClash (fun entry service => entry.standIn service = service) samples options catalog ↔
      MemberNameClash (fun _ _ => True) samples options catalog := by
  constructor
  · exact fun hc => hc.imp fun _ _ _ _ _ => trivial
  · exact fun hc => hc.imp fun _ he _ hs _ => h.standIn_eq he hs

theorem DomainAggregator.identifiers_ofEntities_perm (domain : String)
    (entities : List (String × String)) :
    ((ofEntities domain entities).entities.map EntityProperty.identifier).Perm
      (Naming.dedupe (entities.map fun (id, _) =>
        ⟨Naming.resolve (propertyKey id) Naming.entityMark, id⟩)) := by
  refine ((Text.sortedByBoth_perm _ _ _).map _).trans (.of_eq ?_)
  rw [← List.map_uncurry_zip_eq_zipWith, List.map_map]
  exact List.map_snd_zip (by simp [Naming.length_dedupe])

theorem EntitySchema.nodup_members (schemas : List EntitySchema) (schema : EntitySchema) :
    ((schema.attributeRecord schemas).fields.map FieldDefinition.identifier).Nodup ↔
      ¬ KeysMeet (schema.attributes.map Attribute.name) "A" :=
  Naming.nodup_iff_not_keysMeet_of_perm
    (identifiers_of_lookups_perm (fun _ => List.mem_map.1) fun _ _ => rfl) (.refl _) rfl

theorem Service.nodup_members {service : Service} {record : FieldRecord}
    (h : service.parameterRecord domain identifier = .ok record) :
    (record.fields.map FieldDefinition.identifier).Nodup ↔
      ¬ KeysMeet (service.fields.map ServiceField.name) "A" := by
  obtain ⟨fields, hf, rfl⟩ := parameterRecord_eq_ok.1 h
  have hfields : fields.map FieldDefinition.identifier = service.describedFields.map (·.1) :=
    map_of_mapM_eq_ok hf fun _ _ hd => ServiceField.identifier_of_define_eq_ok hd
  refine Naming.nodup_iff_not_keysMeet_of_perm (.trans (.of_eq hfields) ?_) (.refl _) rfl
  exact identifiers_of_lookups_perm (fun _ => List.mem_map.1) fun _ _ => rfl

theorem ServiceDomain.nodup_members {entry : ServiceDomain} {group : ServiceGroup}
    {records : List FieldRecord} (h : entry.group = .ok (group, records)) :
    (group.methods.map ServiceMethod.identifier).Nodup ↔
      ¬ KeysMeet (entry.services.map Service.name) "A" := by
  obtain ⟨methods, hm, rfl, -⟩ := group_eq_ok.1 h
  have hmethods : (methods.map (·.1)).map ServiceMethod.identifier = entry.described.map (·.1) := by
    rw [List.map_map]
    exact map_of_mapM_eq_ok hm fun _ _ hd => Service.identifier_of_method_eq_ok hd
  have hsorted := Text.sortedBy_perm Service.name entry.services
  refine Naming.nodup_iff_not_keysMeet_of_perm (.trans (.of_eq hmethods) ?_)
    (hsorted.map Service.name) rfl
  refine identifiers_of_lookups_perm (fun key hk => ?_) fun _ _ => rfl
  obtain ⟨service, hs, rfl⟩ := List.mem_map.1 hk
  exact ⟨service, hsorted.mem_iff.1 hs, rfl⟩

theorem entities_of_domain_perm (samples : List EntitySample) (options : SchemaOptions)
    (domain : String) :
    (((assemble samples options).filter (·.domain == domain)).flatMap EntitySchema.entities).Perm
      (samples.filter (·.domain == domain)) := by
  refine .trans (.of_eq (filter_flatMap_eq fun schema hs sample he => ?_).symm)
    ((entities_assemble_perm samples options).filter (·.domain == domain))
  rw [((of_mem_assemble hs).2 sample he).1]

theorem DomainAggregator.nodup_members {aggregator : DomainAggregator}
    (h : aggregator ∈ ofSchemas (assemble samples options)) :
    (aggregator.entities.map EntityProperty.identifier).Nodup ↔
      ¬ KeysMeet (entityKeys samples aggregator.domain) "E" := by
  obtain ⟨schema, -, rfl⟩ := mem_ofSchemas.1 h
  generalize hentities : ((assemble samples options).filter (·.domain == schema.domain)).flatMap
    (EntitySchema.typedEntities (assemble samples options)) = entities
  have hids : entities.map (·.1) =
      (((assemble samples options).filter (·.domain == schema.domain)).flatMap
        EntitySchema.entities).map EntitySample.entityId := by
    rw [← hentities, List.map_flatMap, List.map_flatMap]
    simp only [EntitySchema.typedEntities, List.map_map]
    rfl
  have hperm := (entities_of_domain_perm samples options schema.domain).map EntitySample.entityId
  refine Naming.nodup_iff_not_keysMeet (identifiers_ofEntities_perm schema.domain entities) ?_
  have hresolved := (hids ▸ hperm).map fun id => Naming.resolve (propertyKey id) Naming.entityMark
  rw [List.map_map, List.map_map] at hresolved
  rw [entityKeys, List.map_map, List.map_map]
  exact hresolved

theorem ServiceDomain.exists_mem_described {entry : ServiceDomain} {service : Service} :
    (∃ identifier, (identifier, service) ∈ entry.described) ↔
      service ∈ entry.services ∧ entry.standIn service = service := by
  constructor
  · rintro ⟨identifier, hd⟩
    refine ⟨mem_services_of_described hd, ?_⟩
    obtain ⟨named, -, hfound⟩ := List.mem_filterMap.1 hd
    obtain ⟨found, hl, heq⟩ := Option.map_eq_some_iff.1 hfound
    obtain rfl := (Prod.mk.inj heq).2
    have hn : found.name = named.sourceKey := eq_of_beq (lastWhere?_eq_some hl).2
    rw [standIn, hn, hl, Option.getD_some]
  · rintro ⟨hs, heq⟩
    have hidentified : entry.identified.map (·.2) = Text.sortedBy Service.name entry.services :=
      List.map_snd_zip (by simp [Naming.identifiers, Naming.length_dedupe])
    obtain ⟨⟨identifier, other⟩, hm, rfl⟩ := List.mem_map.1
      (hidentified ▸ (Text.sortedBy_perm Service.name _).mem_iff.2 hs)
    exact ⟨identifier, (described_perm entry).mem_iff.2 (List.mem_map.2 ⟨_, hm, by rw [heq]⟩)⟩

end

-- ---------------------------------------------------------------------------
-- Generation
-- ---------------------------------------------------------------------------

namespace GeneratedModel

section
variable {samples : List EntitySample} {options : SchemaOptions} {catalog : List ServiceDomain}
  {services : List (ServiceGroup × List FieldRecord)}

/-- The clashes that are left where of the services of one name the last takes the place of all. -/
abbrev ClashesIn (samples : List EntitySample) (options : SchemaOptions)
    (catalog : List ServiceDomain) : Prop :=
  MemberNameClash (fun entry service => entry.standIn service = service) samples options catalog

theorem not_nodup_of_clash (hg : ServiceDomain.groups catalog = .ok services)
    (h : ClashesIn samples options catalog) :
    ∃ definition ∈ definitions (assemble samples options) services,
      ¬ definition.memberIdentifiers.Nodup := by
  cases h with
  | entities domain h =>
    obtain ⟨key, hk⟩ := List.exists_mem_of_ne_nil _ h.ne_nil
    obtain ⟨sample, hs, -⟩ := List.mem_map.1 hk
    obtain ⟨hs, hd⟩ := List.mem_filter.1 hs
    obtain ⟨schema, hschema, rfl, -⟩ := exists_mem_assemble.2 ⟨sample, hs, eq_of_beq hd, rfl⟩
    have ha := DomainAggregator.mem_ofSchemas.2 ⟨schema, hschema, rfl⟩
    exact ⟨_, mem_domainEntities.2 ha, fun hn => (DomainAggregator.nodup_members ha).1 hn h⟩
  | @attributes schema hs h =>
    exact ⟨_, mem_attributeRecord.2 ⟨schema, hs, rfl⟩,
      fun hn => (EntitySchema.nodup_members _ schema).1 hn h⟩
  | @services entry he h =>
    have hne : entry.services ≠ [] := fun hn => h.ne_nil (by rw [hn, List.map_nil])
    obtain ⟨⟨group, records⟩, hr, hentry⟩ :=
      exists_of_mem_of_mapM_eq_ok hg (ServiceDomain.mem_withServices.2 ⟨he, hne⟩)
    exact ⟨_, mem_serviceGroup.2 ⟨_, hr, rfl⟩, fun hn => (ServiceDomain.nodup_members hentry).1 hn h⟩
  | @fields entry service he hs hl h =>
    have hf : service.fields ≠ [] := fun hn => h.ne_nil (by rw [hn, List.map_nil])
    obtain ⟨⟨group, records⟩, hr, hentry⟩ :=
      exists_of_mem_of_mapM_eq_ok hg (ServiceDomain.mem_withServices.2 ⟨he, List.ne_nil_of_mem hs⟩)
    obtain ⟨identifier, hd⟩ := ServiceDomain.exists_mem_described.2 ⟨hs, hl⟩
    obtain ⟨methods, hm, -, -⟩ := ServiceDomain.group_eq_ok.1 hentry
    obtain ⟨result, -, hmethod⟩ := exists_of_mem_of_mapM_eq_ok hm hd
    rcases Service.method_eq_ok.1 hmethod with ⟨hn, -⟩ | ⟨-, record, hmade, -⟩
    · exact absurd hn hf
    · have hrecord := (ServiceDomain.mem_records hentry).2 ⟨identifier, service, hd, hf, hmade⟩
      exact ⟨_, mem_serviceParameters.2 (List.mem_flatMap.2 ⟨_, hr, hrecord⟩),
        fun hn => (Service.nodup_members hmade).1 hn h⟩

theorem nodup_of_not_clash (hg : ServiceDomain.groups catalog = .ok services)
    (distinct : DistinctStems (assemble samples options) catalog)
    (h : ¬ ClashesIn samples options catalog) {definition : TypeDefinition}
    (hm : definition ∈ definitions (assemble samples options) services) :
    definition.memberIdentifiers.Nodup := by
  have hmethods {result : ServiceGroup × List FieldRecord} (hr : result ∈ services) :
      (result.1.methods.map ServiceMethod.identifier).Nodup := by
    obtain ⟨entry, he, hentry⟩ := mem_of_mapM_eq_ok hg hr
    exact (ServiceDomain.nodup_members hentry).2 fun hk =>
      h (.services (ServiceDomain.mem_withServices.1 he).1 hk)
  cases definition with
  | registration registration => exact List.nodup_nil
  | rootEntities root =>
    obtain rfl := mem_rootEntities.1 hm
    have hdomains := distinct.domains
    rw [EntitySchema.domains, ← DomainAggregator.domains_ofSchemas, List.map_map] at hdomains
    simpa [TypeDefinition.memberIdentifiers, Function.comp_def, DomainAggregator.rootMember]
      using hdomains
  | domainEntities aggregator =>
    have ha := mem_domainEntities.1 hm
    exact (DomainAggregator.nodup_members ha).2 fun hk => h (.entities _ hk)
  | entity entity => exact List.nodup_nil
  | attributeRecord record =>
    obtain ⟨schema, hs, rfl⟩ := mem_attributeRecord.1 hm
    exact (EntitySchema.nodup_members _ schema).2 fun hk => h (.attributes hs hk)
  | rootServices root =>
    obtain rfl := mem_rootServices.1 hm
    have hgroups := distinct.groups
    rw [← ServiceDomain.domains_of_groups_eq_ok hg, List.map_map] at hgroups
    simpa [TypeDefinition.memberIdentifiers, Function.comp_def, ServiceGroup.rootMember]
      using hgroups
  | serviceGroup group =>
    obtain ⟨result, hr, rfl⟩ := mem_serviceGroup.1 hm
    exact hmethods hr
  | serviceParameters record =>
    obtain ⟨⟨group, records⟩, hr, hrecord⟩ := List.mem_flatMap.1 (mem_serviceParameters.1 hm)
    obtain ⟨entry, he, hentry⟩ := mem_of_mapM_eq_ok hg hr
    obtain ⟨identifier, service, hd, -, hmade⟩ := (ServiceDomain.mem_records hentry).1 hrecord
    obtain ⟨hs, hl⟩ := ServiceDomain.exists_mem_described.1 ⟨identifier, hd⟩
    exact (Service.nodup_members hmade).2 fun hk =>
      h (.fields (ServiceDomain.mem_withServices.1 he).1 hs hl hk)
  | entityExtensions extensions =>
    obtain ⟨result, hr, hx⟩ := mem_entityExtensions.1 hm
    obtain ⟨-, rfl⟩ := ServiceGroup.extensions?_eq_some.1 hx
    exact hmethods hr

theorem forall_ne_duplicateTypeName (known : ServiceDomain.IsKnown catalog) :
    (∀ name first second, generate (assemble samples options) catalog ≠
      .error (.duplicateTypeName name first second)) ↔
        DistinctStems (assemble samples options) catalog := by
  obtain ⟨services, hg⟩ := ServiceDomain.exists_groups_ok known
  constructor
  · intro h
    refine (nodup_names hg).1 (by_contra fun hn => ?_)
    obtain ⟨name, first, second, hclash⟩ := check_eq_duplicateTypeName.2 hn
    exact h name first second ((generate_eq_check hg).trans hclash)
  · intro distinct name first second hclash
    have herror := (generate_eq_check hg).symm.trans hclash
    exact check_eq_duplicateTypeName.1 ⟨name, first, second, herror⟩ ((nodup_names hg).2 distinct)

end

/-- Where type names differ, a model is refused exactly if keys of one scope meet, but for the fields of
services that another of their name replaces; where no entry repeats a name, there are none. Names of a
scope meet in this one way only. -/
theorem generate_eq_duplicateMemberName (samples : List EntitySample) (options : SchemaOptions)
    (catalog : List ServiceDomain) (known : ServiceDomain.IsKnown catalog)
    (named : ∀ name first second, generate (assemble samples options) catalog ≠
      .error (.duplicateTypeName name first second)) :
    ((∃ typeName member, generate (assemble samples options) catalog =
        .error (.duplicateMemberName typeName member)) ↔
      MemberNameClash (fun entry service => entry.standIn service = service)
        samples options catalog) ∧
    (ServiceDomain.DeclareOnce catalog →
      ((∃ typeName member, generate (assemble samples options) catalog =
          .error (.duplicateMemberName typeName member)) ↔
        MemberNameClash (fun _ _ => True) samples options catalog)) ∧
    (¬ MemberNameClash (fun entry service => entry.standIn service = service)
        samples options catalog →
      ∃ model, generate (assemble samples options) catalog = .ok model) ∧
    ∀ letter items, Naming.AreScoped letter items → ∀ (i j : Nat) first second, i ≠ j →
      items[i]? = some first → items[j]? = some second →
      (Naming.dedupe items)[i]? = (Naming.dedupe items)[j]? →
        ∃ n, Naming.IsMet (items.map Naming.Named.identifier) letter n ∧
          (first.identifier = letter ∧ second.identifier = Naming.numbered letter n ∨
            second.identifier = letter ∧ first.identifier = Naming.numbered letter n) := by
  obtain ⟨services, hg⟩ := ServiceDomain.exists_groups_ok known
  have distinct := (forall_ne_duplicateTypeName known).1 named
  have hnames := (nodup_names hg).2 distinct
  have refused : (∃ typeName member, generate (assemble samples options) catalog =
      .error (.duplicateMemberName typeName member)) ↔ ClashesIn samples options catalog := by
    rw [generate_eq_check hg, check_eq_duplicateMemberName, and_iff_right hnames]
    constructor
    · rintro ⟨definition, hm, hmembers⟩
      exact by_contra fun hc => hmembers (nodup_of_not_clash hg distinct hc hm)
    · exact not_nodup_of_clash hg
  refine ⟨refused, fun hd => refused.trans (memberNameClash_of_declareOnce hd), fun h => ?_,
    fun letter items hs i j first second hne hi hj heq => ?_⟩
  · rw [generate_eq_check hg]
    exact ⟨_, check_eq_ok.2 ⟨hnames, fun _ => nodup_of_not_clash hg distinct h, rfl⟩⟩
  · exact Naming.isMet_letter_of_getElem?_eq hs hne hi hj heq

def letterSamples : List EntitySample :=
  [⟨"light.e", none, []⟩, ⟨"light.E", none, []⟩, ⟨"light.0", none, []⟩]

theorem generate_letterSamples : ServiceDomain.IsKnown [] ∧
    (∀ name first second, generate (assemble letterSamples ⟨[]⟩) [] ≠
      .error (.duplicateTypeName name first second)) ∧
    ∃ typeName member, generate (assemble letterSamples ⟨[]⟩) [] =
      .error (.duplicateMemberName typeName member) := by
  have known : ServiceDomain.IsKnown [] := by simp [ServiceDomain.IsKnown]
  have plain : ∀ sample ∈ letterSamples, SchemaOptions.isNumeric ⟨[]⟩ sample = false := by decide
  have domain : ∀ sample ∈ letterSamples, sample.domain = "light" := by decide +kernel
  have hdomains : ∀ first ∈ letterSamples, ∀ second ∈ letterSamples,
      Naming.domainName first.domain = Naming.domainName second.domain →
        first.domain = second.domain := fun first hf second hs _ =>
    (domain first hf).trans (domain second hs).symm
  have distinct : DistinctStems (assemble letterSamples ⟨[]⟩) [] := by
    refine ⟨nodup_domains_assemble.2 hdomains, (nodup_bases_assemble hdomains).2 fun _ hm => ?_,
      by decide +kernel, by decide +kernel⟩
    obtain ⟨sample, hs, -, hn⟩ := isMixed_assemble.1 hm true
    cases (plain sample hs).symm.trans hn
  have named := (forall_ne_duplicateTypeName known).2 distinct
  have met : KeysMeet (entityKeys letterSamples "light") "E" :=
    ⟨0, by decide +kernel, by decide +kernel, by decide +kernel⟩
  exact ⟨known, named,
    (generate_eq_duplicateMemberName letterSamples ⟨[]⟩ [] known named).1.2 (.entities _ met)⟩

def shadowedService : ServiceDomain :=
  ⟨"d", [⟨"s", none, [⟨"a", none, false, none⟩, ⟨"A", none, false, none⟩, ⟨"0", none, false, none⟩]⟩,
    ⟨"s", none, []⟩]⟩

/-- The fields of the first of two services of one name are lost, so nothing stops the model that should
be refused for them. -/
theorem generate_shadowedService : ServiceDomain.IsKnown [shadowedService] ∧
    (∀ name first second, generate (assemble [] (.ofDomains [])) [shadowedService] ≠
      .error (.duplicateTypeName name first second)) ∧
    MemberNameClash (fun _ _ => True) [] (.ofDomains []) [shadowedService] ∧
    ¬ ∃ typeName member, generate (assemble [] (.ofDomains [])) [shadowedService] =
      .error (.duplicateMemberName typeName member) := by
  have known : ServiceDomain.IsKnown [shadowedService] := by
    simp [ServiceDomain.IsKnown, shadowedService, ServiceField.IsKnown]
  have distinct : DistinctStems (assemble [] (.ofDomains [])) [shadowedService] := by
    refine ⟨List.nodup_nil, List.nodup_nil, ?_, ?_⟩
    · rw [(ServiceDomain.groupStems_perm _).nodup_iff]
      decide +kernel
    · rw [(ServiceDomain.declaredStems_perm _).nodup_iff, ServiceDomain.declared, List.flatMap_singleton,
        ServiceDomain.identified_of_pairwise (by decide)]
      decide +kernel
  have named := (forall_ne_duplicateTypeName known).2 distinct
  have met : KeysMeet ["a", "A", "0"] "A" :=
    ⟨0, by decide +kernel, by decide +kernel, by decide +kernel⟩
  refine ⟨known, named, .fields (List.mem_singleton_self _) List.mem_cons_self trivial met, ?_⟩
  obtain ⟨services, hg⟩ := ServiceDomain.exists_groups_ok known
  rw [generate_eq_check hg, check_eq_duplicateMemberName]
  rintro ⟨-, definition, hm, hmembers⟩
  refine hmembers (nodup_of_not_clash hg distinct (fun clash => ?_) hm)
  cases clash with
  | entities domain h => exact h.ne_nil rfl
  | attributes hs h => cases hs
  | services he h =>
    cases List.mem_singleton.1 he
    obtain ⟨n, hn⟩ := h
    exact absurd hn.several (by decide +kernel)
  | fields he hs hl h =>
    cases List.mem_singleton.1 he
    rcases List.mem_pair.1 hs with rfl | rfl
    · exact absurd hl (by decide +kernel)
    · exact h.ne_nil rfl

end GeneratedModel

end HomeHub
