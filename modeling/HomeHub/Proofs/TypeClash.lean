import HomeHub.Proofs.NameOrder
import HomeHub.Proofs.TypeNames

/-!
# When type names clash

The conditions on samples and catalog under which a model is refused for its type names: two domains
that look alike, a domain that looks like a numeric one, two groups of one domain name, and two
parameter records whose domain and method run together to one text. Of the services that an entry
declares under one name only the last has a record: the records of the others are lost, and with them
their clashes.
-/

namespace HomeHub

open Naming (domainName)

namespace ServiceDomain

def declared (catalog : List ServiceDomain) : List (ServiceDomain × String × Service) :=
  catalog.flatMap fun entry => entry.identified.map (entry, ·)

/-- The name of the group of an entry, without the ending. -/
def groupStem? (entry : ServiceDomain) : Option String :=
  if entry.services = [] then none else some (domainName entry.domain)

def declaredStem? : ServiceDomain × String × Service → Option String
  | (entry, identifier, service) =>
    Service.recordStem? entry.domain (identifier, entry.standIn service)

theorem withServices_perm (catalog : List ServiceDomain) :
    (withServices catalog).Perm (catalog.filter fun entry => !entry.services.isEmpty) :=
  Text.sortedBy_perm _ _

theorem groupStems_perm (catalog : List ServiceDomain) :
    ((groupDomains catalog).map domainName).Perm (catalog.filterMap groupStem?) := by
  rw [groupDomains, List.map_map]
  refine ((withServices_perm catalog).map _).trans (.of_eq ?_)
  rw [← List.filterMap_eq_map, List.filterMap_filter]
  refine List.filterMap_congr fun entry _ => ?_
  cases hs : entry.services <;> simp [groupStem?, hs]

theorem recordStems_perm (entry : ServiceDomain) :
    entry.recordStems.Perm ((entry.identified.map (entry, ·)).filterMap declaredStem?) := by
  refine ((described_perm entry).filterMap _).trans (.of_eq ?_)
  rw [List.filterMap_map, List.filterMap_map]
  rfl

theorem identified_of_pairwise {entry : ServiceDomain}
    (h : entry.services.Pairwise fun first second => first.name ≤ second.name) :
    entry.identified =
      (Naming.identifiers (entry.services.map Service.name) Naming.fieldMark).zip entry.services := by
  rw [identified, Text.sortedBy_of_pairwise h]

theorem identified_eq_nil {entry : ServiceDomain} (h : entry.services = []) :
    entry.identified = [] := by
  simp [identified, h, Text.sortedBy]

/-- No entry declares two services of one name. -/
def DeclareOnce (catalog : List ServiceDomain) : Prop :=
  ∀ entry ∈ catalog, (entry.services.map Service.name).Nodup

theorem DeclareOnce.standIn_eq {catalog : List ServiceDomain} (h : DeclareOnce catalog)
    {entry : ServiceDomain} (he : entry ∈ catalog) {service : Service}
    (hs : service ∈ entry.services) : entry.standIn service = service := by
  rw [standIn, (lastWhere?_eq_some_iff (h entry he)).2 ⟨hs, rfl⟩, Option.getD_some]

theorem of_mem_declared {catalog : List ServiceDomain} {entry : ServiceDomain} {identifier : String}
    {service : Service} (h : (entry, identifier, service) ∈ declared catalog) :
    entry ∈ catalog ∧ service ∈ entry.services := by
  obtain ⟨declaring, he, hm⟩ := List.mem_flatMap.1 h
  obtain ⟨pair, hp, heq⟩ := List.mem_map.1 hm
  obtain ⟨rfl, rfl⟩ := Prod.mk.inj heq
  exact ⟨he, mem_services_of_identified hp⟩

theorem declaredStems_perm (catalog : List ServiceDomain) :
    ((withServices catalog).flatMap recordStems).Perm
      ((declared catalog).filterMap declaredStem?) := by
  rw [declared, List.filterMap_flatMap]
  refine ((withServices_perm catalog).flatMap_right _).trans ?_
  induction catalog with
  | nil => exact .nil
  | cons entry rest ih =>
    cases hs : entry.services with
    | nil => simpa [hs, identified_eq_nil hs] using ih
    | cons service services =>
      simpa [hs] using (recordStems_perm entry).append ih

end ServiceDomain

-- ---------------------------------------------------------------------------
-- Domains and base names
-- ---------------------------------------------------------------------------

section
variable {samples : List EntitySample} {options : SchemaOptions}

theorem mem_domains_assemble {domain : String} :
    domain ∈ EntitySchema.domains (assemble samples options) ↔
      ∃ sample ∈ samples, sample.domain = domain := by
  simp only [EntitySchema.domains, Text.mem_ascending, List.mem_map]
  constructor
  · rintro ⟨schema, hm, rfl⟩
    obtain ⟨sample, hs, hd, -⟩ := exists_mem_assemble.1 ⟨schema, hm, rfl, rfl⟩
    exact ⟨sample, hs, hd⟩
  · rintro ⟨sample, hs, rfl⟩
    obtain ⟨schema, hm, hd, -⟩ := exists_mem_assemble.2 ⟨sample, hs, rfl, rfl⟩
    exact ⟨schema, hm, hd⟩

theorem isMixed_assemble {domain : String} :
    EntitySchema.isMixed (assemble samples options) domain = true ↔ ∀ flag,
      ∃ sample ∈ samples, sample.domain = domain ∧ options.isNumeric sample = flag := by
  simp only [← exists_mem_assemble, EntitySchema.isMixed, List.all_eq_true, List.any_eq_true,
    Bool.and_eq_true, beq_iff_eq]
  exact ⟨fun h flag => h flag (by cases flag <;> simp), fun h flag _ => h flag⟩

theorem nodup_domains_assemble :
    ((EntitySchema.domains (assemble samples options)).map domainName).Nodup ↔
      ∀ first ∈ samples, ∀ second ∈ samples,
        domainName first.domain = domainName second.domain → first.domain = second.domain := by
  have hn : (EntitySchema.domains (assemble samples options)).Nodup := Text.nodup_ascending _
  simp only [List.nodup_map_iff_inj_on hn, mem_domains_assemble, forall_exists_index, and_imp,
    forall_apply_eq_imp_iff₂]

def EntitySchema.IsPlain (schemas : List EntitySchema) (schema : EntitySchema) : Prop :=
  schema.isNumeric = true → isMixed schemas schema.domain = false

theorem baseName_eq_plain {schemas : List EntitySchema} {schema : EntitySchema}
    (h : schema.IsPlain schemas) : schema.baseName schemas = domainName schema.domain := by
  cases hn : schema.isNumeric with
  | false => simp [EntitySchema.baseName, hn]
  | true => simp [EntitySchema.baseName, h hn]

theorem baseName_eq_numeric {schemas : List EntitySchema} {schema : EntitySchema}
    (hn : schema.isNumeric = true) (hm : EntitySchema.isMixed schemas schema.domain = true) :
    schema.baseName schemas = "Numeric" ++ domainName schema.domain := by
  simp [EntitySchema.baseName, hn, hm]

theorem not_isPlain {schemas : List EntitySchema} {schema : EntitySchema} :
    ¬ schema.IsPlain schemas ↔
      schema.isNumeric = true ∧ EntitySchema.isMixed schemas schema.domain = true := by
  simp [EntitySchema.IsPlain]

theorem exists_isPlain (options : SchemaOptions) {sample : EntitySample} (h : sample ∈ samples) :
    ∃ schema ∈ assemble samples options, schema.domain = sample.domain ∧
      schema.IsPlain (assemble samples options) := by
  cases hm : EntitySchema.isMixed (assemble samples options) sample.domain with
  | true =>
    obtain ⟨schema, hs, hd, hf⟩ := exists_mem_assemble.2 (isMixed_assemble.1 hm false)
    exact ⟨schema, hs, hd, by simp [EntitySchema.IsPlain, hf]⟩
  | false =>
    obtain ⟨schema, hs, hd, -⟩ := exists_mem_assemble.2
      ⟨sample, h, rfl, (rfl : options.isNumeric sample = _)⟩
    exact ⟨schema, hs, hd, fun _ => hd ▸ hm⟩

theorem eq_of_mem_assemble {first second : EntitySchema} (hf : first ∈ assemble samples options)
    (hs : second ∈ assemble samples options) (hd : first.domain = second.domain)
    (hn : first.isNumeric = second.isNumeric) : first = second := by
  obtain ⟨domain, flag, hf⟩ := mem_assemble.1 hf
  obtain ⟨other, flag', hs⟩ := mem_assemble.1 hs
  obtain ⟨-, rfl⟩ := group?_eq_some.1 hf
  obtain ⟨-, rfl⟩ := group?_eq_some.1 hs
  obtain rfl : domain = other := hd
  obtain rfl : flag = flag' := hn
  rfl

theorem nodup_assemble (samples : List EntitySample) (options : SchemaOptions) :
    (assemble samples options).Nodup := by
  refine (pairwise_assemble samples options).imp fun hb heq => ?_
  subst heq
  rcases hb.ne with h | h <;> exact h rfl

theorem isMixed_of_mem_assemble {first second : EntitySchema}
    (hf : first ∈ assemble samples options) (hs : second ∈ assemble samples options)
    (hd : first.domain = second.domain) (hn : first.isNumeric ≠ second.isNumeric) :
    EntitySchema.isMixed (assemble samples options) first.domain = true := by
  rw [isMixed_assemble]
  intro flag
  by_cases h : first.isNumeric = flag
  · exact exists_mem_assemble.1 ⟨first, hf, rfl, h⟩
  · exact exists_mem_assemble.1 ⟨second, hs, hd.symm, by
      rw [Bool.eq_not_of_ne hn.symm, Bool.eq_not_of_ne h, Bool.not_not]⟩

theorem eq_of_isPlain {first second : EntitySchema} (hf : first ∈ assemble samples options)
    (hs : second ∈ assemble samples options) (hd : first.domain = second.domain)
    (hfp : first.IsPlain (assemble samples options))
    (hsp : second.IsPlain (assemble samples options)) : first = second := by
  refine eq_of_mem_assemble hf hs hd (by_contra fun hn => ?_)
  have hm := isMixed_of_mem_assemble hf hs hd hn
  cases h : first.isNumeric with
  | true => simp [hfp h] at hm
  | false =>
    have hp := hsp (by simpa [h] using hn)
    simp [hd, hp] at hm

/-- Base names meet where a domain is named like the numeric types of a mixed one. -/
theorem nodup_bases_assemble
    (hd : ∀ first ∈ samples, ∀ second ∈ samples,
      domainName first.domain = domainName second.domain → first.domain = second.domain) :
    ((assemble samples options).map (EntitySchema.baseName (assemble samples options))).Nodup ↔
      ∀ domain, EntitySchema.isMixed (assemble samples options) domain = true →
        ∀ other ∈ samples, domainName other.domain ≠ "Numeric" ++ domainName domain := by
  have sampled {schema : EntitySchema} (hm : schema ∈ assemble samples options) :
      ∃ sample ∈ samples, sample.domain = schema.domain := by
    obtain ⟨sample, hs, hd, -⟩ := exists_mem_assemble.1 ⟨schema, hm, rfl, rfl⟩
    exact ⟨sample, hs, hd⟩
  rw [List.nodup_map_iff_inj_on (nodup_assemble samples options)]
  constructor
  · intro hb domain hm other ho heq
    obtain ⟨numeric, hn, rfl, hf⟩ := exists_mem_assemble.2 (isMixed_assemble.1 hm true)
    obtain ⟨plain, hs, hpd, hp⟩ := exists_isPlain options ho
    have hpb := (baseName_eq_plain hp).trans (congrArg domainName hpd)
    obtain rfl := hb numeric hn plain hs ((baseName_eq_numeric hf hm).trans (heq.symm.trans hpb.symm))
    exact not_isPlain.2 ⟨hf, hm⟩ hp
  · intro h first hf second hs heq
    obtain ⟨sample, hm, hfd⟩ := sampled hf
    obtain ⟨other, ho, hsd⟩ := sampled hs
    have hdomain (hn : domainName first.domain = domainName second.domain) :
        first.domain = second.domain := by
      rw [← hfd, ← hsd] at hn ⊢
      exact hd sample hm other ho hn
    -- schemas of one kind meet only in one domain, and those of two kinds only as ruled out by h
    by_cases hfp : first.IsPlain (assemble samples options) <;>
      by_cases hsp : second.IsPlain (assemble samples options)
    · rw [baseName_eq_plain hfp, baseName_eq_plain hsp] at heq
      exact eq_of_isPlain hf hs (hdomain heq) hfp hsp
    · obtain ⟨hn, hx⟩ := not_isPlain.1 hsp
      rw [baseName_eq_plain hfp, baseName_eq_numeric hn hx, ← hfd] at heq
      exact (h _ hx sample hm heq).elim
    · obtain ⟨hn, hx⟩ := not_isPlain.1 hfp
      rw [baseName_eq_plain hsp, baseName_eq_numeric hn hx, ← hsd] at heq
      exact (h _ hx other ho heq.symm).elim
    · obtain ⟨hfn, hfx⟩ := not_isPlain.1 hfp
      obtain ⟨hsn, hsx⟩ := not_isPlain.1 hsp
      rw [baseName_eq_numeric hfn hfx, baseName_eq_numeric hsn hsx] at heq
      have hn : domainName first.domain = domainName second.domain := by simpa using heq
      exact eq_of_mem_assemble hf hs (hdomain hn) (hfn.trans hsn.symm)

end

-- ---------------------------------------------------------------------------
-- The clashes
-- ---------------------------------------------------------------------------

/-- What makes two type names of a model meet. Which services have parameter records is left open. -/
inductive TypeNameClash (hasRecord : ServiceDomain → Service → Prop) (samples : List EntitySample)
    (options : SchemaOptions) (catalog : List ServiceDomain) : Prop where
  /-- Two domains of entities look alike. -/
  | domains {first second : EntitySample} (hf : first ∈ samples) (hs : second ∈ samples)
      (hne : first.domain ≠ second.domain)
      (h : domainName first.domain = domainName second.domain)
  /-- A domain looks like the numeric entities of one that has others too. -/
  | numeric {numeric plain other : EntitySample} (hn : numeric ∈ samples) (hp : plain ∈ samples)
      (ho : other ∈ samples) (hd : numeric.domain = plain.domain)
      (hnf : options.isNumeric numeric = true) (hpf : options.isNumeric plain = false)
      (h : domainName other.domain = "Numeric" ++ domainName numeric.domain)
  /-- Two entries with services look alike by their domains. -/
  | groups {first second : ServiceDomain} (hsub : [first, second].Sublist catalog)
      (hf : first.services ≠ []) (hs : second.services ≠ [])
      (h : domainName first.domain = domainName second.domain)
  /-- Two services with records have domains and methods that run together to one text. -/
  | parameters {first second : ServiceDomain} {identifier other : String} {service found : Service}
      (hsub : [(first, identifier, service), (second, other, found)].Sublist
        (ServiceDomain.declared catalog))
      (hf : hasRecord first service) (hs : hasRecord second found)
      (h : domainName first.domain ++ identifier = domainName second.domain ++ other)

section
variable {samples : List EntitySample} {options : SchemaOptions} {catalog : List ServiceDomain}

theorem TypeNameClash.imp {hasRecord other : ServiceDomain → Service → Prop}
    (hc : TypeNameClash hasRecord samples options catalog)
    (h : ∀ entry ∈ catalog, ∀ service ∈ entry.services, hasRecord entry service → other entry service) :
    TypeNameClash other samples options catalog := by
  cases hc with
  | domains hf hs hne heq => exact .domains hf hs hne heq
  | numeric hn hp ho hd hnf hpf heq => exact .numeric hn hp ho hd hnf hpf heq
  | groups hsub hf hs heq => exact .groups hsub hf hs heq
  | parameters hsub hf hs heq =>
    obtain ⟨he, hm⟩ := ServiceDomain.of_mem_declared (hsub.subset (List.mem_cons_self ..))
    obtain ⟨he', hm'⟩ := ServiceDomain.of_mem_declared
      (hsub.subset (List.mem_cons_of_mem _ (List.mem_cons_self ..)))
    exact .parameters hsub (h _ he _ hm hf) (h _ he' _ hm' hs) heq

end

-- ---------------------------------------------------------------------------
-- Generation
-- ---------------------------------------------------------------------------

def ServiceDomain.IsKnown (catalog : List ServiceDomain) : Prop :=
  ∀ entry ∈ catalog, ∀ service ∈ entry.services, ∀ field ∈ service.fields, field.IsKnown

namespace GeneratedModel

theorem generate_eq_check {schemas : List EntitySchema} {catalog : List ServiceDomain}
    {services : List (ServiceGroup × List FieldRecord)} (h : ServiceDomain.groups catalog = .ok services) :
    generate schemas catalog = check (definitions schemas services) := by
  simp only [generate, h]
  rfl

end GeneratedModel

end HomeHub
