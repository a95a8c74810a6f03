import HomeHub.Config
import HomeHub.Proofs.Success
import Mathlib

/-!
# Effective configurations

What a configuration comes to. Each setting is taken from the first source that has it: the environment,
the file, the defaults. A file that cannot be read or understood is told first, whatever the environment
is; only what comes out of all sources is checked, so the environment can mend a file and can spoil it.
-/

namespace HomeHub

-- ---------------------------------------------------------------------------
-- Names of formats
-- ---------------------------------------------------------------------------

namespace Text

theorem exists_eq_append_trim (text : List Char) : ∃ before after,
    text = before ++ trim text ++ after ∧ (∀ c ∈ before, isBlank c = true) ∧
      ∀ c ∈ after, isBlank c = true := by
  have hend (line : List Char) : trimEnd line ++ (line.reverse.takeWhile isBlank).reverse = line := by
    rw [trimEnd, ← List.reverse_append, List.takeWhile_append_dropWhile, List.reverse_reverse]
  refine ⟨text.takeWhile isBlank, ((trimStart text).reverse.takeWhile isBlank).reverse, ?_,
    fun c hc => List.mem_takeWhile_imp hc,
    fun c hc => List.mem_takeWhile_imp (List.mem_reverse.1 hc)⟩
  rw [List.append_assoc, trim, hend, trimStart, List.takeWhile_append_dropWhile]

theorem dropWhile_isBlank_append {blanks word : List Char} (hb : ∀ c ∈ blanks, isBlank c = true)
    (hw : ∀ c ∈ word, isBlank c = false) (hn : word ≠ []) (rest : List Char) :
    (blanks ++ (word ++ rest)).dropWhile isBlank = word ++ rest := by
  obtain ⟨c, others, rfl⟩ := List.exists_cons_of_ne_nil hn
  have hc := hw c List.mem_cons_self
  rw [List.dropWhile_append_of_pos hb, List.cons_append, List.dropWhile_cons_of_neg (by simp [hc])]

theorem trim_append {before word after : List Char} (hb : ∀ c ∈ before, isBlank c = true)
    (hw : ∀ c ∈ word, isBlank c = false) (hn : word ≠ []) (ha : ∀ c ∈ after, isBlank c = true) :
    trim (before ++ word ++ after) = word := by
  have hstart : trimStart (before ++ word ++ after) = word ++ after := by
    rw [trimStart, List.append_assoc, dropWhile_isBlank_append hb hw hn]
  have hend : (after.reverse ++ word.reverse).dropWhile isBlank = word.reverse := by
    have hblanks : ∀ c ∈ after.reverse, isBlank c = true := fun c hc => ha c (List.mem_reverse.1 hc)
    have hvisible : ∀ c ∈ word.reverse, isBlank c = false := fun c hc => hw c (List.mem_reverse.1 hc)
    have hdrop := dropWhile_isBlank_append hblanks hvisible (List.reverse_ne_nil_iff.2 hn) []
    rwa [List.append_nil] at hdrop
  rw [trim, hstart, trimEnd, List.reverse_append, hend, List.reverse_reverse]

theorem toLower_of_isBlank {c : Char} (h : isBlank c = true) : c.toLower = c := by
  refine dif_neg fun hupper => ?_
  have hlow : 0x41 ≤ c.toNat := UInt32.le_iff_toNat_le.1 hupper.1
  have hhigh : c.toNat ≤ 0x5a := UInt32.le_iff_toNat_le.1 hupper.2
  simp [isBlank] at h
  omega

/-- A word has no blanks if it has none in small letters: a blank is its own small letter. -/
theorem visible_of_map_toLower {word letters : List Char} (hw : word.map Char.toLower = letters)
    (hl : ∀ c ∈ letters, isBlank c = false) : ∀ c ∈ word, isBlank c = false := by
  intro c hc
  rw [← Bool.not_eq_true]
  intro hblank
  have hm : c.toLower ∈ letters := hw ▸ List.mem_map_of_mem hc
  rw [toLower_of_isBlank hblank] at hm
  exact Bool.false_ne_true ((hl c hm).symm.trans hblank)

end Text

namespace Config

/-- How a text spells a format: by its name in any case, with blanks around it. -/
inductive Spells : String → OutputFormat → Prop where
  | spelled {before word after : List Char} {name : String} {format : OutputFormat}
      (hn : (name, format) ∈ OutputFormat.byName) (hw : word.map Char.toLower = name.toList)
      (hb : ∀ c ∈ before, Text.isBlank c = true) (ha : ∀ c ∈ after, Text.isBlank c = true) :
      Spells (String.ofList (before ++ word ++ after)) format

theorem lookup_byName {name : String} {format : OutputFormat} :
    OutputFormat.byName.lookup name = some format ↔ (name, format) ∈ OutputFormat.byName := by
  simp only [OutputFormat.byName, List.lookup_cons, List.lookup_nil]
  grind

theorem visible_of_mem_byName {name : String} {format : OutputFormat}
    (h : (name, format) ∈ OutputFormat.byName) :
    name.toList ≠ [] ∧ ∀ c ∈ name.toList, Text.isBlank c = false := by
  have hall : (OutputFormat.byName.all fun entry =>
      entry.1.toList ≠ [] && entry.1.toList.all (!Text.isBlank ·)) = true := by decide
  simpa using List.all_eq_true.1 hall _ h

theorem formatOfText_eq_ok {text : String} {format : OutputFormat} :
    formatOfText text = .ok format ↔ Spells text format := by
  have hok : formatOfText text = .ok format ↔
      (String.ofList ((Text.trim text.toList).map Char.toLower), format) ∈ OutputFormat.byName := by
    rw [← lookup_byName, ← String.toList_ofList (l := Text.trim text.toList), ← String.toList_map,
      String.ofList_toList]
    unfold formatOfText
    dsimp only
    split <;> simp [*]
  rw [hok]
  constructor
  · intro hn
    obtain ⟨before, after, htext, hb, ha⟩ := Text.exists_eq_append_trim text.toList
    rw [← String.ofList_toList (s := text), htext]
    exact .spelled hn String.toList_ofList.symm hb ha
  · intro h
    cases h with
    | @spelled before word after name _ hn hw hb ha =>
      obtain ⟨hname, hvisible⟩ := visible_of_mem_byName hn
      have hword : word ≠ [] := fun hnil => hname (by rw [← hw, hnil, List.map_nil])
      have hletters := Text.visible_of_map_toLower hw hvisible
      rw [String.toList_ofList, Text.trim_append hb hletters hword ha, hw, String.ofList_toList]
      exact hn

theorem formatOfText_eq_error {text : String} (h : ∀ format, ¬ Spells text format) :
    ∃ name, formatOfText text = .error (.validation (.unknownFormat name)) := by
  have hnone : OutputFormat.byName.lookup ((String.ofList (Text.trim text.toList)).map Char.toLower) =
      none := by
    by_contra hsome
    obtain ⟨format, hf⟩ := Option.ne_none_iff_exists'.1 hsome
    refine h format (formatOfText_eq_ok.1 ?_)
    simp only [formatOfText, hf]
  exact ⟨_, by simp only [formatOfText, hnone]; rfl⟩

end Config

-- ---------------------------------------------------------------------------
-- What a file sets
-- ---------------------------------------------------------------------------

structure Settings where
  snapshot : Option String
  output : Option String
  format : Option OutputFormat
  numericDomains : Option (List String)
  filter : Option String

namespace Settings

def nothing : Settings := ⟨none, none, none, none, none⟩

def firstOf (sources : List (Option α)) (default : α) : α :=
  (sources.findSome? id).getD default

section
open Toml (Value)

/-- What a section sets. It may also be an array of values for its keys in order. -/
inductive IsSection (keys : List String) : Value → List (String × Value) → Prop
  | table (entries : List (String × Value)) : IsSection keys (.table entries) entries
  | array (items : List Value) : IsSection keys (.array items) (keys.zip items)
  | moment (text : String) : IsSection keys (.moment text) []

inductive IsText : Value → String → Prop
  | string (text : String) : IsText (.string text) text

inductive AreTexts : Value → List String → Prop
  | array (texts : List String) : AreTexts (.array (texts.map .string)) texts

inductive IsFormat : Value → OutputFormat → Prop
  | string {name : String} {format : OutputFormat} (hn : (name, format) ∈ OutputFormat.byName) :
      IsFormat (.string name) format
  | overTable {name : String} {format : OutputFormat} (hn : (name, format) ∈ OutputFormat.byName) :
      IsFormat (.table [(name, .table [])]) format
  | overArray {name : String} {format : OutputFormat} (hn : (name, format) ∈ OutputFormat.byName) :
      IsFormat (.table [(name, .array [])]) format

inductive IsSet (reads : Value → α → Prop) (place : String) (keys : List String) (key : String)
    (entries : List (String × Value)) : Option α → Prop where
  | noSection (h : entries.lookup place = none) : IsSet reads place keys key entries none
  | noKey {value : Value} {found : List (String × Value)} (h : entries.lookup place = some value)
      (hs : IsSection keys value found) (hk : found.lookup key = none) :
      IsSet reads place keys key entries none
  | told {value other : Value} {found : List (String × Value)} {content : α}
      (h : entries.lookup place = some value) (hs : IsSection keys value found)
      (hk : found.lookup key = some other) (hr : reads other content) :
      IsSet reads place keys key entries (some content)

structure AreOf (entries : List (String × Value)) (settings : Settings) : Prop where
  snapshot : IsSet IsText "source" ["snapshot"] "snapshot" entries settings.snapshot
  output : IsSet IsText "output" ["path", "format"] "path" entries settings.output
  format : IsSet IsFormat "output" ["path", "format"] "format" entries settings.format
  numericDomains :
    IsSet AreTexts "schema" ["numeric_domains"] "numeric_domains" entries settings.numericDomains
  filter : IsSet IsText "logging" ["filter"] "filter" entries settings.filter

end

def overDefaults (settings : Settings) : Config where
  snapshot := firstOf [settings.snapshot] Config.default.snapshot
  output := firstOf [settings.output] Config.default.output
  format := firstOf [settings.format] Config.default.format
  numericDomains := firstOf [settings.numericDomains] Config.default.numericDomains
  filter := firstOf [settings.filter] Config.default.filter

end Settings

/-- What a file sets, which need not be there. A file that sets nothing of the kind is malformed. -/
inductive Config.FileSets : Except FileError String → Settings → Prop where
  | missing : FileSets (.error .notFound) .nothing
  | read {text : String} {entries : List (String × Toml.Value)} {settings : Settings}
      (ht : Toml.entriesOf? text = some entries) (hs : settings.AreOf entries) :
      FileSets (.ok text) settings

namespace Config

section
open Toml (Value)

theorem sectionEntries_eq_some {keys : List String} {value : Value} {found : List (String × Value)} :
    sectionEntries keys value = some found ↔ Settings.IsSection keys value found := by
  constructor
  · intro h
    cases value with
    | table entries => cases h; exact .table _
    | array items => cases h; exact .array _
    | moment text => cases h; exact .moment _
    | _ => cases h
  · rintro (_ | _ | _) <;> rfl

theorem text?_eq_some {value : Value} {text : String} :
    text? value = some text ↔ Settings.IsText value text := by
  constructor
  · intro h
    cases value with
    | string text => cases h; exact .string _
    | _ => cases h
  · rintro ⟨⟩
    rfl

theorem texts?_eq_some {value : Value} {texts : List String} :
    texts? value = some texts ↔ Settings.AreTexts value texts := by
  have hitems {items : List Value} {texts : List String} :
      items.mapM text? = some texts ↔ items = texts.map .string := by
    induction items generalizing texts with
    | nil => cases texts <;> simp
    | cons item rest ih =>
      simp only [List.mapM_cons, Option.bind_eq_bind, Option.bind_eq_some_iff, ih, text?_eq_some]
      constructor
      · rintro ⟨_, ⟨text⟩, others, rfl, heq⟩
        cases heq
        rfl
      · intro h
        obtain ⟨text, others, rfl, rfl, rfl⟩ := List.map_eq_cons_iff.1 h.symm
        exact ⟨text, .string text, others, rfl, rfl⟩
  constructor
  · intro h
    cases value with
    | array items => obtain rfl := hitems.1 h; exact .array texts
    | _ => cases h
  · rintro ⟨⟩
    exact hitems.2 rfl

theorem format?_eq_some {value : Value} {format : OutputFormat} :
    format? value = some format ↔ Settings.IsFormat value format := by
  constructor
  · intro h
    unfold format? at h
    split at h
    · exact .string (lookup_byName.1 h)
    · exact .overTable (lookup_byName.1 h)
    · exact .overArray (lookup_byName.1 h)
    · cases h
  · rintro (hn | hn | hn) <;> exact lookup_byName.2 hn

variable {read : Value → Option α} {reads : Value → α → Prop} {place key : String}
  {keys : List String} {entries found : List (String × Value)} {value? : Option α}

theorem setting_of_isSet (hr : ∀ {value content}, read value = some content ↔ reads value content)
    (h : Settings.IsSet reads place keys key entries value?) :
    ∃ found, entriesOf place keys entries = some found ∧
      ∀ default, setting read key default found = some (Settings.firstOf [value?] default) := by
  cases h with
  | noSection h => exact ⟨[], by simp [entriesOf, h], fun default => rfl⟩
  | @noKey _ found h hs hk =>
    exact ⟨found, by simp [entriesOf, h, sectionEntries_eq_some.2 hs],
      fun default => by simp [setting, hk, Settings.firstOf]⟩
  | @told _ _ found _ h hs hk ht =>
    exact ⟨found, by simp [entriesOf, h, sectionEntries_eq_some.2 hs],
      fun default => by simp [setting, hk, hr.2 ht, Settings.firstOf]⟩

theorem exists_isSet (hr : ∀ {value content}, read value = some content ↔ reads value content)
    (h : entriesOf place keys entries = some found) {default value : α}
    (hs : setting read key default found = some value) :
    ∃ value?, Settings.IsSet reads place keys key entries value? ∧
      Settings.firstOf [value?] default = value := by
  cases hplace : entries.lookup place with
  | none =>
    simp only [entriesOf, hplace, Option.some.injEq] at h
    subst h
    exact ⟨none, .noSection hplace, Option.some.inj hs⟩
  | some held =>
    simp only [entriesOf, hplace] at h
    have hsection := sectionEntries_eq_some.1 h
    cases hkey : found.lookup key with
    | none =>
      simp only [setting, hkey, Option.some.injEq] at hs
      exact ⟨none, .noKey hplace hsection hkey, hs⟩
    | some other =>
      simp only [setting, hkey] at hs
      exact ⟨some value, .told hplace hsection hkey (hr.1 hs), rfl⟩

theorem ofEntries?_eq_some {config : Config} : ofEntries? entries = some config ↔
    ∃ settings : Settings, settings.AreOf entries ∧ settings.overDefaults = config := by
  simp only [ofEntries?, Option.bind_eq_bind, Option.bind_eq_some_iff, Option.pure_def, Option.some.injEq]
  constructor
  · rintro ⟨source, hsource, output, houtput, schema, hschema, logging, hlogging,
      snapshot, hsnapshot, path, hpath, format, hformat, domains, hdomains, filter, hfilter, rfl⟩
    obtain ⟨snapshot?, hs, rfl⟩ := exists_isSet text?_eq_some hsource hsnapshot
    obtain ⟨path?, hp, rfl⟩ := exists_isSet text?_eq_some houtput hpath
    obtain ⟨format?, hf, rfl⟩ := exists_isSet format?_eq_some houtput hformat
    obtain ⟨domains?, hd, rfl⟩ := exists_isSet texts?_eq_some hschema hdomains
    obtain ⟨filter?, hl, rfl⟩ := exists_isSet text?_eq_some hlogging hfilter
    exact ⟨⟨snapshot?, path?, format?, domains?, filter?⟩, ⟨hs, hp, hf, hd, hl⟩, rfl⟩
  · rintro ⟨settings, h, rfl⟩
    obtain ⟨source, hsource, hsnapshot⟩ := setting_of_isSet text?_eq_some h.snapshot
    obtain ⟨output, houtput, hpath⟩ := setting_of_isSet text?_eq_some h.output
    obtain ⟨same, hsame, hformat⟩ := setting_of_isSet format?_eq_some h.format
    obtain ⟨schema, hschema, hdomains⟩ := setting_of_isSet texts?_eq_some h.numericDomains
    obtain ⟨logging, hlogging, hfilter⟩ := setting_of_isSet text?_eq_some h.filter
    obtain rfl : output = same := Option.some.inj (houtput.symm.trans hsame)
    exact ⟨source, hsource, output, houtput, schema, hschema, logging, hlogging, _, hsnapshot _, _,
      hpath _, _, hformat _, _, hdomains _, _, hfilter _, rfl⟩

end

theorem ofFile_eq_ok {file : Except FileError String} {config : Config} :
    ofFile file = .ok config ↔ ∃ settings, FileSets file settings ∧ settings.overDefaults = config := by
  constructor
  · intro h
    unfold ofFile at h
    split at h
    · exact ⟨.nothing, .missing, Except.ok.inj h⟩
    · cases h
    · split at h
      · rename_i found
        obtain ⟨entries, ht, he⟩ := Option.bind_eq_some_iff.1 found
        obtain ⟨settings, hs, rfl⟩ := ofEntries?_eq_some.1 he
        exact ⟨settings, .read ht hs, Except.ok.inj h⟩
      · cases h
  · rintro ⟨settings, h, rfl⟩
    cases h with
    | missing => rfl
    | read ht hs => simp [ofFile, ht, ofEntries?_eq_some.2 ⟨settings, hs, rfl⟩]

theorem ofFile_of_malformed {text : String} (h : ∀ settings, ¬ FileSets (.ok text) settings) :
    ofFile (.ok text) = .error .parse := by
  have hnone : (Toml.entriesOf? text).bind ofEntries? = none := by
    by_contra hsome
    obtain ⟨config, hc⟩ := Option.ne_none_iff_exists'.1 hsome
    obtain ⟨settings, hs, -⟩ := ofFile_eq_ok.1 (show ofFile (.ok text) = .ok config by
      simp only [ofFile, hc])
    exact h settings hs
  simp only [ofFile, hnone]

end Config

-- ---------------------------------------------------------------------------
-- The environment
-- ---------------------------------------------------------------------------

inductive Config.TellsFormat : Option String → Option OutputFormat → Prop where
  | unset : TellsFormat none none
  | told {text : String} {format : OutputFormat} (h : Spells text format) :
      TellsFormat (some text) (some format)

def Environment.NamesNoFormat (environment : Environment) : Prop :=
  ∃ text, environment "HUBKIT_FORMAT" = some text ∧ ∀ format, ¬ Config.Spells text format

namespace Settings

structure IsEffective (settings : Settings) (environment : Environment) (config : Config) : Prop where
  snapshot : config.snapshot =
    firstOf [environment "HUBKIT_SNAPSHOT", settings.snapshot] Config.default.snapshot
  output : config.output =
    firstOf [environment "HUBKIT_OUTPUT", settings.output] Config.default.output
  format : ∃ told, Config.TellsFormat (environment "HUBKIT_FORMAT") told ∧
    config.format = firstOf [told, settings.format] Config.default.format
  numericDomains : config.numericDomains =
    firstOf [settings.numericDomains] Config.default.numericDomains
  filter : config.filter = firstOf [environment "RUST_LOG", environment "HUBKIT_LOG", settings.filter]
    Config.default.filter

theorem firstOf_cons (source : Option α) (rest : List (Option α)) (default : α) :
    firstOf (source :: rest) default = source.getD (firstOf rest default) := by
  cases source <;> rfl

end Settings

namespace Config

variable {settings : Settings} {environment : Environment} {config : Config}

def overridden (config : Config) (environment : Environment) (format : OutputFormat) : Config :=
  { config with
    snapshot := (environment "HUBKIT_SNAPSHOT").getD config.snapshot
    output := (environment "HUBKIT_OUTPUT").getD config.output
    format := format
    filter := (environment "RUST_LOG" <|> environment "HUBKIT_LOG").getD config.filter }

theorem override_eq_ok {effective : Config} : config.override environment = .ok effective ↔
    ∃ told, TellsFormat (environment "HUBKIT_FORMAT") told ∧
      config.overridden environment (told.getD config.format) = effective := by
  unfold override
  cases environment "HUBKIT_FORMAT" with
  | none =>
    constructor
    · exact fun h => ⟨none, .unset, Except.ok.inj h⟩
    · rintro ⟨_, ht, rfl⟩
      cases ht
      rfl
  | some text =>
    refine bind_eq_ok.trans ⟨?_, ?_⟩
    · rintro ⟨format, hf, h⟩
      exact ⟨some format, .told (formatOfText_eq_ok.1 hf), Except.ok.inj h⟩
    · rintro ⟨_, ht, rfl⟩
      cases ht with
      | told h => exact ⟨_, formatOfText_eq_ok.2 h, rfl⟩

theorem overridden_overDefaults (told : Option OutputFormat) :
    settings.overDefaults.overridden environment (told.getD settings.overDefaults.format) =
      ⟨Settings.firstOf [environment "HUBKIT_SNAPSHOT", settings.snapshot] default.snapshot,
        Settings.firstOf [environment "HUBKIT_OUTPUT", settings.output] default.output,
        Settings.firstOf [told, settings.format] default.format,
        Settings.firstOf [settings.numericDomains] default.numericDomains,
        Settings.firstOf [environment "RUST_LOG", environment "HUBKIT_LOG", settings.filter]
          default.filter⟩ := by
  simp only [overridden, Settings.overDefaults, Settings.firstOf_cons]
  cases environment "RUST_LOG" <;> rfl

theorem override_overDefaults_eq_ok : settings.overDefaults.override environment = .ok config ↔
    settings.IsEffective environment config := by
  simp only [override_eq_ok, overridden_overDefaults]
  constructor
  · rintro ⟨told, ht, rfl⟩
    exact ⟨rfl, rfl, ⟨told, ht, rfl⟩, rfl, rfl⟩
  · rintro ⟨hs, ho, ⟨told, ht, hf⟩, hd, hl⟩
    refine ⟨told, ht, ?_⟩
    rw [← hs, ← ho, ← hf, ← hd, ← hl]

theorem override_eq_error {error : ConfigError} (h : config.override environment = .error error) :
    environment.NamesNoFormat ∧ ∃ problem, error = .validation problem := by
  unfold override at h
  cases he : environment "HUBKIT_FORMAT" with
  | none => simp [he, pure, Except.pure, bind, Except.bind] at h
  | some text =>
    rw [he] at h
    rcases bind_eq_error.1 h with hf | ⟨format, -, hpure⟩
    · have hnone : ∀ format, ¬ Spells text format := fun format hs => by
        rw [formatOfText_eq_ok.2 hs] at hf
        cases hf
      obtain ⟨name, hname⟩ := formatOfText_eq_error hnone
      exact ⟨⟨text, he, hnone⟩, _, Except.error.inj (hf.symm.trans hname)⟩
    · cases hpure

-- ---------------------------------------------------------------------------
-- Validity
-- ---------------------------------------------------------------------------

structure IsValid (config : Config) : Prop where
  snapshot : config.snapshot ≠ ""
  output : config.output ≠ ""
  domains : ∀ domain ∈ config.numericDomains, domain ≠ "" ∧ '.' ∉ domain.toList

theorem problem?_eq_none : config.problem? = none ↔ config.IsValid := by
  have hdomains : (config.numericDomains.find? (!isDomain ·)).map ConfigProblem.invalidDomain = none ↔
      ∀ domain ∈ config.numericDomains, domain ≠ "" ∧ '.' ∉ domain.toList := by
    simp [List.find?_eq_none, isDomain]
  constructor
  · intro h
    unfold problem? at h
    split at h
    · cases h
    · split at h
      · cases h
      · rename_i hs ho
        exact ⟨hs, ho, hdomains.1 h⟩
  · rintro ⟨hs, ho, hd⟩
    rw [problem?, if_neg hs, if_neg ho, hdomains.2 hd]

theorem validate_eq_ok {other : Config} : config.validate = .ok other ↔ config.IsValid ∧ config = other := by
  rw [← problem?_eq_none, validate]
  cases config.problem? <;> simp

theorem validate_of_not_isValid (h : ¬ config.IsValid) :
    ∃ problem, config.validate = .error (.validation problem) := by
  obtain ⟨problem, hp⟩ := Option.ne_none_iff_exists'.1 (mt problem?_eq_none.1 h)
  exact ⟨problem, by simp only [validate, hp]⟩

-- ---------------------------------------------------------------------------
-- Loading
-- ---------------------------------------------------------------------------

structure LoadsByPrecedence (file : Except FileError String) : Prop where
  unreadable : ∀ cause, file = .error cause → cause ≠ .notFound →
    ∀ environment, load file environment = .error (.file cause)
  malformed : ∀ text, file = .ok text → (∀ settings, ¬ FileSets file settings) →
    ∀ environment, load file environment = .error .parse
  loaded : ∀ settings, FileSets file settings → ∀ environment config,
    load file environment = .ok config ↔ settings.IsEffective environment config ∧ config.IsValid
  refused : ∀ settings, FileSets file settings → ∀ environment,
    (∃ problem, load file environment = .error (.validation problem)) ↔
      environment.NamesNoFormat ∨ ∃ config, settings.IsEffective environment config ∧ ¬ config.IsValid
  /-- A path that is told takes the place of any other, so it mends the one of the file. -/
  mended : ∀ settings, FileSets file settings → ∀ (environment : Environment) config path,
    settings.IsEffective environment config →
      (IsValid { config with snapshot := path } →
        load file (Function.update environment "HUBKIT_SNAPSHOT" (some path)) =
          .ok { config with snapshot := path }) ∧
      (IsValid { config with output := path } →
        load file (Function.update environment "HUBKIT_OUTPUT" (some path)) =
          .ok { config with output := path })
  spoiled : ∀ (environment : Environment) config, load file environment = .ok config →
    load file (Function.update environment "HUBKIT_SNAPSHOT" (some "")) =
        .error (.validation .emptySnapshot) ∧
      load file (Function.update environment "HUBKIT_OUTPUT" (some "")) =
        .error (.validation .emptyOutput)
  /-- No other variable matters. -/
  alike : ∀ environment other : Environment,
    (∀ name ∈ variableNames, environment name = other name) →
      load file environment = load file other

section
variable {file : Except FileError String}

theorem load_eq (h : FileSets file settings) (environment : Environment) :
    load file environment = settings.overDefaults.override environment >>= validate := by
  rw [load, ofFile_eq_ok.2 ⟨settings, h, rfl⟩]
  rfl

theorem load_eq_ok (h : FileSets file settings) : load file environment = .ok config ↔
    settings.IsEffective environment config ∧ config.IsValid := by
  simp only [load_eq h, bind_eq_ok, override_overDefaults_eq_ok, validate_eq_ok]
  constructor
  · rintro ⟨_, he, hv, rfl⟩
    exact ⟨he, hv⟩
  · rintro ⟨he, hv⟩
    exact ⟨config, he, hv, rfl⟩

theorem exists_load_eq_validation (h : FileSets file settings) :
    (∃ problem, load file environment = .error (.validation problem)) ↔
      environment.NamesNoFormat ∨
        ∃ config, settings.IsEffective environment config ∧ ¬ config.IsValid := by
  rw [load_eq h]
  constructor
  · rintro ⟨problem, hp⟩
    rcases bind_eq_error.1 hp with ho | ⟨config, ho, hv⟩
    · exact .inl (override_eq_error ho).1
    · refine .inr ⟨config, override_overDefaults_eq_ok.1 ho, fun hvalid => ?_⟩
      rw [validate_eq_ok.2 ⟨hvalid, rfl⟩] at hv
      cases hv
  · rintro (⟨text, ht, hn⟩ | ⟨config, he, hv⟩)
    · cases ho : settings.overDefaults.override environment with
      | error error =>
        obtain ⟨-, problem, rfl⟩ := override_eq_error ho
        exact ⟨problem, rfl⟩
      | ok config =>
        obtain ⟨told, hformat, -⟩ := (override_overDefaults_eq_ok.1 ho).format
        rw [ht] at hformat
        cases hformat with
        | told hs => exact absurd hs (hn _)
    · obtain ⟨problem, hp⟩ := validate_of_not_isValid hv
      exact ⟨problem, bind_eq_error.2 (.inr ⟨config, override_overDefaults_eq_ok.2 he, hp⟩)⟩

end

end Config

namespace Settings.IsEffective

variable {settings : Settings} {environment : Environment} {config : Config}

theorem update_snapshot (h : settings.IsEffective environment config) (path : String) :
    settings.IsEffective (Function.update environment "HUBKIT_SNAPSHOT" (some path))
      { config with snapshot := path } where
  snapshot := by simp [firstOf]
  output := by simpa using h.output
  format := by simpa using h.format
  numericDomains := h.numericDomains
  filter := by simpa using h.filter

theorem update_output (h : settings.IsEffective environment config) (path : String) :
    settings.IsEffective (Function.update environment "HUBKIT_OUTPUT" (some path))
      { config with output := path } where
  snapshot := by simpa using h.snapshot
  output := by simp [firstOf]
  format := by simpa using h.format
  numericDomains := h.numericDomains
  filter := by simpa using h.filter

end Settings.IsEffective

namespace Config

/-- Each setting is the one of the first source that has it, and what they come to is checked as a whole,
behind a file that can be read and understood. -/
theorem loadsByPrecedence (file : Except FileError String) : LoadsByPrecedence file where
  unreadable cause hfile hc environment := by
    subst hfile
    cases cause with
    | notFound => exact absurd rfl hc
    | _ => rfl
  malformed text hfile hm environment := by
    subst hfile
    rw [load, ofFile_of_malformed hm]
    rfl
  loaded settings h environment config := load_eq_ok h
  refused settings h environment := exists_load_eq_validation h
  mended settings h environment config path he :=
    ⟨fun hv => (load_eq_ok h).2 ⟨he.update_snapshot path, hv⟩,
      fun hv => (load_eq_ok h).2 ⟨he.update_output path, hv⟩⟩
  spoiled environment config hload := by
    obtain ⟨found, hfile, -⟩ := bind_eq_ok.1 hload
    obtain ⟨settings, h, rfl⟩ := ofFile_eq_ok.1 hfile
    obtain ⟨he, hv⟩ := (load_eq_ok h).1 hload
    have hspoiled {other : Environment} {spoilt : Config} {problem : ConfigProblem}
        (hs : settings.IsEffective other spoilt) (hp : spoilt.problem? = some problem) :
        load file other = .error (.validation problem) := by
      rw [load_eq h, override_overDefaults_eq_ok.2 hs]
      simp only [bind, Except.bind, validate, hp]
    refine ⟨hspoiled (he.update_snapshot "") (if_pos rfl), hspoiled (he.update_output "") ?_⟩
    exact (if_neg hv.snapshot).trans (if_pos rfl)
  alike environment other h := by
    have hoverride : ∀ config : Config, config.override environment = config.override other := by
      intro config
      simp only [override, h "HUBKIT_SNAPSHOT" (by decide), h "HUBKIT_OUTPUT" (by decide),
        h "HUBKIT_FORMAT" (by decide), h "HUBKIT_LOG" (by decide), h "RUST_LOG" (by decide)]
    simp only [load, hoverride]

def blankText : String :=
  "[source]\nsnapshot = ''\n[output]\nformat = 'json'\n[schema]\nnumeric_domains = ['counter', 'number']\n"

theorem fileSets_blankText : FileSets (.ok blankText)
    ⟨some "", none, some .json, some ["counter", "number"], none⟩ := by
  have htext : Toml.entriesOf? blankText = some [
      ("source", .table [("snapshot", .string "")]), ("output", .table [("format", .string "json")]),
      ("schema", .table [("numeric_domains", .array [.string "counter", .string "number"])])] := by
    cbv
  exact .read htext {
    snapshot := .told rfl (.table _) rfl (.string _)
    output := .noKey rfl (.table _) rfl
    format := .told rfl (.table _) rfl (.string (by decide))
    numericDomains := .told rfl (.table _) rfl (.array ["counter", "number"])
    filter := .noSection rfl }

theorem loadsByPrecedence_blankText :
    (∃ problem, load (.ok blankText) (fun _ => none) = .error (.validation problem)) ∧
      load (.ok blankText) (Function.update (fun _ => none) "HUBKIT_SNAPSHOT" (some "home.json")) =
        .ok ⟨"home.json", "hubkit_model.rs", .json, ["counter", "number"], "hubkit=info"⟩ := by
  have heffective : Settings.IsEffective ⟨some "", none, some .json, some ["counter", "number"], none⟩
      (fun _ => none) ⟨"", "hubkit_model.rs", .json, ["counter", "number"], "hubkit=info"⟩ :=
    ⟨rfl, rfl, ⟨none, .unset, rfl⟩, rfl, rfl⟩
  have hloads := loadsByPrecedence (.ok blankText)
  constructor
  · exact (hloads.refused _ fileSets_blankText _).2 (.inr ⟨_, heffective, fun hv => hv.snapshot rfl⟩)
  · exact (hloads.mended _ fileSets_blankText _ _ "home.json" heffective).1
      ⟨by decide, by decide, by decide⟩

end Config

end HomeHub
