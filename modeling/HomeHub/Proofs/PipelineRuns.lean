import HomeHub.Pipeline
import HomeHub.Proofs.FilePlaces

/-!
# Runs of the pipeline

A run that fails before its text is complete leaves the file tree as it was. One that succeeds has
written the text of the model of its snapshot, and nothing else but the directories that were missing
above it.
-/

namespace HomeHub

def FileTree.HoldsSnapshot (tree : FileTree) (path : String) (snapshot : Snapshot) : Prop :=
  ∃ bytes, tree.read path = .ok bytes ∧ Snapshot.ofBytes bytes = .ok snapshot

/-- What fails before anything is written: the snapshot, the generation or the text. -/
def PipelineError.IsEarly : PipelineError → Prop
  | .generate .. => True
  | .render _ => True
  | .createDirectories .. => False
  | .write .. => False

namespace Pipeline

def modelOf (config : Config) (snapshot : Snapshot) : Except GenerationError GeneratedModel :=
  GeneratedModel.generate (assemble snapshot.states config.schemaOptions) snapshot.serviceCatalog

-- ---------------------------------------------------------------------------
-- Before anything is written
-- ---------------------------------------------------------------------------

section
variable {render : Renderer} {config : Config}

theorem produce_of_error (cause : FileError) : produce render config (.error cause) =
    .error (.generate config.snapshot (.adapter (.snapshot (.file config.snapshot cause)))) := rfl

theorem produce_of_ofBytes_eq_error {bytes : ByteArray} {failure : Json.Failure}
    (h : Snapshot.ofBytes bytes = .error failure) : produce render config (.ok bytes) =
      .error (.generate config.snapshot (.adapter (.snapshot (.parse failure)))) := by
  have hfile : Snapshot.ofFile config.snapshot (.ok bytes) = .error (.parse failure) :=
    congrArg (Except.mapError SnapshotError.parse) h
  rw [produce, MetadataSource.ofFile, hfile]
  rfl

theorem produce_of_ofBytes_eq_ok {bytes : ByteArray} {snapshot : Snapshot}
    (h : Snapshot.ofBytes bytes = .ok snapshot) : produce render config (.ok bytes) =
      (((modelOf config snapshot).mapError HubError.generation).mapError
        (PipelineError.generate config.snapshot) >>= fun model =>
          ((render model).mapError PipelineError.render).map (model, ·)) := by
  have hfile : Snapshot.ofFile config.snapshot (.ok bytes) = .ok snapshot :=
    congrArg (Except.mapError SnapshotError.parse) h
  rw [produce, MetadataSource.ofFile, hfile]
  rfl

theorem produce_of_modelOf_eq_error {bytes : ByteArray} {snapshot : Snapshot}
    {problem : GenerationError} (h : Snapshot.ofBytes bytes = .ok snapshot)
    (hm : modelOf config snapshot = .error problem) : produce render config (.ok bytes) =
      .error (.generate config.snapshot (.generation problem)) := by
  rw [produce_of_ofBytes_eq_ok h, hm]
  rfl

theorem produce_of_modelOf_eq_ok {bytes : ByteArray} {snapshot : Snapshot} {model : GeneratedModel}
    (h : Snapshot.ofBytes bytes = .ok snapshot) (hm : modelOf config snapshot = .ok model) :
    produce render config (.ok bytes) =
      ((render model).mapError PipelineError.render).map (model, ·) := by
  rw [produce_of_ofBytes_eq_ok h, hm]
  rfl

theorem produce_cases (render : Renderer) (config : Config) (file : Except FileError ByteArray) :
    (∃ error, produce render config file = .error error ∧ error.IsEarly) ∨
      ∃ bytes snapshot model text, file = .ok bytes ∧ Snapshot.ofBytes bytes = .ok snapshot ∧
        modelOf config snapshot = .ok model ∧ render model = .ok text ∧
        produce render config file = .ok (model, text) := by
  cases file with
  | error cause => exact .inl ⟨_, produce_of_error cause, trivial⟩
  | ok bytes =>
    cases hs : Snapshot.ofBytes bytes with
    | error failure => exact .inl ⟨_, produce_of_ofBytes_eq_error hs, trivial⟩
    | ok snapshot =>
      cases hm : modelOf config snapshot with
      | error problem => exact .inl ⟨_, produce_of_modelOf_eq_error hs hm, trivial⟩
      | ok model =>
        have hproduce : produce render config (.ok bytes) = _ := produce_of_modelOf_eq_ok hs hm
        cases hr : render model with
        | error cause =>
          rw [hr] at hproduce
          exact .inl ⟨_, hproduce, trivial⟩
        | ok text =>
          rw [hr] at hproduce
          exact .inr ⟨bytes, snapshot, model, text, rfl, hs, hm, hr, hproduce⟩

-- ---------------------------------------------------------------------------
-- Preparing and writing
-- ---------------------------------------------------------------------------

theorem addsDirectories_prepare (tree : FileTree) (output : String) :
    tree.AddsDirectories (prepare tree output).2 (Path.way output) := by
  unfold prepare
  split
  · exact .refl _ _
  · rename_i parent hparent
    split
    · exact .refl _ _
    · rw [Path.way, ← Path.steps_of_parent?_eq_some hparent]
      exact tree.addsDirectories_createDirectories parent

theorem not_isEarly_of_prepare_eq_error {tree : FileTree} {output : String} {error : PipelineError}
    (h : (prepare tree output).1 = .error error) : ¬ error.IsEarly := by
  unfold prepare at h
  split at h
  · cases h
  · split at h
    · cases h
    · rename_i parent _ _
      dsimp only at h
      cases hc : (tree.createDirectories parent).1 with
      | ok _ => rw [hc] at h; cases h
      | error cause => rw [hc] at h; cases h; exact id

end

-- ---------------------------------------------------------------------------
-- Whole runs
-- ---------------------------------------------------------------------------

section
variable {render : Renderer} {config : Config} {tree : FileTree}

theorem runWith_of_produce_eq_error {error : PipelineError}
    (h : produce render config (tree.read config.snapshot) = .error error) :
    runWith render config tree = (.error error, tree) := by
  unfold runWith
  rw [h]

theorem runWith_of_produce_eq_ok {model : GeneratedModel} {text : String}
    (h : produce render config (tree.read config.snapshot) = .ok (model, text)) :
    (∃ error left, runWith render config tree = (.error error, left) ∧ ¬ error.IsEarly ∧
      tree.AddsDirectories left (Path.way config.output)) ∨
    ∃ left, runWith render config tree =
        (.ok ⟨model.types.length, text.toUTF8.size, config.output⟩, left) ∧
      tree.IsWrittenTo left config.output text.toUTF8 := by
  have hprepare := addsDirectories_prepare tree config.output
  unfold runWith
  rw [h]
  dsimp only
  split
  · rename_i error prepared heq
    have hearly : ¬ error.IsEarly := not_isEarly_of_prepare_eq_error (congrArg Prod.fst heq)
    rw [heq] at hprepare
    exact .inl ⟨error, prepared, rfl, hearly, hprepare⟩
  · rename_i prepared heq
    rw [heq] at hprepare
    split
    · exact .inl ⟨_, prepared, rfl, id, hprepare⟩
    · rename_i left hwrite
      exact .inr ⟨left, rfl, FileTree.isWrittenTo_of_write_eq_ok hprepare hwrite⟩

end

/-- A summary is that of a text which the tree has been left with. -/
def IsSummary (render : Renderer) (config : Config) (tree left : FileTree) (summary : Summary) :
    Prop :=
  ∃ snapshot model text, tree.HoldsSnapshot config.snapshot snapshot ∧
    modelOf config snapshot = .ok model ∧ render model = .ok text ∧
    summary = ⟨model.types.length, text.toUTF8.size, config.output⟩ ∧
    tree.IsWrittenTo left config.output text.toUTF8

theorem runWith_cases (render : Renderer) (config : Config) (tree : FileTree) :
    (∃ error, runWith render config tree = (.error error, tree) ∧ error.IsEarly) ∨
    (∃ error left, runWith render config tree = (.error error, left) ∧ ¬ error.IsEarly ∧
      tree.AddsDirectories left (Path.way config.output)) ∨
    ∃ summary left, runWith render config tree = (.ok summary, left) ∧
      IsSummary render config tree left summary := by
  rcases produce_cases render config (tree.read config.snapshot) with
    ⟨error, hproduce, hearly⟩ | ⟨bytes, snapshot, model, text, hread, hs, hm, hr, hproduce⟩
  · exact .inl ⟨error, runWith_of_produce_eq_error hproduce, hearly⟩
  · rcases runWith_of_produce_eq_ok hproduce with late | ⟨left, hrun, hwritten⟩
    · exact .inr (.inl late)
    · exact .inr (.inr ⟨_, left, hrun, snapshot, model, text, ⟨bytes, hread, hs⟩, hm, hr, rfl,
        hwritten⟩)

/-- How a run of a configuration over a tree ends, and which tree it leaves. -/
structure IsRun (render : Renderer) (config : Config) (tree : FileTree)
    (result : Except PipelineError Summary) (left : FileTree) : Prop where
  unread : ∀ cause, tree.read config.snapshot = .error cause → left = tree ∧
    result = .error (.generate config.snapshot (.adapter (.snapshot (.file config.snapshot cause))))
  unparsed : ∀ bytes failure, tree.read config.snapshot = .ok bytes →
    Snapshot.ofBytes bytes = .error failure → left = tree ∧
      result = .error (.generate config.snapshot (.adapter (.snapshot (.parse failure))))
  ungenerated : ∀ snapshot problem, tree.HoldsSnapshot config.snapshot snapshot →
    modelOf config snapshot = .error problem → left = tree ∧
      result = .error (.generate config.snapshot (.generation problem))
  unrendered : ∀ snapshot model cause, tree.HoldsSnapshot config.snapshot snapshot →
    modelOf config snapshot = .ok model → render model = .error cause → left = tree ∧
      result = .error (.render cause)
  early : ∀ error, result = .error error → error.IsEarly → left = tree
  /-- Where the directories or the file cannot be made, some directories may have been. -/
  late : ∀ error, result = .error error → tree.AddsDirectories left (Path.way config.output)
  written : ∀ summary, result = .ok summary → IsSummary render config tree left summary

theorem isRun_runWith (render : Renderer) (config : Config) (tree : FileTree) :
    IsRun render config tree (runWith render config tree).1 (runWith render config tree).2 := by
  have stopped {error : PipelineError} {file : Except FileError ByteArray}
      (hread : tree.read config.snapshot = file)
      (h : produce render config file = .error error) :
      (runWith render config tree).2 = tree ∧ (runWith render config tree).1 = .error error := by
    subst hread
    rw [runWith_of_produce_eq_error h]
    exact ⟨rfl, rfl⟩
  constructor
  case unread =>
    exact fun cause hread => stopped hread (produce_of_error cause)
  case unparsed =>
    exact fun bytes failure hread hs => stopped hread (produce_of_ofBytes_eq_error hs)
  case ungenerated =>
    rintro snapshot problem ⟨bytes, hread, hs⟩ hm
    exact stopped hread (produce_of_modelOf_eq_error hs hm)
  case unrendered =>
    rintro snapshot model cause ⟨bytes, hread, hs⟩ hm hr
    refine stopped hread ?_
    rw [produce_of_modelOf_eq_ok hs hm, hr]
    rfl
  all_goals
    rcases runWith_cases render config tree with
      ⟨_, hrun, hearly⟩ | ⟨_, left, hrun, hlate, hadds⟩ | ⟨_, left, hrun, hsummary⟩ <;> rw [hrun]
  case early.inl => exact fun _ _ _ => rfl
  case early.inr.inl =>
    intro error herror hearly
    exact absurd (Except.error.inj herror ▸ hearly) hlate
  case early.inr.inr => exact nofun
  case late.inl => exact fun _ _ => .refl _ _
  case late.inr.inl => exact fun _ _ => hadds
  case late.inr.inr => exact nofun
  case written.inl => exact nofun
  case written.inr.inl => exact nofun
  case written.inr.inr =>
    intro summary heq
    exact Except.ok.inj heq ▸ hsummary

/-- Runs with the renderer of their configuration, and runs with any renderer. -/
theorem isRun_run (config : Config) (tree : FileTree) :
    IsRun config.format.renderer config tree (run config tree).1 (run config tree).2 ∧
      ∀ render, IsRun render config tree (runWith render config tree).1
        (runWith render config tree).2 :=
  ⟨isRun_runWith _ _ _, fun render => isRun_runWith render config tree⟩

/-- An empty snapshot is enough for a run to succeed. -/
example : (run ⟨"snapshot.json", "generated/model.json", .json, [], ""⟩
    (FileTree.empty.set (Location.working.child "snapshot.json")
      (.file "\x7b\x7d".toUTF8))).1.isOk = true := by decide +kernel

end Pipeline

end HomeHub
