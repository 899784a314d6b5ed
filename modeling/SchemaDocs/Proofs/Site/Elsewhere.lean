import SchemaDocs.Proofs.Site.Steps
import SchemaDocs.Proofs.Storage.Elsewhere

/-!
# Builds started elsewhere

A build that is started in a directory is repeated outside of it, with all paths of its settings put behind the one
that leads there. Step by step the build outside writes what the one inside writes, or fails where that one fails,
unless it fails on its own because a path gets longer than a path may be.
-/

namespace SchemaDocs

open Json (Value)
open Markdown (Renderer)
open FileSystem (IsLong)

variable {base path : String} {content : ByteArray}

/-! ### Disks -/

/-- The same claims are made in an output directory whose path is put behind another one. -/
structure OutputDirectory.IsBehind (base : String) (inner outer : OutputDirectory) : Prop where
  root : outer.root = Path.join base inner.root
  written : outer.written = inner.written

namespace OutputDirectory.IsBehind

variable {inner outer : OutputDirectory}

private theorem location (h : IsBehind base inner outer) (hbase : base ≠ "") (hpath : isOutputPath path) :
    outer.location path = Path.join base (inner.location path) := by
  have hplain : Path.IsPlain path := fun _ hname => isSegment_of_mem_pieces hpath hname
  rw [OutputDirectory.location, OutputDirectory.location, hplain.foldl_join, hplain.foldl_join, h.root]
  exact Path.join_join_of_relative hbase (Path.isAbsolute_of_isDownward hplain.isDownward) _

private theorem claim (h : IsBehind base inner outer) (path : String) :
    EndAlike (fun claimed claimedOuter => isOutputPath path ∧ IsBehind base claimed claimedOuter) (inner.claim path)
      (outer.claim path) := by
  rw [OutputDirectory.claim, OutputDirectory.claim, h.written]
  by_cases hpath : isOutputPath path = true
  · rw [hpath, Bool.not_true, if_neg Bool.false_ne_true, if_neg Bool.false_ne_true]
    split
    · exact .error _
    · exact .ok ⟨rfl, h.root, rfl⟩
  · rw [Bool.eq_false_iff.mpr hpath]
    exact .error _

end OutputDirectory.IsBehind

/-- A disk outside holds what a disk holds that is seen from the directory. -/
structure Disk.Enters (outer : Disk) (base : String) (inner : Disk) : Prop where
  files : outer.files.Enters base inner.files
  output : inner.output.IsBehind base outer.output

private theorem Disk.Enters.writeBytes {inner outer : Disk} (h : outer.Enters base inner) (path : String)
    (content : ByteArray) :
    (∃ long, IsLong long ∧ (outer.writeBytes path content).1 = .error (.failed long)) ∨
      (outer.writeBytes path content).1.toOption = (inner.writeBytes path content).1.toOption ∧
        (outer.writeBytes path content).2.Enters base (inner.writeBytes path content).2 := by
  rw [Disk.writeBytes, Disk.writeBytes]
  generalize inner.output.claim path = claimed, outer.output.claim path = claimedOuter, h.output.claim path = hclaim
  cases hclaim with
  | error error => exact .inr ⟨rfl, h⟩
  | @ok output outputOuter hclaimed =>
    obtain ⟨hpath, houtput⟩ := hclaimed
    have hplain : Path.IsPlain path := fun _ hname => isSegment_of_mem_pieces hpath hname
    have hnames : Path.isAbsolute (output.location path) = true ∨
        Path.trimNames (Text.splitChars '/' (output.location path).toList) ≠ [] := by
      rw [OutputDirectory.location, hplain.foldl_join]
      exact hplain.trimNames_join output.root
    have hne : output.location path ≠ "" := by
      intro hempty
      rw [hempty] at hnames
      exact hnames.elim (by decide) (by decide)
    simp only [houtput.location h.files.base_ne_empty hpath]
    generalize output.location path = location at hnames hne
    have hmade := h.files.createDirectories_directory hnames
    by_cases hlong : IsLong (Path.directory (Path.join base location))
    · rw [FileSystem.createDirectories_of_isLong hlong]
      exact .inl ⟨_, hlong, rfl⟩
    obtain ⟨houtcome, hfiles⟩ := hmade.resolve_left hlong
    generalize inner.files.createDirectories _ = made, outer.files.createDirectories _ = madeOuter at houtcome hfiles
    obtain ⟨outcome, files⟩ := made
    obtain ⟨outcomeOuter, filesOuter⟩ := madeOuter
    obtain rfl : outcomeOuter = outcome := houtcome
    cases outcomeOuter with
    | error error => exact .inr ⟨rfl, hfiles, houtput⟩
    | ok _ =>
      simp only
      by_cases hlong : IsLong (Path.join base location)
      · rw [FileSystem.write_of_isLong hlong]
        exact .inl ⟨_, hlong, rfl⟩
      generalize files.write location content = written, filesOuter.write (Path.join base location) content = writtenOuter,
        FileSystem.Enters.write hfiles hne hlong content = hwrite
      cases hwrite with
      | error error => exact .inr ⟨rfl, hfiles, houtput⟩
      | ok hnext => exact .inr ⟨rfl, hnext, houtput⟩

/-! ### Steps -/

/-- A build fails only because the path to a file is longer than a path may be. -/
inductive BuildError.IsTooLong (settings : BuildSettings) : BuildError → Prop where
  | manifest {path : String} (hpath : settings.manifest = some path) (h : IsLong path) :
      IsTooLong settings (.manifest .unreadable)
  | output {path : String} (h : IsLong path) : IsTooLong settings (.output (.failed path))
  | resource {locator : String} (h : IsLong (Path.join settings.resourcesDirectory locator)) :
      IsTooLong settings (.resource (.unreadable locator))

structure Workshop.Enters (outer : Workshop) (base : String) (inner : Workshop) : Prop where
  disk : outer.disk.Enters base inner.disk
  renderer : outer.renderer = inner.renderer

/-- What is run outside fails only because a path gets too long, or it ends as what is run inside. -/
def EndsAs {α σ : Type} (settings : BuildSettings) (Alike : σ → σ → Prop) (inside outside : Except BuildError α × σ) : Prop :=
  (∃ error, BuildError.IsTooLong settings error ∧ outside.1 = .error error) ∨
    outside.1.toOption = inside.1.toOption ∧ Alike outside.2 inside.2

/-- A step outside gives what a step inside gives, and fails where that one fails, unless a path gets too long. -/
def Build.Echoes {α : Type} (settings : BuildSettings) (base : String) (step other : Build α) : Prop :=
  ∀ ⦃inner outer : Workshop⦄, outer.Enters base inner → EndsAs settings (·.Enters base ·) (step inner) (other outer)

namespace Build.Echoes

variable {settings : BuildSettings} {α β : Type}

theorem pure (value : α) : Echoes settings base (Pure.pure value) (Pure.pure value) := fun _ _ h => .inr ⟨rfl, h⟩

private theorem throw (error : BuildError) :
    Echoes settings base (throw error : Build α) (throw error) := fun _ _ h => .inr ⟨rfl, h⟩

theorem bind {first other : Build α} {next nextOther : α → Build β} (hfirst : Echoes settings base first other)
    (hnext : ∀ value, Echoes settings base (next value) (nextOther value)) :
    Echoes settings base (first >>= next) (other >>= nextOther) := by
  intro inner outer h
  rw [run_bind, run_bind]
  have hmiddle := hfirst h
  generalize first inner = ended, other outer = endedOuter at hmiddle
  obtain ⟨outcome, middle⟩ := ended
  obtain ⟨outcomeOuter, middleOuter⟩ := endedOuter
  rcases hmiddle with ⟨error, herror, rfl⟩ | ⟨hsame, hmiddle⟩
  · exact .inl ⟨error, herror, rfl⟩
  · obtain ⟨_, _, rfl, rfl⟩ | ⟨value, rfl, rfl⟩ := cases_of_toOption hsame
    · exact .inr ⟨rfl, hmiddle⟩
    · exact hnext value hmiddle

theorem forM {step other : α → Build Unit} (h : ∀ item, Echoes settings base (step item) (other item))
    (items : List α) :
    Echoes settings base (items.forM step) (items.forM other) := by
  induction items with
  | nil => exact pure ()
  | cons item items ih => exact (h item).bind fun _ => ih

private theorem runAll {context contextOuter : Context} {stages : List Stage}
    (h : ∀ stage ∈ stages, Echoes settings base (stage.run context) (stage.run contextOuter)) :
    Echoes settings base (Stage.runAll context stages) (Stage.runAll contextOuter stages) := by
  have hfrom (given : Report) : Echoes settings base
      (stages.foldlM (fun report stage => do return report.add (← stage.run context)) given)
      (stages.foldlM (fun report stage => do return report.add (← stage.run contextOuter)) given) := by
    induction stages generalizing given with
    | nil => exact pure given
    | cons stage stages ih =>
      obtain ⟨hstage, hstages⟩ := List.forall_mem_cons.mp h
      exact (hstage.bind fun part => pure (given.add part)).bind fun next => ih hstages next
  exact hfrom {}

theorem render (rendering : StateM Renderer α) :
    Echoes settings base (Build.render rendering) (Build.render rendering) := by
  intro inner outer h
  rw [Build.render, Build.render, h.renderer]
  exact .inr ⟨rfl, h.disk, rfl⟩

theorem writeBytes (path : String) (content : ByteArray) :
    Echoes settings base (Build.writeBytes path content) (Build.writeBytes path content) := by
  intro inner outer h
  have hwrite := h.disk.writeBytes path content
  rw [Build.writeBytes, Build.writeBytes]
  generalize inner.disk.writeBytes path content = written, outer.disk.writeBytes path content = writtenOuter at hwrite
  obtain ⟨outcome, disk⟩ := written
  obtain ⟨outcomeOuter, diskOuter⟩ := writtenOuter
  rcases hwrite with ⟨long, hlong, rfl⟩ | ⟨hsame, hdisk⟩
  · exact .inl ⟨_, .output hlong, rfl⟩
  · refine .inr ⟨?_, hdisk, h.renderer⟩
    obtain ⟨_, _, rfl, rfl⟩ | ⟨_, rfl, rfl⟩ := cases_of_toOption hsame <;> rfl

theorem document (rendering : StateM Renderer Value) (path : String) :
    Echoes settings base (Build.render rendering >>= Build.writeJson path) (Build.render rendering >>= Build.writeJson path) :=
  (render rendering).bind fun _ => writeBytes path _

end Build.Echoes

/-! ### Stages and resources -/

section

variable {settings : BuildSettings} {context : Context}

private theorem Stage.echoes_ofKind (name : String) (kind : Kind) (pages : Option String) :
    Build.Echoes settings base ((ofKind name kind).run context)
      ((ofKind name kind).run { context with pagesDirectory := pages }) := by
  have hwrite (entry : Entry) : Build.Echoes settings base (writeEntry context entry)
      (writeEntry { context with pagesDirectory := pages } entry) :=
    Build.Echoes.document (entryDocument context.registry entry) entry.path
  exact (Build.Echoes.forM hwrite (context.registry.declaring kind)).bind fun _ => .pure _

private theorem Stage.echoes_sources (hpages : ∀ pages ∈ context.pagesDirectory, pages ≠ "" ∧ ¬ IsLong (Path.join base pages)) :
    Build.Echoes settings base (sources context)
      (sources { context with pagesDirectory := context.pagesDirectory.map (Path.join base) }) := by
  intro inner outer h
  refine .inr ⟨?_, h⟩
  rw [sources, sources]
  cases hdirectory : context.pagesDirectory with
  | none => rfl
  | some pages =>
    obtain ⟨hne, hfits⟩ := hpages pages hdirectory
    simp only [Option.map_some, Option.getD_some, h.disk.files.discover_eq hne hfits]

private theorem Stage.echoes_standard (hpages : ∀ pages ∈ context.pagesDirectory, pages ≠ "" ∧ ¬ IsLong (Path.join base pages)) :
    ∀ stage ∈ standard, Build.Echoes settings base (stage.run context)
      (stage.run { context with pagesDirectory := context.pagesDirectory.map (Path.join base) }) := by
  simp only [standard, scheduled, List.forall_mem_cons, List.not_mem_nil, false_implies, implies_true, and_true]
  refine ⟨?_, echoes_ofKind _ _ _, echoes_ofKind _ _ _, echoes_ofKind _ _ _, echoes_ofKind _ _ _, ?_⟩
  · exact (Build.Echoes.render _).bind fun _ => (Build.Echoes.writeBytes _ _).bind fun _ => .pure _
  · refine (echoes_sources hpages).bind fun sources => ?_
    dsimp only
    cases PageTree.merge context.title sources context.registry with
    | error collision => exact .throw _
    | ok tree =>
      have hwrite (source : SourcePage) : Build.Echoes settings base (writePage source) (writePage source) :=
        Build.Echoes.document (pageDocument source) source.documentPath
      exact (Build.Echoes.forM hwrite sources).bind fun _ => (Build.Echoes.writeBytes _ _).bind fun _ => .pure _

end

namespace BuildSettings

variable {settings : BuildSettings} {inner outer : FileSystem} {directory : String}

/-- The settings with all paths put behind a directory. -/
def behind (settings : BuildSettings) (base : String) : BuildSettings :=
  { settings with
    outputDirectory := settings.outputDirectory.map (Path.join base)
    pagesDirectory := settings.pagesDirectory.map (Path.join base)
    resourcesDirectory := Path.join base settings.resourcesDirectory
    manifest := settings.manifest.map (Path.join base) }

/-- A resource is loaded in both or in neither. -/
theorem load_behind (settings : BuildSettings) (h : outer.Enters base inner) (locator : String) :
    IsLong (Path.join (settings.behind base).resourcesDirectory locator) ∧
        (Provider.directory (settings.behind base).resourcesDirectory).load outer locator = .error (.unreadable locator) ∨
      ((Provider.directory (settings.behind base).resourcesDirectory).load outer locator).toOption =
        ((Provider.directory settings.resourcesDirectory).load inner locator).toOption := by
  show IsLong (Path.join (Path.join base settings.resourcesDirectory) locator) ∧
        (Provider.directory (Path.join base settings.resourcesDirectory)).load outer locator = _ ∨
      ((Provider.directory (Path.join base settings.resourcesDirectory)).load outer locator).toOption = _
  rw [Provider.load, Provider.load]
  cases hdownward : Path.isDownward locator with
  | false => exact .inr rfl
  | true =>
    rw [Path.join_join_of_relative h.base_ne_empty (Path.isAbsolute_of_isDownward hdownward)]
    simp only [Bool.not_true, Bool.false_eq_true, if_false]
    by_cases hlong : IsLong (Path.join base (Path.join settings.resourcesDirectory locator))
    · rw [FileSystem.read_of_isLong hlong]
      exact .inl ⟨hlong, rfl⟩
    · have hread := h.toOption_read hlong
      generalize inner.read _ = found, outer.read _ = foundOuter at hread
      right
      obtain ⟨error, other, rfl, rfl⟩ | ⟨content, rfl, rfl⟩ := cases_of_toOption hread
      · cases error <;> cases other <;> rfl
      · rfl

private theorem echoes_copyResources (manifest : Manifest) :
    Build.Echoes (settings.behind base) base (copyResources (.directory settings.resourcesDirectory) manifest)
      (copyResources (.directory (settings.behind base).resourcesDirectory) manifest) := by
  refine (Build.Echoes.forM (fun pair => ?_) _).bind fun _ => .pure _
  intro inner outer h
  have hload := load_behind settings h.disk.files pair.1
  rw [copyResource, copyResource]
  rcases hload with ⟨hlong, hload⟩ | hload
  · rw [hload]
    exact .inl ⟨_, .resource hlong, rfl⟩
  · generalize Provider.load inner.disk.files pair.1 _ = loaded, Provider.load outer.disk.files pair.1 _ = loadedOuter at hload
    obtain ⟨_, _, rfl, rfl⟩ | ⟨content, rfl, rfl⟩ := cases_of_toOption hload
    · exact .inr ⟨rfl, h⟩
    · exact Build.Echoes.writeBytes pair.2 content h

/-- A manifest is read in both or in neither. -/
theorem loadManifest_behind (settings : BuildSettings) (h : outer.Enters base inner) :
    (∃ path, (settings.behind base).manifest = some path ∧ IsLong path ∧
        (settings.behind base).loadManifest outer = .error .unreadable) ∨
      ((settings.behind base).loadManifest outer).toOption = (settings.loadManifest inner).toOption := by
  rw [loadManifest, loadManifest, behind]
  cases settings.manifest with
  | none => exact .inr rfl
  | some path =>
    simp only [Option.map_some]
    by_cases hlong : IsLong (Path.join base path)
    · rw [FileSystem.readText_of_isLong hlong]
      exact .inl ⟨_, rfl, hlong, rfl⟩
    · have hread := h.toOption_readText hlong
      generalize inner.readText _ = found, outer.readText _ = foundOuter at hread
      obtain ⟨_, _, rfl, rfl⟩ | ⟨_, rfl, rfl⟩ := cases_of_toOption hread <;> exact .inr rfl

private theorem makeOutput_behind (h : outer.Enters base inner) (directory : String) :
    EndsAs settings (·.Enters base ·) (makeOutput inner directory) (makeOutput outer (Path.join base directory)) := by
  rw [makeOutput, makeOutput]
  by_cases hlong : IsLong (Path.join base directory)
  · rw [FileSystem.createDirectories_of_isLong hlong]
    exact .inl ⟨_, .output hlong, rfl⟩
  · obtain ⟨houtcome, hfiles⟩ := h.createDirectories hlong
    right
    simp only [houtcome]
    cases (inner.createDirectories directory).1 <;> exact ⟨rfl, hfiles⟩

private theorem echoes_generate (settings : BuildSettings) (context : Context) (manifest : Manifest)
    (hpages : ∀ pages ∈ context.pagesDirectory, pages ≠ "" ∧ ¬ IsLong (Path.join base pages)) :
    Build.Echoes (settings.behind base) base
      (generate context Stage.standard (.directory settings.resourcesDirectory) manifest)
      (generate { context with pagesDirectory := context.pagesDirectory.map (Path.join base) } Stage.standard
        (.directory (settings.behind base).resourcesDirectory) manifest) :=
  (Build.Echoes.runAll (Stage.echoes_standard hpages)).bind fun _ => (echoes_copyResources manifest).bind fun _ => .pure _

private theorem echoes_result {ended endedOuter : Except BuildError (Report × Nat) × Workshop}
    {outcome outcomeOuter : Except BuildError (Report × Nat)} {final finalOuter : Workshop} (directory : String)
    (h : EndsAs settings (·.Enters base ·) ended endedOuter)
    (hended : ended = (outcome, final)) (houter : endedOuter = (outcomeOuter, finalOuter)) :
    EndsAs settings (·.Enters base ·)
      ((outcome.map fun made => BuildResult.mk made.1 made.2 directory).map
        ({ · with outputDirectory := Path.join base directory }), final.disk.files)
      (outcomeOuter.map fun made => BuildResult.mk made.1 made.2 (Path.join base directory), finalOuter.disk.files) := by
  subst hended houter
  rcases h with ⟨error, hlong, rfl⟩ | ⟨hsame, hfinal⟩
  · exact .inl ⟨error, hlong, rfl⟩
  · obtain ⟨_, _, rfl, rfl⟩ | ⟨_, rfl, rfl⟩ := cases_of_toOption hsame <;> exact .inr ⟨rfl, hfinal.disk.files⟩

/-- A build outside ends as the build inside, and leaves the same files. -/
theorem build_behind (schema : Schema) (h : outer.Enters base inner)
    (houtput : settings.outputDirectory = some directory)
    (hpages : ∀ pages ∈ settings.pagesDirectory, pages ≠ "" ∧ ¬ IsLong (Path.join base pages)) :
    EndsAs (settings.behind base) (·.Enters base ·)
      ((settings.build Stage.standard none schema inner).1.map ({ · with outputDirectory := Path.join base directory }),
        (settings.build Stage.standard none schema inner).2)
      ((settings.behind base).build Stage.standard none schema outer) := by
  have hdirectory : settings.siteDirectory schema = directory := by
    rw [siteDirectory, houtput, Option.getD_some]
  have houter : (settings.behind base).siteDirectory schema = Path.join base directory := by
    rw [siteDirectory, behind, houtput, Option.map_some, Option.getD_some]
  rw [build, build, hdirectory, houter]
  cases Registry.build schema with
  | error error => exact .inr ⟨rfl, h⟩
  | ok registry =>
    have hloaded := loadManifest_behind settings h
    simp only
    generalize settings.loadManifest inner = loaded, (settings.behind base).loadManifest outer = loadedOuter at hloaded
    rcases hloaded with ⟨path, hpath, hlong, rfl⟩ | hloaded
    · exact .inl ⟨_, .manifest hpath hlong, rfl⟩
    obtain ⟨_, _, rfl, rfl⟩ | ⟨manifest, rfl, rfl⟩ := cases_of_toOption hloaded
    · exact .inr ⟨rfl, h⟩
    have hmade : EndsAs (settings.behind base) _ _ _ := makeOutput_behind h directory
    simp only
    generalize makeOutput inner directory = made, makeOutput outer (Path.join base directory) = madeOuter at hmade
    obtain ⟨outcome, files⟩ := made
    obtain ⟨outcomeOuter, filesOuter⟩ := madeOuter
    rcases hmade with ⟨error, hlong, rfl⟩ | ⟨hsame, hfiles⟩
    · exact .inl ⟨error, hlong, rfl⟩
    obtain ⟨_, _, rfl, rfl⟩ | ⟨_, rfl, rfl⟩ := cases_of_toOption hsame
    · exact .inr ⟨rfl, hfiles⟩
    have hstart : Workshop.Enters
        { disk := { files := filesOuter, output := { root := Path.join base directory } },
          renderer := { limit := settings.markdownLimit } } base
        { disk := { files, output := { root := directory } }, renderer := { limit := settings.markdownLimit } } :=
      ⟨⟨hfiles, rfl, rfl⟩, rfl⟩
    have hgenerated := echoes_generate settings
      { schema, registry, title := settings.siteTitle schema, pagesDirectory := settings.pagesDirectory } manifest hpages hstart
    simp only
    split
    rename_i outcome final hended
    split
    rename_i outcomeOuter finalOuter hendedOuter
    exact echoes_result directory hgenerated hended hendedOuter

end BuildSettings

end SchemaDocs
