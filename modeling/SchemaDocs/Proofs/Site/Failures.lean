import SchemaDocs.Proofs.Resource.Copying
import SchemaDocs.Proofs.Site.Accounts
import SchemaDocs.Proofs.Storage.Ways

/-!
# What a failed build leaves

A build that fails leaves what it has written until then, and the kind of its error says how far it came. A
schema or a manifest that is refused leaves the files as they are. A collision of pages ends the build behind
the reference, and a resource that cannot be loaded ends it behind all documents and the resources before it.
Where a file cannot be written, what has been written are files of paths that were claimed, whichever of
them threads had come to. In all cases the other files are as before, and outside of the output directory
nothing has changed but that directories may have been made on the way to it.
-/

namespace SchemaDocs

open Markdown (Renderer)
open FileSystem (Paves paves_directory paves_createDirectories placeOf_of_workingDirectory)

namespace Disk

variable {disk next start final : Disk} {journal : List Write} {path : String} {content : ByteArray}

/-! ### Outside of the output directory -/

def IsOutside (disk : Disk) (place : List String) : Prop := ¬ disk.files.placeOf disk.output.root <+: place

private theorem paves_writeBytes (disk : Disk) (path : String) (content : ByteArray) :
    Paves disk.output.root disk.IsOutside disk.files (disk.writeBytes path content).2.files := by
  rcases disk.writeBytes_cases path content with ⟨error, -, hends⟩ | ⟨hpath, -, made, hmade, hcases⟩
  · rw [hends]
    exact .refl _ _ _
  · have hdirectories : Paves disk.output.root disk.IsOutside disk.files made := by
      rw [← hmade]
      exact (paves_directory (disk.output.location path) disk.files).imp (fun _ _ => trivial) fun place houtside hpassed =>
        (hpassed.of_foldl_join fun _ => isSegment_of_mem_pieces hpath).resolve_right houtside
    rcases hcases with ⟨reason, hends⟩ | ⟨files, hwrite, hends⟩ <;> rw [hends]
    · exact hdirectories
    · obtain ⟨place, hplace, -, hworking, hwritten⟩ := FileSystem.bareAt?_of_write hwrite
      refine hdirectories.trans ⟨hworking, fun other houtside => .inl ?_⟩
      rw [hwritten, if_neg]
      rintro rfl
      refine houtside ?_
      rw [OutputDirectory.eq_place_of_locate hpath hplace,
        OutputDirectory.place_of_workingDirectory hdirectories.workingDirectory]
      exact List.prefix_append _ _

private theorem isOutside_eq {files : FileSystem} (hworking : disk.files.workingDirectory = files.workingDirectory) :
    disk.IsOutside = fun place => ¬ files.placeOf disk.output.root <+: place := by
  funext place
  rw [IsOutside, placeOf_of_workingDirectory hworking]

end Disk

/-! ### What is left -/

/-- A build has written the files of a journal to its output directory, and no others. -/
structure IsLeft (directory : String) (files final : FileSystem) (journal : List Write) : Prop where
  accepted : ∀ write ∈ journal, isOutputPath write.1
  held : ∀ write ∈ journal, final.read (OutputDirectory.location { root := directory } write.1) = .ok write.2
  /-- All other files are as before, in the output directory and elsewhere. -/
  alters : files.Alters final (journal.map fun write => OutputDirectory.place { root := directory } files write.1)
  /-- Outside of the output directory nothing has changed but that directories have been made on the way to it. -/
  outside : Paves directory (fun place => ¬ files.placeOf directory <+: place) files final

namespace IsLeft

theorem refl (directory : String) (files : FileSystem) : IsLeft directory files files [] :=
  ⟨List.forall_mem_nil _, List.forall_mem_nil _, .refl files, .refl _ _ _⟩

private theorem of_directories (directory : String) (files : FileSystem) :
    IsLeft directory files (files.createDirectories directory).2 [] where
  accepted := List.forall_mem_nil _
  held := List.forall_mem_nil _
  alters := FileSystem.alters_of_createDirectories directory files
  outside := (paves_createDirectories directory files).imp (fun _ _ => trivial) fun _ _ => id

end IsLeft

/-- In the course of a build, the files of a journal are written, all of them to paths that the build has claimed. -/
structure IsUnderway (directory : String) (files : FileSystem) (disk : Disk) (journal : List Write) : Prop where
  left : IsLeft directory files disk.files journal
  claimed : ∀ write ∈ journal, write.1 ∈ disk.output.written
  root : disk.output.root = directory

namespace IsUnderway

variable {directory : String} {files made : FileSystem} {disk next : Disk} {journal more : List Write} {path : String}
  {content : ByteArray} {cause : OutputError}

theorem start (hmade : (files.createDirectories directory).2 = made) :
    IsUnderway directory files ⟨made, { root := directory }⟩ [] where
  left := hmade ▸ .of_directories directory files
  claimed := List.forall_mem_nil _
  root := rfl

private theorem outside_writeBytes (h : IsUnderway directory files disk journal) (path : String) (content : ByteArray) :
    Paves directory (fun place => ¬ files.placeOf directory <+: place) files (disk.writeBytes path content).2.files := by
  have hpaves := disk.paves_writeBytes path content
  rw [Disk.isOutside_eq h.left.alters.workingDirectory, h.root] at hpaves
  exact h.left.outside.trans hpaves

private theorem write (h : IsUnderway directory files disk journal)
    (hwrite : disk.writeBytes path content = (.ok (), next)) :
    IsUnderway directory files next (journal ++ [(path, content)]) := by
  have hends := disk.ends_writeBytes path content
  have houtside := h.outside_writeBytes path content
  have hroot := disk.root_writeBytes path content
  have hclaimed := disk.written_subset_writeBytes path content
  rw [hwrite] at hends houtside hroot hclaimed
  cases hends with
  | written hpath hunclaimed hfiles hlocate hcontent =>
    have hdirectory : disk.output.root = ({ root := directory } : OutputDirectory).root := h.root
    have hplace : disk.output.place disk.files path = OutputDirectory.place { root := directory } files path := by
      rw [OutputDirectory.place_of_workingDirectory h.left.alters.workingDirectory, OutputDirectory.place_of_root hdirectory]
    have hlocation (path : String) : disk.output.location path = OutputDirectory.location { root := directory } path :=
      OutputDirectory.location_of_root hdirectory path
    refine ⟨⟨?_, ?_, ?_, houtside⟩, ?_, hroot.trans h.root⟩
    · rw [List.forall_mem_append]
      exact ⟨h.left.accepted, List.forall_mem_singleton.mpr hpath⟩
    · rw [List.forall_mem_append]
      constructor
      -- the path is new, so that its place is not that of any other file
      · intro write hmem
        have hread := h.left.held write hmem
        rw [← hlocation] at hread ⊢
        refine hfiles.read hread fun place hlocated hplaces => hunclaimed ?_
        rw [OutputDirectory.eq_place_of_locate (h.left.accepted write hmem) hlocated, List.mem_singleton] at hplaces
        rw [← OutputDirectory.place_injective hplaces]
        exact h.claimed write hmem
      · rw [List.forall_mem_singleton, ← hlocation]
        exact FileSystem.read_eq_ok_iff.mpr ⟨_, hlocate, hcontent⟩
    · have halters := h.left.alters.trans hfiles
      rw [hplace] at halters
      rwa [List.map_append, List.map_singleton]
    · rw [List.forall_mem_append]
      refine ⟨fun write hmem => hclaimed (h.claimed write hmem), List.forall_mem_singleton.mpr ?_⟩
      exact (insertPath_perm hunclaimed).mem_iff.mpr List.mem_cons_self

private theorem fail (h : IsUnderway directory files disk journal)
    (hwrite : disk.writeBytes path content = (.error cause, next)) :
    IsUnderway directory files next journal := by
  have houtside := h.outside_writeBytes path content
  have hroot := disk.root_writeBytes path content
  have hclaimed := disk.written_subset_writeBytes path content
  rw [hwrite] at houtside hroot hclaimed
  have hsame := (Disk.alters_of_writeBytes_error hwrite).1
  have halters := h.left.alters.trans hsame
  rw [List.append_nil] at halters
  refine ⟨⟨h.left.accepted, fun write hmem => ?_, halters, houtside⟩, fun write hmem => hclaimed (h.claimed write hmem),
    hroot.trans h.root⟩
  exact hsame.read (h.left.held write hmem) fun _ _ => List.not_mem_nil

private theorem writeAll (h : IsUnderway directory files disk journal) (hwritten : disk.writeAll more = .ok next) :
    IsUnderway directory files next (journal ++ more) := by
  induction more generalizing disk journal with
  | nil =>
    obtain rfl := Except.ok.inj hwritten
    rwa [List.append_nil]
  | cons write more ih =>
    obtain ⟨path, content⟩ := write
    obtain ⟨middle, hwrite, hrest⟩ := Disk.writeAll_cons_eq_ok_iff.mp hwritten
    rw [List.append_cons]
    exact ih (h.write hwrite) hrest

end IsUnderway

private theorem IsLeft.of_writeAll {directory : String} {files made : FileSystem} {final : Disk} {journal : List Write}
    (hmade : (files.createDirectories directory).2 = made)
    (h : Disk.writeAll journal ⟨made, { root := directory }⟩ = .ok final) : IsLeft directory files final.files journal :=
  ((IsUnderway.start hmade).writeAll h).left

/-- A step of a build leaves files that it has claimed, behind what was there. -/
abbrev Build.StaysUnderway {α : Type} (directory : String) (files : FileSystem) (step : Build α) : Prop :=
  step.Keeps fun workshop => ∃ journal, IsUnderway directory files workshop.disk journal

section

variable {directory : String} {files : FileSystem}

private theorem Build.staysUnderway_writeBytes (path : String) (content : ByteArray) :
    (writeBytes path content).StaysUnderway directory files := by
  rintro start ⟨journal, h⟩
  rw [writeBytes]
  rcases hwrite : start.disk.writeBytes path content with ⟨cause | _, next⟩
  · exact ⟨journal, h.fail hwrite⟩
  · exact ⟨_, h.write hwrite⟩

private theorem staysUnderway_copyResource (provider : Provider) (pair : String × String) :
    (copyResource provider pair).StaysUnderway directory files := by
  intro start h
  rw [copyResource]
  split
  · exact h
  · exact Build.staysUnderway_writeBytes _ _ start h

private theorem BuildSettings.staysUnderway_generate (context : Context) (schedule : Kind → Schedule)
    (provider : Provider)
    (manifest : Manifest) : (generate context (Stage.scheduled schedule) provider manifest).StaysUnderway directory files := by
  have hrender {α : Type} (rendering : StateM Renderer α) (_ : IsDetermined 0 rendering) :
      (Build.render rendering).StaysUnderway directory files := fun _ h => h
  have hstages : (Stage.runAll context (Stage.scheduled schedule)).StaysUnderway directory files :=
    Stage.keeps_runAll hrender (fun _ _ => Build.staysUnderway_writeBytes _ _) (List.Subset.refl _)
  have hcopies : (copyResources provider manifest).StaysUnderway directory files :=
    (Build.Keeps.forM (staysUnderway_copyResource provider) _).bind fun _ => .pure _
  exact hstages.bind fun _ => hcopies.bind fun _ => .pure _

end


/-! ### Builds -/

namespace BuildSettings

variable {settings : BuildSettings} {schedule : Kind → Schedule} {stages : List Stage} {provider : Option Provider}
  {schema : Schema} {files final : FileSystem} {error : BuildError}

theorem fails_makeOutput {directory : String} (h : makeOutput files directory = (.error error, final)) :
    error = .output (.failed directory) ∧ (files.createDirectories directory).2 = final := by
  rw [makeOutput] at h
  generalize files.createDirectories directory = created at h ⊢
  obtain ⟨outcome, made⟩ := created
  obtain ⟨houtcome, hfinal⟩ := Prod.mk.inj h
  cases outcome with
  | ok _ => cases houtcome
  | error cause => exact ⟨(Except.error.inj houtcome).symm, hfinal⟩

/-- Where a build can fail. -/
theorem fails_build (h : settings.build stages provider schema files = (.error error, final)) :
    (∃ cause, Registry.build schema = .error cause ∧ error = .schema cause ∧ final = files) ∨
    ∃ registry, Registry.build schema = .ok registry ∧
      ((∃ cause, settings.loadManifest files = .error cause ∧ error = .manifest cause ∧ final = files) ∨
      ∃ manifest, settings.loadManifest files = .ok manifest ∧
        (makeOutput files (settings.siteDirectory schema) = (.error error, final) ∨
        ∃ made ended, makeOutput files (settings.siteDirectory schema) = (.ok (), made) ∧
          (generate (settings.context schema registry) stages (settings.resources provider) manifest).Fails
            (settings.workshop schema made) error ended ∧ ended.disk.files = final)) := by
  rw [build] at h
  split at h
  · rename_i cause hregistry
    obtain ⟨herror, rfl⟩ := Prod.mk.inj h
    exact .inl ⟨cause, hregistry, (Except.error.inj herror).symm, rfl⟩
  · rename_i registry hregistry
    refine .inr ⟨registry, hregistry, ?_⟩
    split at h
    · rename_i cause hmanifest
      obtain ⟨herror, rfl⟩ := Prod.mk.inj h
      exact .inl ⟨cause, hmanifest, (Except.error.inj herror).symm, rfl⟩
    · rename_i manifest hmanifest
      refine .inr ⟨manifest, hmanifest, ?_⟩
      simp only at h
      split at h
      · rename_i cause made hmade
        obtain ⟨herror, rfl⟩ := Prod.mk.inj h
        rw [← Except.error.inj herror]
        exact .inl hmade
      · rename_i made hmade
        split at h
        rename_i outcome ended hgenerate
        obtain ⟨houtcome, hfinal⟩ := Prod.mk.inj h
        cases outcome with
        | ok value => cases houtcome
        | error cause =>
          obtain rfl := Except.error.inj houtcome
          exact .inr ⟨made, ended, hmade, hgenerate, hfinal⟩

/-- How far a build came, by the error that it ends with, and what it has left. -/
inductive FailsLeaving (settings : BuildSettings) (schedule : Kind → Schedule) (provider : Option Provider) (schema : Schema)
    (files : FileSystem) : BuildError → FileSystem → Prop where
  /-- Nothing is written, and no directory is made. -/
  | schema {cause : SchemaError} (hregistry : Registry.build schema = .error cause) :
      FailsLeaving settings schedule provider schema files (.schema cause) files
  | manifest {registry : Registry} {cause : ManifestError} (hregistry : Registry.build schema = .ok registry)
      (hmanifest : settings.loadManifest files = .error cause) :
      FailsLeaving settings schedule provider schema files (.manifest cause) files
  /-- The output directory cannot be made, and no file is written. -/
  | directory {registry : Registry} {manifest : Manifest} {final : FileSystem}
      (hregistry : Registry.build schema = .ok registry) (hmanifest : settings.loadManifest files = .ok manifest)
      (hmade : makeOutput files (settings.siteDirectory schema) =
        (.error (.output (.failed (settings.siteDirectory schema))), final))
      (hleft : IsLeft (settings.siteDirectory schema) files final []) :
      FailsLeaving settings schedule provider schema files (.output (.failed (settings.siteDirectory schema))) final
  /-- A file cannot be written. Those that are written have paths that the build has claimed. -/
  | output {registry : Registry} {manifest : Manifest} {made : FileSystem} {ended : Workshop} {cause : OutputError}
      {journal : List Write} (hregistry : Registry.build schema = .ok registry)
      (hmanifest : settings.loadManifest files = .ok manifest)
      (hmade : makeOutput files (settings.siteDirectory schema) = (.ok (), made))
      (hfails : (generate (settings.context schema registry) (Stage.scheduled schedule)
          (settings.resources provider) manifest).Fails
        (settings.workshop schema made) (.output cause) ended)
      (hclaimed : ∀ write ∈ journal, write.1 ∈ ended.disk.output.written)
      (hleft : IsLeft (settings.siteDirectory schema) files ended.disk.files journal) :
      FailsLeaving settings schedule provider schema files (.output cause) ended.disk.files
  /-- The reference is written, but no page and no resource. -/
  | navigation {registry : Registry} {collision : Collision} {final : FileSystem} {journal : List Write}
      (hregistry : Registry.build schema = .ok registry) (hreference : (journal.map Prod.fst).Perm registry.referencePaths)
      (hpages : ∀ write ∈ journal, ∀ rest, write.1 ≠ "pages/" ++ rest)
      (hcollision : PageTree.merge (settings.siteTitle schema) ((settings.context schema registry).foundPages final)
        registry = .error collision)
      (hleft : IsLeft (settings.siteDirectory schema) files final journal) :
      FailsLeaving settings schedule provider schema files (.navigation collision) final
  /-- All documents are written, and the resources before one that cannot be loaded. -/
  | resource {registry : Registry} {manifest : Manifest} {made final : FileSystem} {ledger : Ledger} {staged : Disk}
      {before after : List (String × String)} {pair : String × String} {resources : List Write} {cause : ResourceError}
      (hregistry : Registry.build schema = .ok registry) (hmanifest : settings.loadManifest files = .ok manifest)
      (hmade : makeOutput files (settings.siteDirectory schema) = (.ok (), made))
      (hstages : ledger.RecordsIn (settings.context schema registry) (registry.scheduled schedule)
        (settings.workshop schema made).disk staged)
      (hpairs : manifest.pairs = before ++ pair :: after)
      (hbefore : List.Forall₂ (IsResource (settings.resources provider)) before resources)
      (hfails : (settings.resources provider).load final pair.1 = .error cause)
      (hleft : IsLeft (settings.siteDirectory schema) files final (ledger.documents.map SiteDocument.write ++ resources)) :
      FailsLeaving settings schedule provider schema files (.resource cause) final

/-- The reference goes to a directory of its own. -/
theorem ne_pages_of_referencePaths {registry : Registry} {path : String} (h : path ∈ registry.referencePaths)
    (rest : String) :
    path ≠ "pages/" ++ rest := by
  have hdata : ∃ name, path = "data/" ++ name := by
    rcases List.mem_cons.mp h with rfl | h
    · exact ⟨"index.json", rfl⟩
    · obtain ⟨entry, -, rfl⟩ := List.mem_map.mp h
      refine ⟨entry.kind.tag ++ "/" ++ entry.qualifiedName ++ ".json", ?_⟩
      simp only [Entry.path, documentPath, String.append_assoc]
  obtain ⟨name, rfl⟩ := hdata
  intro hsame
  have hchars := congrArg String.toList hsame
  rw [String.toList_append, String.toList_append] at hchars
  cases (List.cons.inj hchars).1

private theorem failsLeaving_of_output {registry : Registry} {manifest : Manifest} {made : FileSystem}
    {ended : Workshop}
    {cause : OutputError} (hregistry : Registry.build schema = .ok registry) (hmanifest : settings.loadManifest files = .ok manifest)
    (hmade : makeOutput files (settings.siteDirectory schema) = (.ok (), made))
    (h : (generate (settings.context schema registry) (Stage.scheduled schedule) (settings.resources provider) manifest).Fails
      (settings.workshop schema made) (.output cause) ended) :
    settings.FailsLeaving schedule provider schema files (.output cause) ended.disk.files := by
  have hstart : IsUnderway (settings.siteDirectory schema) files (settings.workshop schema made).disk [] :=
    .start (congrArg Prod.snd (makeOutput_eq_ok_iff.mp hmade))
  obtain ⟨journal, hended⟩ := staysUnderway_generate _ schedule _ manifest _ ⟨[], hstart⟩
  rw [h] at hended
  exact .output hregistry hmanifest hmade h hended.claimed hended.left

private theorem failsLeaving_of_collision {registry : Registry} {made : FileSystem} {staged : Disk}
    {collision : Collision}
    (hregistry : Registry.build schema = .ok registry) (hmade : (files.createDirectories (settings.siteDirectory schema)).2 = made)
    (hreference : (settings.workshop schema made).disk.Completes
      ("data/index.json" :: (registry.scheduled schedule).map Entry.path) staged)
    (hcollision : PageTree.merge (settings.siteTitle schema) ((settings.context schema registry).foundPages staged.files)
      registry = .error collision) :
    settings.FailsLeaving schedule provider schema files (.navigation collision) staged.files := by
  obtain ⟨journal, hpaths, hwritten⟩ := hreference
  have hperm : (journal.map Prod.fst).Perm registry.referencePaths := by
    rw [hpaths]
    exact (((registry.scheduled_perm schedule).trans registry.byStages_perm.symm).map _).cons _
  refine .navigation hregistry hperm (fun write hwrite => ?_) hcollision (.of_writeAll hmade hwritten)
  exact ne_pages_of_referencePaths (hperm.mem_iff.mp (List.mem_map_of_mem hwrite))

theorem exists_stops_of_copyResources {registry : Registry} {manifest : Manifest} {made : FileSystem} {report : Report}
    {staged ended : Workshop} (hmade : (files.createDirectories (settings.siteDirectory schema)).2 = made)
    (hstages : (Stage.runAll (settings.context schema registry) (Stage.scheduled schedule)).Yields (settings.workshop schema made)
      report staged)
    (h : (copyResources (settings.resources provider) manifest).Fails staged error ended) :
    ∃ (ledger : Ledger) (before : List (String × String)) (pair : String × String) (after : List (String × String))
      (resources : List Write) (middle : Disk),
      ledger.RecordsIn (settings.context schema registry) (registry.scheduled schedule) (settings.workshop schema made).disk
        staged.disk ∧
      manifest.pairs = before ++ pair :: after ∧ List.Forall₂ (IsResource (settings.resources provider)) before resources ∧
      IsLeft (settings.siteDirectory schema) files middle.files (ledger.documents.map SiteDocument.write ++ resources) ∧
      Stops (settings.resources provider) middle pair error ended.disk := by
  obtain ⟨ledger, hrecords, -⟩ := Stage.records_scheduled hstages
  obtain ⟨⟨before, pair, after, resources, middle, hpairs, hcopies, hstops⟩, -⟩ :=
    fails_copies_iff.mp (copyResources_eq_error_iff.mp h)
  have hwritten : Disk.writeAll (ledger.documents.map SiteDocument.write ++ resources) (settings.workshop schema made).disk =
      .ok middle := Disk.writeAll_append_eq_ok_iff.mpr ⟨_, hrecords.writes, hcopies.writeAll⟩
  exact ⟨ledger, before, pair, after, resources, middle, hrecords, hpairs, hcopies.resources, .of_writeAll hmade hwritten, hstops⟩

/-- A build that fails has come as far as its error says, and leaves the files that it has written until then:
none if the schema or the manifest is refused, no page and no resource if pages collide, and all documents with
the resources before one that cannot be loaded. All that it leaves has been claimed, in whatever order threads
have written the documents of a kind. -/
theorem build_failed (h : settings.build (Stage.scheduled schedule) provider schema files = (.error error, final)) :
    settings.FailsLeaving schedule provider schema files error final := by
  obtain ⟨cause, hregistry, rfl, rfl⟩ | ⟨registry, hregistry, ⟨cause, hmanifest, rfl, rfl⟩ | ⟨manifest, hmanifest, h⟩⟩ :=
    fails_build h
  · exact .schema hregistry
  · exact .manifest hregistry hmanifest
  · rcases h with hmade | ⟨made, ended, hmade, hgenerate, rfl⟩
    · obtain ⟨rfl, hfinal⟩ := fails_makeOutput hmade
      exact .directory hregistry hmanifest hmade (hfinal ▸ .of_directories _ files)
    have hcreated := congrArg Prod.snd (makeOutput_eq_ok_iff.mp hmade)
    rcases Build.fails_bind_iff.mp hgenerate with hstages | ⟨report, staged, hstages, hrest⟩
    · obtain ⟨cause, rfl⟩ | ⟨collision, rfl, hreference, hcollision⟩ := Stage.fails_scheduled hstages
      · exact failsLeaving_of_output hregistry hmanifest hmade hgenerate
      · exact failsLeaving_of_collision hregistry hcreated hreference hcollision
    · rcases Build.fails_bind_iff.mp hrest with hcopies | ⟨_, _, _, hrest⟩
      · obtain ⟨ledger, before, pair, after, resources, middle, hrecords, hpairs, hbefore, hleft, hstops⟩ :=
          exists_stops_of_copyResources hcreated hstages hcopies
        cases hstops with
        | load hload => exact .resource hregistry hmanifest hmade hrecords hpairs hbefore hload hleft
        | write hload hwrite => exact failsLeaving_of_output hregistry hmanifest hmade hgenerate
      · exact absurd hrest Build.not_fails_pure

/-- Whether a build succeeds or fails, it leaves files of its output directory. -/
theorem exists_isLeft_build (settings : BuildSettings) (schedule : Kind → Schedule) (provider : Option Provider)
    (schema : Schema) (files : FileSystem) : ∃ journal, IsLeft (settings.siteDirectory schema) files
      (settings.build (Stage.scheduled schedule) provider schema files).2 journal := by
  rw [build]
  split
  · exact ⟨[], .refl _ _⟩
  · rename_i registry _
    split
    · exact ⟨[], .refl _ _⟩
    · rename_i manifest _
      simp only
      rcases hmade : makeOutput files (settings.siteDirectory schema) with ⟨error | _, made⟩
      · obtain ⟨-, rfl⟩ := fails_makeOutput hmade
        exact ⟨[], .of_directories _ _⟩
      · have hstart : IsUnderway (settings.siteDirectory schema) files (settings.workshop schema made).disk [] :=
          .start (congrArg Prod.snd (makeOutput_eq_ok_iff.mp hmade))
        obtain ⟨journal, hended⟩ := staysUnderway_generate (settings.context schema registry) schedule
          (settings.resources provider) manifest _ ⟨[], hstart⟩
        rw [context, workshop, resources] at hended
        simp only
        generalize generate _ _ _ _ _ = ended at hended ⊢
        exact ⟨journal, hended.left⟩

end BuildSettings

namespace Sample

private theorem build_misses :
    resourceCause? (settings.build Stage.standard (some (.memory [])) schema files).1 = some (.notFound "x") := by
  decide +kernel

end Sample

theorem BuildSettings.build_failed_missing :
    ∃ final, Sample.settings.build Stage.standard (some (.memory [])) Sample.schema Sample.files =
        (.error (.resource (.notFound "x")), final) ∧
      Sample.settings.FailsLeaving (fun _ => {}) (some (.memory [])) Sample.schema Sample.files (.resource (.notFound "x")) final := by
  obtain ⟨final, h⟩ := Sample.exists_of_resourceCause? Sample.build_misses
  exact ⟨final, h, BuildSettings.build_failed h⟩

end SchemaDocs
