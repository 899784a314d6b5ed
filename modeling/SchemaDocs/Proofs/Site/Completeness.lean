import SchemaDocs.Proofs.Schema.Outcome
import SchemaDocs.Proofs.Site.Stages

/-!
# A complete site

A build that succeeds has written the index, a document for each declaration and each page, the
navigation tree and the resources, each file once and nothing else. A report counts what has been
written.
-/

namespace SchemaDocs

/-- The paths of a site, which comes from a schema, its pages and a manifest. -/
inductive IsSitePath (schema : Schema) (sources : List SourcePage) (manifest : Manifest) : String → Prop where
  | index : IsSitePath schema sources manifest "data/index.json"
  | declaration {entry : Entry} (hentry : schema.Declares entry) :
      IsSitePath schema sources manifest ("data/" ++ entry.kind.tag ++ "/" ++ entry.qualifiedName ++ ".json")
  | page {source : SourcePage} (hsource : source ∈ sources) : IsSitePath schema sources manifest source.documentPath
  | tree : IsSitePath schema sources manifest "pages/_tree.json"
  | resource {locator target : String} (hpair : (locator, target) ∈ manifest.pairs) :
      IsSitePath schema sources manifest target

/-- The paths of a site one by one. -/
def sitePaths (schema : Schema) (sources : List SourcePage) (manifest : Manifest) : List String :=
  "data/index.json" ::
    (schema.entries.map Entry.path ++ (sources.map SourcePage.documentPath ++ ["pages/_tree.json"] ++
      manifest.pairs.map Prod.snd))

theorem mem_sitePaths_iff {schema : Schema} {sources : List SourcePage} {manifest : Manifest} {path : String} :
    path ∈ sitePaths schema sources manifest ↔ IsSitePath schema sources manifest path := by
  simp only [sitePaths, List.mem_cons, List.mem_append, List.mem_map, List.not_mem_nil, or_false]
  constructor
  · rintro (rfl | ⟨entry, hentry, rfl⟩ | (⟨source, hsource, rfl⟩ | rfl) | ⟨⟨locator, target⟩, hpair, rfl⟩)
    · exact .index
    · exact .declaration (Schema.mem_entries_iff.mp hentry)
    · exact .page hsource
    · exact .tree
    · exact .resource hpair
  · intro h
    cases h with
    | index => exact .inl rfl
    | declaration hentry => exact .inr (.inl ⟨_, Schema.mem_entries_iff.mpr hentry, rfl⟩)
    | page hsource => exact .inr (.inr (.inl (.inl ⟨_, hsource, rfl⟩)))
    | tree => exact .inr (.inr (.inl (.inr rfl)))
    | resource hpair => exact .inr (.inr (.inr ⟨_, hpair, rfl⟩))

private theorem Manifest.size_eq (manifest : Manifest) : manifest.size = manifest.pairs.length := by
  obtain ⟨bundles⟩ := manifest
  simp only [size, pairs]
  induction bundles with
  | nil => rfl
  | cons bundle bundles ih => rw [List.foldr_cons, ih, List.flatMap_cons, List.length_append, Bundle.pairs, List.length_map]

def BuildSettings.context (settings : BuildSettings) (schema : Schema) (registry : Registry) : Context :=
  { schema, registry, title := settings.siteTitle schema, pagesDirectory := settings.pagesDirectory }

def BuildSettings.workshop (settings : BuildSettings) (schema : Schema) (made : FileSystem) : Workshop where
  disk := { files := made, output := { root := settings.siteDirectory schema } }
  renderer := { limit := settings.markdownLimit }

def BuildSettings.resources (settings : BuildSettings) (provider : Option Provider) : Provider :=
  provider.getD (.directory settings.resourcesDirectory)

theorem BuildSettings.build_eq_ok_iff {settings : BuildSettings} {stages : List Stage} {provider : Option Provider}
    {schema : Schema} {files final : FileSystem} {result : BuildResult} :
    settings.build stages provider schema files = (.ok result, final) ↔
      ∃ registry manifest made workshop, Registry.build schema = .ok registry ∧ settings.loadManifest files = .ok manifest ∧
        makeOutput files (settings.siteDirectory schema) = (.ok (), made) ∧
        (generate (settings.context schema registry) stages (settings.resources provider) manifest).Yields
          (settings.workshop schema made) (result.report, result.assets) workshop ∧
        result.outputDirectory = settings.siteDirectory schema ∧ workshop.disk.files = final := by
  rw [build]
  constructor
  · intro h
    split at h
    · cases h
    · rename_i registry hregistry
      split at h
      · cases h
      · rename_i manifest hmanifest
        simp only at h
        split at h
        · cases h
        · rename_i made hmade
          split at h
          rename_i outcome workshop hgenerate
          obtain ⟨hresult, hfinal⟩ := Prod.mk.inj h
          cases outcome with
          | error error => cases hresult
          | ok value =>
            obtain rfl := Except.ok.inj hresult
            exact ⟨registry, manifest, made, workshop, hregistry, hmanifest, hmade, hgenerate, rfl, hfinal⟩
  · rintro ⟨registry, manifest, made, ended, hregistry, hmanifest, hmade, hgenerate, hdirectory, rfl⟩
    rw [Build.Yields, context, workshop, resources] at hgenerate
    simp only [hregistry, hmanifest, hmade, hgenerate, Except.map]
    rw [← hdirectory]

/-- What a build that succeeds has gone through. -/
structure SiteRun (settings : BuildSettings) (schedule : Kind → Schedule) (provider : Option Provider) (schema : Schema)
    (files : FileSystem) (result : BuildResult) (final : FileSystem) where
  registry : Registry
  manifest : Manifest
  /-- The files once the output directory is there. -/
  made : FileSystem
  ledger : Ledger
  /-- The disk behind the stages. -/
  staged : Disk
  resources : List Write
  output : OutputDirectory
  registered : Registry.build schema = .ok registry
  loaded : settings.loadManifest files = .ok manifest
  directory : BuildSettings.makeOutput files result.outputDirectory = (.ok (), made)
  records : ledger.RecordsIn (settings.context schema registry) (registry.scheduled schedule)
    ⟨made, { root := result.outputDirectory }⟩ staged
  found : List.Forall₂ (IsResource (provider.getD (.directory settings.resourcesDirectory))) manifest.pairs resources
  copied : staged.writeAll resources = .ok ⟨final, output⟩
  outputDirectory : result.outputDirectory = settings.siteDirectory schema
  documents : result.report.documents = registry.entries.length + 2
  pages : result.report.pages = ledger.sources.length
  assets : result.assets = manifest.size

namespace SiteRun

variable {settings : BuildSettings} {schedule : Kind → Schedule} {provider : Option Provider} {schema : Schema}
  {files final : FileSystem} {result : BuildResult}

theorem exists_of_build (h : settings.build (Stage.scheduled schedule) provider schema files = (.ok result, final)) :
    ∃ (run : SiteRun settings schedule provider schema files result final) (report : Report) (staged : Workshop),
      (Stage.runAll (settings.context schema run.registry) (Stage.scheduled schedule)).Yields (settings.workshop schema run.made)
        report staged ∧ staged.disk = run.staged := by
  obtain ⟨registry, manifest, made, workshop, hregistry, hmanifest, hmade, hgenerate, hdirectory, rfl⟩ :=
    BuildSettings.build_eq_ok_iff.mp h
  obtain ⟨report, staged, hstages, hgenerate⟩ := Build.yields_bind_iff.mp hgenerate
  obtain ⟨assets, copied, hcopies, hgenerate⟩ := Build.yields_bind_iff.mp hgenerate
  obtain ⟨hresult, rfl⟩ := Build.yields_pure_iff.mp hgenerate
  obtain ⟨rfl, rfl⟩ := Prod.mk.inj hresult
  obtain ⟨ledger, hrecords, hdocuments, hpages⟩ := Stage.records_scheduled hstages
  obtain ⟨hassets, resources, hresources, hcopied⟩ := writes_resources hcopies
  rw [← hdirectory] at hmade
  rw [BuildSettings.workshop, ← hdirectory] at hrecords
  exact ⟨{
    registry, manifest, made, ledger, staged := staged.disk, resources, output := workshop.disk.output,
    registered := hregistry, loaded := hmanifest, directory := hmade, records := hrecords, found := hresources,
    copied := hcopied, outputDirectory := hdirectory, documents := hdocuments, pages := hpages, assets := hassets },
    result.report, staged, hstages, rfl⟩

theorem nonempty_of_build (h : settings.build (Stage.scheduled schedule) provider schema files = (.ok result, final)) :
    Nonempty (SiteRun settings schedule provider schema files result final) := by
  obtain ⟨run, -⟩ := exists_of_build h
  exact ⟨run⟩

/-- All files of a site in the order in which they are written. -/
def journal (run : SiteRun settings schedule provider schema files result final) : List Write :=
  run.ledger.documents.map SiteDocument.write ++ run.resources

/-- What has been written once a site is built. -/
structure IsComplete (run : SiteRun settings schedule provider schema files result final) : Prop where
  /-- Nothing is written but the journal. -/
  writes : Disk.writeAll run.journal ⟨run.made, { root := result.outputDirectory }⟩ = .ok ⟨final, run.output⟩
  claimed : ∀ path, path ∈ run.output.written ↔ IsSitePath schema run.ledger.sources run.manifest path
  /-- The paths of all parts of the site are different. -/
  distinct : (sitePaths schema run.ledger.sources run.manifest).Nodup
  /-- Each path is written once, and no other path is. -/
  once : (run.journal.map Prod.fst).Perm (sitePaths schema run.ledger.sources run.manifest)
  /-- A file holds what was written to it. -/
  held : ∀ write ∈ run.journal, final.read (run.output.location write.1) = .ok write.2
  root : run.output.root = result.outputDirectory
  documents : result.report.documents = run.registry.entries.length + 2
  pages : result.report.pages = run.ledger.sources.length
  assets : result.assets = run.manifest.size
  total : result.report.documents + result.report.pages + result.assets = run.output.written.length

theorem entries_eq (run : SiteRun settings schedule provider schema files result final) :
    run.registry.entries = schema.entries := Registry.entries_of_build run.registered

theorem once (run : SiteRun settings schedule provider schema files result final) :
    (run.journal.map Prod.fst).Perm (sitePaths schema run.ledger.sources run.manifest) := by
  have hreference : run.ledger.reference.map Prod.fst = (run.registry.scheduled schedule).map Entry.path :=
    (map_eq_map_of_forall₂ (fun _ _ h => h.path.symm) run.records.reference).symm
  have hpages : run.ledger.pages.map Prod.fst = run.ledger.sources.map SourcePage.documentPath :=
    (map_eq_map_of_forall₂ (fun _ _ h => h.path.symm) run.records.pages).symm
  have hresources : run.resources.map Prod.fst = run.manifest.pairs.map Prod.snd :=
    (map_eq_map_of_forall₂ (fun _ _ h => h.path.symm) run.found).symm
  have hentries : ((run.registry.scheduled schedule).map Entry.path).Perm (schema.entries.map Entry.path) := by
    rw [← run.entries_eq]
    exact (run.registry.scheduled_perm schedule).map _
  have hwrite : Prod.fst ∘ SiteDocument.write = Prod.fst := rfl
  simp only [sitePaths, journal, Ledger.documents, Ledger.referenceDocuments, Ledger.pageDocuments,
    List.map_append, List.map_cons, List.map_nil, List.map_map, hwrite, hreference, hpages, hresources,
    List.cons_append, List.append_assoc]
  exact (hentries.append_right _).cons _

theorem writes (run : SiteRun settings schedule provider schema files result final) :
    Disk.writeAll run.journal ⟨run.made, { root := result.outputDirectory }⟩ = .ok ⟨final, run.output⟩ :=
  Disk.writeAll_append_eq_ok_iff.mpr ⟨run.staged, run.records.writes, run.copied⟩

theorem isComplete (run : SiteRun settings schedule provider schema files result final) : run.IsComplete := by
  have hall := Disk.holdsAll_of_writeAll run.writes
  have hwritten : run.output.written.Perm (sitePaths schema run.ledger.sources run.manifest) := by
    refine (hall.written.trans ?_).trans run.once
    simp
  refine ⟨run.writes, fun path => ?_, run.once.nodup_iff.mp hall.nodup, run.once, ?_, hall.root, run.documents, run.pages,
    run.assets, ?_⟩
  · rw [hwritten.mem_iff, mem_sitePaths_iff]
  · intro write hwrite
    rw [OutputDirectory.location_of_root hall.root]
    exact hall.read write hwrite
  · rw [hwritten.length_eq, run.documents, run.pages, run.assets, run.entries_eq, Manifest.size_eq]
    simp only [sitePaths, List.length_cons, List.length_append, List.length_map, List.length_nil]
    omega

end SiteRun

/-- A build that succeeds has written the whole site, each file once and nothing else, and reports
how much. -/
theorem BuildSettings.build_complete {settings : BuildSettings} {schedule : Kind → Schedule}
    {provider : Option Provider} {schema : Schema} {files final : FileSystem} {result : BuildResult}
    (h : settings.build (Stage.scheduled schedule) provider schema files = (.ok result, final)) :
    ∃ run : SiteRun settings schedule provider schema files result final, run.IsComplete := by
  obtain ⟨run⟩ := SiteRun.nonempty_of_build h
  exact ⟨run, run.isComplete⟩

/-! ### A small site -/

namespace Sample

def schema : Schema where
  output := "o"
  files := [{
    name := "a"
    messages := [{ name := "M", fields := [{ name := "s", typeName := ".M.S", tag := 1 }], enums := [{ name := "S" }] }] }]

/-- A manifest of one resource, and one page that describes its directory. -/
def files : FileSystem where
  root := .directory [
    ("m", .file "[[bundle]]\nname=\"\"\nfiles=[\"x\"]".toUTF8),
    ("p", .directory [("a", .directory [("index.md", .file "# A".toUTF8)])])]

def settings : BuildSettings where
  manifest := some "m"
  pagesDirectory := some "p"

def provider : Provider := .memory [("x", .empty)]

private theorem builds : (settings.build Stage.standard provider schema files).1.toOption.isSome := by
  decide +kernel

theorem exists_of_isSome {ε α σ : Type} {outcome : Except ε α × σ} (h : outcome.1.toOption.isSome) :
    ∃ value final, outcome = (.ok value, final) := by
  obtain ⟨value, hvalue⟩ := Option.isSome_iff_exists.mp h
  exact ⟨value, outcome.2, Prod.ext (eq_ok_of_toOption hvalue) rfl⟩

theorem exists_build : ∃ result final, settings.build Stage.standard provider schema files = (.ok result, final) :=
  exists_of_isSome builds

end Sample

theorem BuildSettings.build_complete_sample :
    ∃ result final, Sample.settings.build Stage.standard Sample.provider Sample.schema Sample.files = (.ok result, final) ∧
      ∃ run : SiteRun Sample.settings (fun _ => {}) Sample.provider Sample.schema Sample.files result final, run.IsComplete := by
  obtain ⟨result, final, h⟩ := Sample.exists_build
  exact ⟨result, final, h, BuildSettings.build_complete h⟩

end SchemaDocs
