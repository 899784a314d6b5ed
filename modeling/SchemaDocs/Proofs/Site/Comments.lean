import SchemaDocs.Proofs.Site.Blocking
import SchemaDocs.Proofs.Site.Lockstep
import SchemaDocs.Proofs.Site.Threads

/-!
# Sites that differ in comments

A comment is rendered into the descriptions and summaries of the reference and goes nowhere else. So two
schemas that differ in nothing but comments fail for the same reason or make the same site, apart from
these texts, whatever the renderer makes of the comments.
-/

namespace SchemaDocs

open Build (Lockstep)

/-! ### Navigation -/

namespace PageTree

private theorem addGroup_uncommented (registry : Registry) : addGroup registry.uncommented = addGroup registry := by
  funext reference tree ⟨rank, kind⟩
  simp only [addGroup, Registry.ofKind_uncommented, List.isEmpty_map, List.foldlM_map, Entry.qualifiedName_uncommented,
    Entry.path_uncommented]

private theorem merge_uncommented (title : String) (sources : List SourcePage) (registry : Registry) :
    merge title sources registry.uncommented = merge title sources registry := by
  simp only [merge, addReference, addGroup_uncommented]

end PageTree

/-! ### Stages -/

/-- Two contexts differ in nothing but comments. -/
structure Context.DiffersInComments (context other : Context) : Prop where
  name : other.schema.name = context.schema.name
  title : other.title = context.title
  pagesDirectory : other.pagesDirectory = context.pagesDirectory
  registry : other.registry.uncommented = context.registry.uncommented

namespace Stage

variable {context other : Context} {limit : Nat} {top : List String} (h : context.DiffersInComments other)
include h

private theorem lockstep_index :
    Lockstep (Workshop.Alongside limit top IsReferencePath) Eq (index.run context) (index.run other) := by
  refine (Lockstep.render (.indexView ..) (.indexView ..)).bind fun view viewOther hviews => ?_
  obtain ⟨rfl, rfl⟩ := hviews
  refine (Lockstep.writeBytes (.inr ⟨.inl rfl, .inr ⟨_, _, rfl, rfl, ?_⟩⟩)).bind fun _ _ _ => .pure rfl
  rw [IndexView.erased_toJson, IndexView.erased_toJson, Mirrors.indexView context.registry _ _ { limit } { limit },
    Mirrors.indexView other.registry _ _ { limit } { limit }, h.registry, h.name, h.title]

private theorem lockstep_writeEntry {entry entryOther : Entry} (hentry : entry.uncommented = entryOther.uncommented) :
    Lockstep (Workshop.Alongside limit top IsReferencePath) Eq (writeEntry context entry) (writeEntry other entryOther) := by
  have hpath : entryOther.path = entry.path := by
    rw [← entryOther.path_uncommented, ← hentry, entry.path_uncommented]
  have hother := Mirrors.entryDocument other.registry entryOther
  rw [h.registry, ← hentry] at hother
  rw [writeEntry, writeEntry, hpath]
  exact .document (.entryDocument ..) (.entryDocument ..)
    (.inr ⟨.inr ⟨_, _, rfl⟩, Mirrors.eq_of_mirrors (Mirrors.entryDocument context.registry entry) hother _ _⟩)

private theorem lockstep_ofKind (name : String) (kind : Kind) (schedule : Schedule) :
    Lockstep (Workshop.Alongside limit top IsReferencePath) Eq ((ofKind name kind schedule).run context)
      ((ofKind name kind schedule).run other) := by
  have hsame : List.Forall₂ Eq ((context.registry.declaring kind).map Entry.uncommented)
      ((other.registry.declaring kind).map Entry.uncommented) := by
    rw [List.forall₂_eq_eq_eq, ← Registry.declaring_uncommented, ← Registry.declaring_uncommented, h.registry]
  have hentries := List.forall₂_map_left_iff.mp (List.forall₂_map_right_iff.mp hsame)
  refine (Lockstep.race (fun _ _ hentry => lockstep_writeEntry h hentry) hentries schedule).bind fun _ _ _ => .pure ?_
  rw [hentries.length_eq]

private theorem lockstep_pages :
    Lockstep (Workshop.Alongside limit top IsReferencePath) Eq (pages.run context) (pages.run other) := by
  have hsources : Lockstep (Workshop.Alongside limit top IsReferencePath) Eq (sources context) (sources other) := by
    intro start startOther hstart
    refine ⟨.ok ?_, hstart⟩
    rw [h.pagesDirectory]
    cases context.pagesDirectory with
    | none => rfl
    | some directory => exact (Discovery.discover_eq keepsPages_reference hstart.disk.files directory).symm
  refine hsources.bind fun found _ hfound => ?_
  subst hfound
  have htree : PageTree.merge other.title found other.registry = PageTree.merge context.title found context.registry := by
    rw [← PageTree.merge_uncommented, h.registry, h.title, PageTree.merge_uncommented]
  simp only [htree]
  cases PageTree.merge context.title found context.registry with
  | error collision => exact .throw _
  | ok tree =>
    have hpages : Lockstep (Workshop.Alongside limit top IsReferencePath) Eq (found.forM writePage) (found.forM writePage) := by
      refine Lockstep.forM (fun source _ hsource => ?_) (List.forall₂_same.mpr fun _ _ => rfl)
      subst hsource
      exact .document (isDetermined_pageDocument source) (isDetermined_pageDocument source) (.inl rfl)
    exact hpages.bind fun _ _ _ => (Lockstep.writeBytes (.inl rfl)).bind fun _ _ _ => .pure rfl

private theorem lockstep_scheduled (schedule : Kind → Schedule) :
    Lockstep (Workshop.Alongside limit top IsReferencePath) Eq (runAll context (scheduled schedule))
      (runAll other (scheduled schedule)) := by
  refine Lockstep.runAll fun stage hstage => ?_
  simp only [scheduled, List.mem_cons, List.not_mem_nil, or_false] at hstage
  rcases hstage with rfl | rfl | rfl | rfl | rfl | rfl
  · exact lockstep_index h
  · exact lockstep_ofKind h _ _ _
  · exact lockstep_ofKind h _ _ _
  · exact lockstep_ofKind h _ _ _
  · exact lockstep_ofKind h _ _ _
  · exact lockstep_pages h

end Stage

/-! ### Resources -/

/-- What a provider loads does not depend on comments: in files that are the same with descriptions and
summaries erased it finds what is the same. Memory and directories are providers of this kind. -/
def Provider.IgnoresComments : Provider → Prop
  | .memory _ | .directory _ => True
  | .custom load => ∀ files others locator, files.Similar (fun _ => SameErased) others →
      EndAlike SameErased (load files locator) (load others locator)

private theorem Provider.IgnoresComments.load {provider : Provider} (h : provider.IgnoresComments)
    {files others : FileSystem} (hfiles : files.Similar (fun _ => SameErased) others) (locator : String) :
    EndAlike SameErased (provider.load files locator) (provider.load others locator) := by
  cases provider with
  | custom load => exact h files others locator hfiles
  | memory resources =>
    rw [Provider.load, Provider.load]
    cases resources.lookup locator with
    | none => exact .error _
    | some content => exact .ok (.inl rfl)
  | directory root =>
    rw [Provider.load, Provider.load]
    split
    · exact .error _
    · generalize files.read _ = content, others.read _ = held, hfiles.read (Path.join root locator) = hread
      cases hread with
      | error error => cases error <;> exact .error _
      | ok h =>
        obtain ⟨_, -, hsame⟩ := h
        exact .ok hsame

/-- Two workshops alongside each other, in which all paths that are not claimed yet are loose. -/
structure Workshop.AlongsideLoosely (limit : Nat) (top : List String) (loose : String → Prop) (workshop other : Workshop) : Prop
    extends workshop.Alongside limit top loose other where
  unclaimed : ∀ path, path ∉ workshop.disk.output.written → loose path

section

variable {limit : Nat} {top : List String} {loose : String → Prop} {provider : Provider}

private theorem lockstep_copyResource (hprovider : provider.IgnoresComments) (pair : String × String) :
    Lockstep (Workshop.AlongsideLoosely limit top loose) Eq (copyResource provider pair) (copyResource provider pair) := by
  intro start startOther hstart
  have hload := hprovider.load (hstart.disk.files.mono fun _ _ _ => ApartFromComments.sameErased) pair.1
  rw [copyResource, copyResource]
  generalize provider.load start.disk.files pair.1 = loaded, provider.load startOther.disk.files pair.1 = loadedOther at hload
  cases hload with
  | error error => exact ⟨.error _, hstart⟩
  | ok hsame =>
    rename_i content held
    obtain ⟨houtcome, hdisk⟩ := hstart.toAlongside.writeBytes fun hclaim => .inr ⟨hstart.unclaimed pair.2 hclaim, hsame⟩
    exact ⟨houtcome, hdisk, fun path hpath => hstart.unclaimed path fun hclaimed =>
      hpath (Disk.written_subset_writeBytes start.disk pair.2 content hclaimed)⟩

private theorem lockstep_copyResources (hprovider : provider.IgnoresComments) (manifest : Manifest) :
    Lockstep (Workshop.AlongsideLoosely limit top loose) Eq (copyResources provider manifest)
      (copyResources provider manifest) := by
  refine Lockstep.bind (Lockstep.forM (fun pair _ hpair => ?_) (List.forall₂_same.mpr fun _ _ => rfl)) fun _ _ _ => .pure rfl
  subst hpair
  exact lockstep_copyResource hprovider pair

end

/-! ### Builds -/

namespace BuildSettings

variable {settings : BuildSettings} {schedule : Kind → Schedule} {provider : Option Provider} {left right : Schema}
  {files final : FileSystem} {result : BuildResult}

/-- What the stages leave differs in the documents of the reference only. Resources may differ where they are
taken from there. -/
theorem alongside_generate {limit : Nat} {top : List String} {context other : Context} {provider : Provider}
    {start startOther : Workshop} (h : context.DiffersInComments other) (hprovider : provider.IgnoresComments)
    (manifest : Manifest) (hstart : start.Alongside limit top IsReferencePath startOther) :
    EndAlike Eq (generate context (Stage.scheduled schedule) provider manifest start).1
        (generate other (Stage.scheduled schedule) provider manifest startOther).1 ∧
      (generate context (Stage.scheduled schedule) provider manifest start).2.Alongside limit top
        (fun path => IsReferencePath path ∨
          path ∉ (Stage.runAll context (Stage.scheduled schedule) start).2.disk.output.written)
        (generate other (Stage.scheduled schedule) provider manifest startOther).2 := by
  obtain ⟨houtcome, hstaged⟩ := Stage.lockstep_scheduled h schedule start startOther hstart
  rw [generate, generate, Build.run_bind, Build.run_bind]
  generalize Stage.runAll context (Stage.scheduled schedule) start = ended,
    Stage.runAll other (Stage.scheduled schedule) startOther = endedOther at houtcome hstaged
  obtain ⟨outcome, staged⟩ := ended
  obtain ⟨outcomeOther, stagedOther⟩ := endedOther
  cases houtcome with
  | error error => exact ⟨.error error, hstaged.mono fun _ => .inl⟩
  | ok hreport =>
    rename_i report reportOther
    subst hreport
    have hcopies : Lockstep (Workshop.AlongsideLoosely limit top
          fun path => IsReferencePath path ∨ path ∉ staged.disk.output.written) Eq
        (copyResources provider manifest >>= fun assets => pure (report, assets))
        (copyResources provider manifest >>= fun assets => pure (report, assets)) :=
      (lockstep_copyResources hprovider manifest).bind fun _ _ hassets => .pure (congrArg (Prod.mk report) hassets)
    obtain ⟨hassets, hcopied⟩ := hcopies staged stagedOther ⟨hstaged.mono fun _ => .inl, fun _ => .inr⟩
    exact ⟨hassets, hcopied.toAlongside⟩

def stagedPaths (settings : BuildSettings) (schedule : Kind → Schedule) (schema : Schema) (files : FileSystem) : List String :=
  match Registry.build schema with
  | .error _ => []
  | .ok registry =>
    let made := (makeOutput files (settings.siteDirectory schema)).2
    (Stage.runAll (settings.context schema registry) (Stage.scheduled schedule)
      (settings.workshop schema made)).2.disk.output.written

/-- The files of a site that may differ with the comments: those of the reference, and resources. -/
def ApartFromComments (settings : BuildSettings) (schedule : Kind → Schedule) (schema : Schema) (files : FileSystem) :
    ContentRelation :=
  SchemaDocs.ApartFromComments (files.placeOf (settings.siteDirectory schema)) fun path =>
    IsReferencePath path ∨ path ∉ settings.stagedPaths schedule schema files

private theorem alike_registries (hschemas : left.uncommented = right.uncommented) :
    EndAlike (fun registry other : Registry => other.uncommented = registry.uncommented) (Registry.build left)
      (Registry.build right) := by
  have h : (Registry.build left).map Registry.uncommented = (Registry.build right).map Registry.uncommented := by
    rw [← Registry.build_uncommented, ← Registry.build_uncommented, hschemas]
  cases hleft : Registry.build left with
  | error error =>
    cases hright : Registry.build right with
    | error other =>
      rw [hleft, hright] at h
      cases h
      exact .error error
    | ok other =>
      rw [hleft, hright] at h
      cases h
  | ok registry =>
    cases hright : Registry.build right with
    | error error =>
      rw [hleft, hright] at h
      cases h
    | ok other =>
      rw [hleft, hright] at h
      exact .ok (Except.ok.inj h).symm

/-- Two schemas that differ in nothing but comments are built alike. -/
theorem alike_build (hschemas : left.uncommented = right.uncommented)
    (hprovider : (settings.resources provider).IgnoresComments) :
    (settings.build (Stage.scheduled schedule) provider right files).1 =
        (settings.build (Stage.scheduled schedule) provider left files).1 ∧
      (settings.build (Stage.scheduled schedule) provider left files).2.Similar (settings.ApartFromComments schedule left files)
        (settings.build (Stage.scheduled schedule) provider right files).2 := by
  have hname : right.name = left.name := (congrArg Schema.name hschemas :).symm
  have hdirectory : settings.siteDirectory right = settings.siteDirectory left :=
    (congrArg (settings.outputDirectory.getD ·.output) hschemas :).symm
  have hrefl (fs : FileSystem) : fs.Similar (settings.ApartFromComments schedule left files) fs := .refl (fun _ _ => .inl rfl) fs
  have hregistries := alike_registries hschemas
  rw [build, build, hdirectory]
  generalize hleft : Registry.build left = registered, Registry.build right = registeredOther at hregistries
  cases hregistries with
  | error error => exact ⟨rfl, hrefl files⟩
  | ok hregistry =>
    rename_i registry other
    cases settings.loadManifest files with
    | error error => exact ⟨rfl, hrefl files⟩
    | ok manifest =>
      simp only
      rcases hmade : makeOutput files (settings.siteDirectory left) with ⟨outcome, made⟩
      cases outcome with
      | error error => exact ⟨rfl, hrefl made⟩
      | ok _ =>
        have hdiffers : (settings.context left registry).DiffersInComments (settings.context right other) := by
          refine ⟨hname, ?_, rfl, hregistry⟩
          rw [context, context, siteTitle, siteTitle, hname]
        have hstart : (settings.workshop left made).Alongside settings.markdownLimit
            (files.placeOf (settings.siteDirectory left)) IsReferencePath (settings.workshop left made) :=
          ⟨⟨.refl (fun _ _ => .inl rfl) made, rfl,
            FileSystem.placeOf_of_workingDirectory (alters_of_makeOutput hmade).workingDirectory _⟩,
            Markdown.Renderer.isFaithful_new _, Markdown.Renderer.isFaithful_new _⟩
        obtain ⟨houtcome, hend⟩ := alongside_generate hdiffers hprovider manifest hstart
        have hstaged : settings.stagedPaths schedule left files =
            (Stage.runAll (settings.context left registry) (Stage.scheduled schedule)
              (settings.workshop left made)).2.disk.output.written := by
          rw [stagedPaths, hleft]
          simp only [hmade]
        rw [← hstaged] at hend
        rw [context, context, workshop, resources] at houtcome hend
        simp only
        generalize generate _ _ _ _ _ = endedOther at houtcome hend ⊢
        generalize generate _ _ _ _ _ = ended at houtcome hend ⊢
        exact ⟨congrArg (Except.map _) houtcome.eq, hend.disk.files⟩

end BuildSettings

/-! ### Sites -/

private theorem not_isReferencePath {sources : List SourcePage} {path : String} (h : path ∈ pagePaths sources) :
    ¬ IsReferencePath path := by
  have hpage : path.toList.head? = some 'p' := by
    rw [pagePaths, List.mem_append, List.mem_map, List.mem_singleton] at h
    rcases h with ⟨source, -, rfl⟩ | rfl
    · rw [SourcePage.documentPath]
      split
      · split
        · rfl
        · simp
      · simp
    · rfl
  rintro (rfl | ⟨kind, name, rfl⟩)
  · exact absurd hpage (by decide)
  · simp [documentPath] at hpage

namespace SiteRun

variable {settings : BuildSettings} {schedule : Kind → Schedule} {provider : Option Provider} {schema : Schema}
  {files final other : FileSystem} {result : BuildResult} {path : String}

private theorem eq_of_locate (run : SiteRun settings schedule provider schema files result final)
    (hpath : isOutputPath path) {place : List String} (h : final.locate (run.output.location path) = .ok place) :
    place = files.placeOf (settings.siteDirectory schema) ++ Text.pieces '/' path := by
  have hall := Disk.holdsAll_of_writeAll run.writes
  have hmade := (BuildSettings.alters_of_makeOutput run.directory).workingDirectory
  have hfinal := hall.keeps.workingDirectory
  rw [OutputDirectory.eq_place_of_locate hpath h, OutputDirectory.place_of_workingDirectory (hfinal.trans hmade),
    OutputDirectory.place_of_root hall.root, run.outputDirectory]
  rfl

private theorem read_alike (run : SiteRun settings schedule provider schema files result final)
    (hsimilar : final.Similar (settings.ApartFromComments schedule schema files) other)
    (hpath : IsSitePath schema run.ledger.sources run.manifest path) :
    ∃ content held, final.read (run.output.location path) = .ok content ∧ other.read (run.output.location path) = .ok held ∧
      settings.ApartFromComments schedule schema files (files.placeOf (settings.siteDirectory schema) ++ Text.pieces '/' path)
        content held := by
  obtain ⟨write, hwrite, rfl⟩ := List.mem_map.mp (run.once.mem_iff.mpr (mem_sitePaths_iff.mpr hpath))
  have hheld := run.isComplete.held write hwrite
  have hread := hsimilar.read (run.output.location write.1)
  rw [hheld] at hread
  generalize hother : other.read (run.output.location write.1) = outcome at hread
  cases hread with
  | ok h =>
    obtain ⟨place, hplace, hcontents⟩ := h
    obtain rfl := run.eq_of_locate ((Disk.holdsAll_of_writeAll run.writes).accepted write hwrite) hplace
    exact ⟨_, _, hheld, rfl, hcontents⟩

private theorem mem_stagedPaths (run : SiteRun settings schedule provider schema files result final) {report : Report}
    {staged : Workshop}
    (hstages : (Stage.runAll (settings.context schema run.registry) (Stage.scheduled schedule)).Yields
      (settings.workshop schema run.made) report staged)
    (hstaged : staged.disk = run.staged) (hpath : path ∈ pagePaths run.ledger.sources) :
    path ∈ settings.stagedPaths schedule schema files := by
  have hmade := run.directory
  rw [run.outputDirectory] at hmade
  have hpaths : settings.stagedPaths schedule schema files = run.staged.output.written := by
    rw [BuildSettings.stagedPaths, run.registered, ← hstaged]
    simp only [hmade]
    rw [hstages]
  rw [hpaths, (Disk.holdsAll_of_writeAll run.records.writes).written.mem_iff, Ledger.documents, List.map_append, List.map_append,
    run.records.pagePaths_eq]
  exact List.mem_append_left _ (List.mem_append_right _ hpath)

end SiteRun

namespace BuildSettings

variable {settings : BuildSettings} {provider : Option Provider} {left right : Schema} {files : FileSystem}

end BuildSettings

/-! ### A small site with comments -/

namespace Sample

/-- The small schema with comments, one of which is refused. -/
def commentedSchema : Schema where
  output := "o"
  files := [{
    name := "a"
    comment := some "# About\n"
    messages := [{
      name := "M"
      comment := some "A *message*. It has a field."
      fields := [{ name := "s", typeName := ".M.S", tag := 1, comment := some "\u0007" }]
      enums := [{ name := "S", comment := some "[M](M.json)" }] }] }]

private theorem uncommented_commentedSchema : schema.uncommented = commentedSchema.uncommented := rfl

private theorem files_listed : files.root.IsListed :=
  ⟨by decide, trivial, by decide, ⟨by decide, ⟨by decide, trivial, trivial⟩, trivial⟩, trivial⟩

end Sample

end SchemaDocs
