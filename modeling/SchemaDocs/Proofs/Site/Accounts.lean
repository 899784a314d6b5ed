import SchemaDocs.Proofs.Site.Copies
import SchemaDocs.Proofs.Site.Schedules

/-!
# What a site comes to

Where pages, manifest and resources lie outside of the output directory, a build that succeeds has an
account: the pages are those that are found once the directory is there, the stages do their duty for these
pages, and the resources are those that can be loaded in the end.
-/

namespace SchemaDocs

open FileSystem (Avoids SameOutside)

/-! ### The directory of a site -/

namespace FileSystem

variable {fs next : FileSystem} {name : String}

private theorem directory_of_locate (hname : IsSegment name) {place : List String} (h : fs.locate name = .ok place) :
    fs.root.bareAt? fs.workingDirectory = some (.directory []) := by
  have hfollow := follow_of_locate h
  rw [start, hname.isAbsolute, if_neg Bool.false_ne_true, Text.pieces_of_not_mem hname.slash_not_mem] at hfollow
  exact (follow_cons_eq_ok_iff.mp hfollow).1

private theorem directory_of_createDirectory (hname : IsSegment name) (h : fs.createDirectory name = .ok next) :
    fs.root.bareAt? fs.workingDirectory = some (.directory []) := by
  have hbare : Path.withoutTrailingSlashes name = name := by
    have hjoin := Path.withoutTrailingSlashes_join hname ""
    rwa [hname.join, if_pos rfl] at hjoin
  obtain ⟨-, place, hplace, -, -⟩ := createDirectory_eq_ok_iff.mp h
  rw [hbare, ite_self] at hplace
  exact directory_of_locate hname hplace

private theorem directory_of_isDirectory (hname : IsSegment name) (h : fs.isDirectory name = true) :
    fs.root.bareAt? fs.workingDirectory = some (.directory []) := by
  obtain ⟨place, hplace, -⟩ := isDirectory_iff.mp h
  exact directory_of_locate hname hplace

private theorem directory_of_createDirectories (hname : IsSegment name)
    (h : fs.createDirectories name = (.ok (), next)) :
    fs.root.bareAt? fs.workingDirectory = some (.directory []) := by
  rcases createAncestors_cases h with
    hempty | hmade | ⟨hdirectory, -⟩ | ⟨parent, middle, hparent, habove, hmade⟩
  · exact absurd hempty hname.ne_empty
  · exact directory_of_createDirectory hname hmade
  · exact directory_of_isDirectory hname hdirectory
  -- above a bare name there is no name, so that nothing is made there
  · obtain rfl : parent = "" := by
      have hdirectory := Path.directory_of_segment hname
      rwa [Path.directory, hparent] at hdirectory
    obtain rfl : middle = fs := by
      cases hfuel : name.length <;> rw [hfuel] at habove <;> exact (Prod.mk.inj habove).2.symm
    rcases hmade with hmade | ⟨hdirectory, -⟩
    · exact directory_of_createDirectory hname hmade
    · exact directory_of_isDirectory hname hdirectory

end FileSystem

namespace BuildSettings

variable {settings : BuildSettings} {schema : Schema} {files made : FileSystem} {context : Context} {staged : Workshop}
  {report : Report} {schedule : Kind → Schedule}

theorem makeOutput_eq_ok_iff {directory : String} :
    makeOutput files directory = (.ok (), made) ↔ files.createDirectories directory = (.ok (), made) := by
  rw [makeOutput]
  rcases files.createDirectories directory with ⟨outcome, created⟩
  cases outcome <;> simp [Except.mapError]

private theorem exists_leads (hmade : makeOutput files (settings.siteDirectory schema) = (.ok (), made))
    (hstages : (Stage.runAll context (Stage.scheduled schedule)).Yields (settings.workshop schema made) report staged) :
    ∃ top, made.Leads (settings.siteDirectory schema) top := by
  rcases FileSystem.isDirectory_of_createDirectories (makeOutput_eq_ok_iff.mp hmade) with hempty | hdirectory
  -- without a path nothing is made, but the index is written into a directory of the working directory
  · obtain ⟨_, indexed, hindex, -⟩ := Stage.yields_runAll_cons hstages
    obtain ⟨-, view, -, hwritten⟩ := Stage.writes_index hindex
    obtain ⟨middle, hmiddle, -⟩ := Disk.writeAll_cons_eq_ok_iff.mp hwritten
    rw [workshop, hempty, Disk.writeBytes] at hmiddle
    split at hmiddle
    · cases (Prod.mk.inj hmiddle).1
    · rename_i output hclaim
      obtain ⟨-, -, rfl⟩ := OutputDirectory.claim_eq_ok_iff.mp hclaim
      have hparent : Path.directory (OutputDirectory.location
          { root := "", written := insertPath "data/index.json" [] } "data/index.json") = "data" := by decide
      simp only [hparent] at hmiddle
      split at hmiddle
      · cases (Prod.mk.inj hmiddle).1
      · rename_i _ hdata
        have hworking := FileSystem.directory_of_createDirectories
          ⟨by decide, by decide, by decide, by decide⟩ hdata
        exact ⟨made.workingDirectory, hempty ▸ ⟨FileSystem.follow_slashes hworking 1, hworking⟩⟩
  · exact FileSystem.exists_leads_of_isDirectory hdirectory

end BuildSettings

/-! ### Stages -/

section

variable {limit : Nat} {α : Type} {step : Build α} {value given : α} {texts : List String} {journal : List Write}
  {context : Context} {sources : List SourcePage} {start final : Workshop} {top : List String}

theorem Build.Performs.of_yields (h : step.Performs limit value texts journal)
    (hrenderer : start.renderer.IsFaithful limit) (hyields : step.Yields start given final) :
    given = value ∧ start.disk.writeAll journal = .ok final.disk ∧ final.renderer = start.renderer.asked texts := by
  cases hwritten : start.disk.writeAll journal with
  | ok disk =>
    obtain ⟨hgiven, rfl⟩ := Prod.mk.inj (hyields.symm.trans (h.yields hrenderer hwritten))
    exact ⟨Except.ok.inj hgiven, rfl, rfl⟩
  | error cause =>
    obtain ⟨_, ended, hfails⟩ := h.fails hrenderer hwritten
    cases (Prod.mk.inj (hyields.symm.trans hfails)).1

namespace Stage

/-- Where the pages are the same whenever they are looked for, they can be taken as found. -/
theorem runAll_pages_eq (before after : List Stage)
    (hfound : ∀ report middle, (runAll context before).Yields start report middle →
      context.foundPages middle.disk.files = sources) :
    runAll context (before ++ pages :: after) start = runAll context (before ++ pagesOn sources :: after) start := by
  rw [runAll, runAll, List.foldlM_append, List.foldlM_append, Build.run_bind, Build.run_bind]
  rcases hbefore : runAll context before start with ⟨outcome, middle⟩
  rw [runAll] at hbefore
  rw [hbefore]
  cases outcome with
  | error error => rfl
  | ok report =>
    have hpages : pages.run context middle = (pagesOn sources).run context middle := by
      rw [run_pages, hfound report middle hbefore]
    simp only [List.foldlM_cons, Build.run_bind, hpages]

theorem runAll_standard_eq
    (hfound : ∀ report middle, (runAll context reference).Yields start report middle →
      context.foundPages middle.disk.files = sources) :
    runAll context standard start = runAll context (standardOn sources) start := runAll_pages_eq reference [] hfound

theorem exists_tree_of_yields_run (h : ((pagesOn sources).run context).Yields start report final) :
    ∃ tree, PageTree.merge context.title sources context.registry = .ok tree := by
  cases hmerge : PageTree.merge context.title sources context.registry with
  | ok tree => exact ⟨tree, rfl⟩
  | error collision =>
    simp only [pagesOn, hmerge] at h
    exact absurd h Build.not_yields_throw

theorem exists_tree_of_yields_pagesOn (before after : List Stage)
    (h : (runAll context (before ++ pagesOn sources :: after)).Yields start report final) :
    ∃ tree, PageTree.merge context.title sources context.registry = .ok tree := by
  rw [runAll, List.foldlM_append] at h
  obtain ⟨_, middle, -, h⟩ := Build.yields_bind_iff.mp h
  rw [List.foldlM_cons] at h
  obtain ⟨_, _, hpages, -⟩ := Build.yields_bind_iff.mp h
  obtain ⟨_, _, hpages, -⟩ := Build.yields_bind_iff.mp hpages
  exact exists_tree_of_yields_run hpages

theorem exists_tree_of_yields (h : (runAll context (standardOn sources)).Yields start report final) :
    ∃ tree, PageTree.merge context.title sources context.registry = .ok tree := exists_tree_of_yields_pagesOn reference [] h

end Stage

theorem Context.foundPages_eq {fs other : FileSystem} (hsame : fs.SameOutside other top)
    (hfs : fs.root.bareAt? top = some (.directory [])) (hother : other.root.bareAt? top = some (.directory []))
    (hpages : ∀ path, context.pagesDirectory = some path → fs.Avoids path top) :
    context.foundPages other = context.foundPages fs := by
  rw [foundPages, foundPages]
  cases hdirectory : context.pagesDirectory with
  | none => rfl
  | some path => exact hsame.discover_eq hfs hother (hpages path hdirectory)

private theorem Stage.foundPages_of_reference (hleads : start.disk.files.Leads start.disk.output.root top)
    (hpages : ∀ path, context.pagesDirectory = some path → start.disk.files.Avoids path top)
    (hreference : (runAll context reference).Yields start report final) :
    context.foundPages final.disk.files = context.foundPages start.disk.files := by
  obtain ⟨journal, -, hjournal⟩ := follows_reference.completes hreference
  obtain ⟨hfinal, houtside⟩ := Disk.sameOutside_of_writeAll hleads hjournal
  exact Context.foundPages_eq houtside hleads.directory hfinal.directory hpages

theorem Stage.runAll_standard_of_avoids (hleads : start.disk.files.Leads start.disk.output.root top)
    (hpages : ∀ path, context.pagesDirectory = some path → start.disk.files.Avoids path top) :
    runAll context standard start = runAll context (standardOn (context.foundPages start.disk.files)) start :=
  runAll_standard_eq fun _ _ => foundPages_of_reference hleads hpages

end

/-! ### Builds -/

namespace BuildSettings

/-- The pages, the manifest and the resources of a site lie outside of its output directory. -/
structure InputsOutside (settings : BuildSettings) (provider : Option Provider) (schema : Schema) (files : FileSystem) :
    Prop where
  pages : ∀ path, settings.pagesDirectory = some path →
    files.Avoids path (files.placeOf (settings.siteDirectory schema))
  manifest : ∀ path, settings.manifest = some path →
    ¬ files.placeOf (settings.siteDirectory schema) <+: files.placeOf path
  resources : ∀ manifest, settings.loadManifest files = .ok manifest → ∀ pair ∈ manifest.pairs,
    (settings.resources provider).LoadsOutside files (files.placeOf (settings.siteDirectory schema)) pair.1

variable {settings : BuildSettings} {provider : Option Provider} {schema : Schema} {files made other final : FileSystem}
  {result : BuildResult} {top : List String} {manifest found : Manifest}

private theorem loadManifest_eq_ok_iff :
    settings.loadManifest files = .ok manifest ↔
      (settings.manifest = none ∧ manifest = .builtIn) ∨
        ∃ path content text, settings.manifest = some path ∧ files.read path = .ok content ∧
          String.fromUTF8? content = some text ∧ Manifest.parse text = .ok manifest := by
  rw [loadManifest]
  cases settings.manifest with
  | none => simp [eq_comm]
  | some path =>
    cases hread : files.read path with
    | error error => simp [FileSystem.readText, hread, bind, Except.bind]
    | ok content =>
      cases htext : String.fromUTF8? content with
      | none => simp [FileSystem.readText, hread, htext, bind, Except.bind]
      | some text => simp [FileSystem.readText, hread, htext, bind, Except.bind]

/-- A manifest that lies outside of a directory is read again as long as files change in there only. -/
theorem loadManifest_of_keeps {changed : List (List String)} (hkeeps : files.Keeps other changed)
    (hchanged : ∀ place ∈ changed, top <+: place)
    (hmanifest : ∀ path, settings.manifest = some path → ¬ top <+: files.placeOf path)
    (h : settings.loadManifest files = .ok manifest) : settings.loadManifest other = .ok manifest := by
  rw [loadManifest_eq_ok_iff] at h ⊢
  refine h.imp_right fun ⟨path, content, text, hpath, hread, htext⟩ => ⟨path, content, text, hpath, ?_, htext⟩
  refine hkeeps.read hread fun place hplace hmem => hmanifest path hpath ?_
  exact FileSystem.eq_placeOf_of_locate hplace ▸ hchanged place hmem

/-- A manifest that lies outside of a directory is the same whatever the directory holds. -/
theorem eq_of_loadManifest (hsame : files.SameOutside other top)
    (hfiles : files.root.bareAt? top = some (.directory []))
    (hother : other.root.bareAt? top = some (.directory []))
    (hmanifest : ∀ path, settings.manifest = some path → ¬ top <+: files.placeOf path)
    (h : settings.loadManifest files = .ok manifest) (hagain : settings.loadManifest other = .ok found) :
    found = manifest := by
  rcases loadManifest_eq_ok_iff.mp h with ⟨hnone, rfl⟩ | ⟨path, content, text, hpath, hread, htext, hparse⟩
  · rcases loadManifest_eq_ok_iff.mp hagain with ⟨-, rfl⟩ | ⟨path, -, -, hpath, -⟩
    · rfl
    · rw [hnone] at hpath
      cases hpath
  · rcases loadManifest_eq_ok_iff.mp hagain with ⟨hnone, -⟩ | ⟨again, held, read, hagain, hreadAgain, hheld, hparseAgain⟩
    · rw [hnone] at hpath
      cases hpath
    · obtain rfl := Option.some.inj (hpath.symm.trans hagain)
      obtain rfl := hsame.eq_of_read hfiles hother (hmanifest path hpath) hread hreadAgain
      obtain rfl := Option.some.inj (htext.symm.trans hheld)
      exact Except.ok.inj (hparseAgain.symm.trans hparse)

/-- The duty of the stages, with the pages that are found once the output directory is there. -/
def duty (settings : BuildSettings) (schema : Schema) (registry : Registry) (made : FileSystem) (tree : PageTree) : Duty :=
  (settings.context schema registry).duty settings.markdownLimit ((settings.context schema registry).foundPages made) tree

/-- What a site comes to that is built with inputs from outside of its output directory. -/
structure Account (settings : BuildSettings) (provider : Option Provider) (schema : Schema) (files : FileSystem)
    (result : BuildResult) (final : FileSystem) where
  registry : Registry
  manifest : Manifest
  /-- The files once the output directory is there. -/
  made : FileSystem
  tree : PageTree
  /-- The resources with what is written of them. -/
  copies : List Write
  output : OutputDirectory
  registered : Registry.build schema = .ok registry
  loaded : settings.loadManifest files = .ok manifest
  directory : makeOutput files (settings.siteDirectory schema) = (.ok (), made)
  leads : made.Leads (settings.siteDirectory schema) (files.placeOf (settings.siteDirectory schema))
  merged : PageTree.merge (settings.siteTitle schema) ((settings.context schema registry).foundPages made) registry = .ok tree
  copied : List.Forall₂ (IsCopy (settings.resources provider) final) manifest.pairs copies
  written : Disk.writeAll ((settings.duty schema registry made tree).journal ++ copies)
    ⟨made, { root := settings.siteDirectory schema }⟩ = .ok ⟨final, output⟩
  result : result = ⟨(settings.duty schema registry made tree).report, manifest.size, settings.siteDirectory schema⟩

theorem alters_of_makeOutput {directory : String} {outcome : Except BuildError Unit}
    (h : makeOutput files directory = (outcome, made)) : files.Alters made [] := by
  rw [makeOutput] at h
  rw [← (Prod.mk.inj h).2]
  exact FileSystem.alters_of_createDirectories directory files

theorem InputsOutside.pages_made (hinputs : settings.InputsOutside provider schema files)
    (hworking : made.workingDirectory = files.workingDirectory) (path : String) (hpath : settings.pagesDirectory = some path) :
    made.Avoids path (files.placeOf (settings.siteDirectory schema)) := by
  obtain ⟨hway, hapart⟩ := hinputs.pages path hpath
  refine ⟨?_, ?_⟩
  · rw [FileSystem.start, hworking]
    exact hway
  · rw [FileSystem.placeOf_of_workingDirectory hworking]
    exact hapart

/-- The output directory of a build that succeeds is where its path leads. -/
theorem exists_leads_of_build {schedule : Kind → Schedule}
    (h : settings.build (Stage.scheduled schedule) provider schema files = (.ok result, final)) :
    ∃ made manifest, makeOutput files (settings.siteDirectory schema) = (.ok (), made) ∧
      settings.loadManifest files = .ok manifest ∧
      made.Leads (settings.siteDirectory schema) (files.placeOf (settings.siteDirectory schema)) := by
  obtain ⟨registry, manifest, made, ended, -, hmanifest, hmade, hgenerate, -, -⟩ := build_eq_ok_iff.mp h
  obtain ⟨report, staged, hstages, -⟩ := Build.yields_bind_iff.mp hgenerate
  obtain ⟨top, hleads⟩ := exists_leads hmade hstages
  obtain rfl : top = files.placeOf (settings.siteDirectory schema) := by
    rw [FileSystem.eq_walk_of_follow hleads.follows, FileSystem.placeOf, FileSystem.start, FileSystem.start,
      (alters_of_makeOutput hmade).workingDirectory]
  exact ⟨made, manifest, hmade, hmanifest, hleads⟩

theorem nonempty_account (hinputs : settings.InputsOutside provider schema files)
    (h : settings.build Stage.standard provider schema files = (.ok result, final)) :
    Nonempty (settings.Account provider schema files result final) := by
  obtain ⟨registry, manifest, made, ended, hregistry, hmanifest, hmade, hgenerate, hdirectory, rfl⟩ := build_eq_ok_iff.mp h
  obtain ⟨report, staged, hstages, hgenerate⟩ := Build.yields_bind_iff.mp hgenerate
  obtain ⟨assets, copied, hcopies, hgenerate⟩ := Build.yields_bind_iff.mp hgenerate
  obtain ⟨hresult, rfl⟩ := Build.yields_pure_iff.mp hgenerate
  obtain ⟨_, copied, hcopies, hassets⟩ := Build.yields_bind_iff.mp hcopies
  obtain ⟨rfl, rfl⟩ := Build.yields_pure_iff.mp hassets
  have hworking := (alters_of_makeOutput hmade).workingDirectory
  have hleads : made.Leads (settings.siteDirectory schema) (files.placeOf (settings.siteDirectory schema)) := by
    obtain ⟨again, _, hagain, -, hleads⟩ := exists_leads_of_build h
    obtain rfl := (Prod.mk.inj (hmade.symm.trans hagain)).2
    exact hleads
  have hstart : (settings.workshop schema made).disk.files.Leads (settings.workshop schema made).disk.output.root
      (files.placeOf (settings.siteDirectory schema)) := hleads
  rw [Build.Yields, Stage.runAll_standard_of_avoids hstart (hinputs.pages_made hworking)] at hstages
  obtain ⟨tree, htree⟩ := Stage.exists_tree_of_yields hstages
  obtain ⟨hreport, hwritten, -⟩ := (Stage.fulfils_standardOn htree).of_yields
    (Markdown.Renderer.isFaithful_new settings.markdownLimit) hstages
  obtain ⟨hstaged, houtside⟩ := Disk.sameOutside_of_writeAll hleads hwritten
  obtain ⟨copies, hcopies, hcopied⟩ := exists_copies_of_yields hstaged (fun pair hpair =>
    (hinputs.resources manifest hmanifest pair hpair).of_workingDirectory (houtside.workingDirectory.trans hworking)) hcopies
  exact ⟨{
    registry, manifest, made, tree, copies, output := ended.disk.output, registered := hregistry, loaded := hmanifest
    directory := hmade, leads := hleads, merged := htree, copied := hcopies
    written := Disk.writeAll_append_eq_ok_iff.mpr ⟨_, hwritten, hcopied⟩
    result := by
      obtain ⟨hreported, hassets⟩ := Prod.mk.inj hresult
      show BuildResult.mk result.report result.assets result.outputDirectory = _
      rw [hreported, hreport, hassets, hdirectory]
      rfl }⟩

end BuildSettings

end SchemaDocs
