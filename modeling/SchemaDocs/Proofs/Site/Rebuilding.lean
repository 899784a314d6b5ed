import SchemaDocs.Proofs.Site.Accounts

/-!
# Building a site again

What a site writes depends on its schema, its settings and what lies outside of its output directory, and
on nothing that lies in there. So the same site is built whatever the directory held before, and a site
that is built into its own output leaves every file as it was.
-/

namespace SchemaDocs

open FileSystem (SameOutside)

namespace BuildSettings

variable {settings : BuildSettings} {provider : Option Provider} {schema : Schema} {files final : FileSystem}
  {result : BuildResult} {manifest found : Manifest}

/-- The files that a build has written, and what it has left alone. -/
structure Generates (settings : BuildSettings) (schema : Schema) (files final : FileSystem) (journal : List Write) : Prop where
  /-- These are the documents of the schema and of its pages, and the resources of the manifest. -/
  paths : ∃ registry manifest, Registry.build schema = .ok registry ∧ settings.loadManifest files = .ok manifest ∧
    (journal.map Prod.fst).Perm (sitePaths schema ((settings.context schema registry).foundPages final) manifest)
  read : ∀ write ∈ journal,
    final.read (OutputDirectory.location { root := settings.siteDirectory schema } write.1) = .ok write.2
  /-- All other files are as they were. -/
  alters : files.Alters final
    (journal.map fun write => OutputDirectory.place { root := settings.siteDirectory schema } files write.1)

private theorem paths_of_duty {limit : Nat} {context : Context} {sources : List SourcePage} {tree : PageTree} :
    ((context.duty limit sources tree).journal.map Prod.fst).Perm
      ("data/index.json" :: (context.registry.entries.map Entry.path ++
        (sources.map SourcePage.documentPath ++ ["pages/_tree.json"]))) := by
  refine (Context.duty_alike.journal.map _).trans (.of_eq ?_)
  rw [Task.paths_total, Task.all]
  simp only [List.map_cons, List.map_append, List.map_map, List.map_nil]
  rfl

def Account.journal (account : settings.Account provider schema files result final) : List Write :=
  (settings.duty schema account.registry account.made account.tree).journal ++ account.copies

section

variable (account : settings.Account provider schema files result final)
include account

private theorem Account.stays :
    final.Leads (settings.siteDirectory schema) (files.placeOf (settings.siteDirectory schema)) ∧
      account.made.SameOutside final (files.placeOf (settings.siteDirectory schema)) := by
  obtain ⟨hfinal, houtside⟩ := Disk.sameOutside_of_writeAll account.leads account.written
  have hroot : account.output.root = settings.siteDirectory schema := (Disk.holdsAll_of_writeAll account.written).root
  rw [hroot] at hfinal
  exact ⟨hfinal, houtside⟩

private theorem Account.foundPages_final (hinputs : settings.InputsOutside provider schema files) :
    (settings.context schema account.registry).foundPages final =
      (settings.context schema account.registry).foundPages account.made :=
  Context.foundPages_eq account.stays.2 account.leads.directory account.stays.1.directory
    (hinputs.pages_made (alters_of_makeOutput account.directory).workingDirectory)

private theorem Account.alters :
    files.Alters final
      (account.journal.map fun write => OutputDirectory.place { root := settings.siteDirectory schema } files write.1) := by
  have hmade := alters_of_makeOutput account.directory
  have hwritten := Disk.alters_of_writeAll account.written
  simp only [OutputDirectory.place_of_workingDirectory hmade.workingDirectory] at hwritten
  exact hmade.trans hwritten

private theorem Account.generates (hinputs : settings.InputsOutside provider schema files) :
    settings.Generates schema files final account.journal where
  paths := by
    refine ⟨account.registry, account.manifest, account.registered, account.loaded, ?_⟩
    have hpaths := map_eq_map_of_forall₂ (fun _ _ h => h.path.symm) account.copied
    have hentries : account.registry.entries = schema.entries := Registry.entries_of_build account.registered
    rw [journal, List.map_append, ← hpaths, account.foundPages_final hinputs]
    refine (paths_of_duty.append_right _).trans (.of_eq ?_)
    rw [sitePaths, ← hentries]
    simp [context]
  read write hwrite := by
    have hall := Disk.holdsAll_of_writeAll account.written
    exact hall.read write hwrite
  alters := account.alters

private theorem Account.leads_final :
    (settings.workshop schema final).disk.files.Leads (settings.workshop schema final).disk.output.root
      (files.placeOf (settings.siteDirectory schema)) := account.stays.1

private theorem Account.yields_stages_again (hinputs : settings.InputsOutside provider schema files) {staged : Disk}
    (hstaged : (settings.workshop schema final).disk.writeAll
      (settings.duty schema account.registry account.made account.tree).journal = .ok staged) :
    ∃ renderer, (Stage.runAll (settings.context schema account.registry) Stage.standard).Yields
      (settings.workshop schema final) (settings.duty schema account.registry account.made account.tree).report
      ⟨staged, renderer⟩ := by
  have hstandard : Stage.runAll (settings.context schema account.registry) Stage.standard (settings.workshop schema final) =
      Stage.runAll (settings.context schema account.registry)
        (Stage.standardOn ((settings.context schema account.registry).foundPages account.made)) (settings.workshop schema final) := by
    rw [Stage.runAll_standard_of_avoids account.leads_final (hinputs.pages_made account.alters.workingDirectory),
      ← account.foundPages_final hinputs]
    rfl
  have hfulfils : (Stage.runAll _ (Stage.standardOn _)).Fulfils settings.markdownLimit
      (settings.duty schema account.registry account.made account.tree) := Stage.fulfils_standardOn account.merged
  exact ⟨_, hstandard.trans (hfulfils.yields (Markdown.Renderer.isFaithful_new settings.markdownLimit) hstaged)⟩

private theorem Account.yields_copies_again (hinputs : settings.InputsOutside provider schema files)
    {staged again : Disk} (renderer : Markdown.Renderer) (hstaged : (settings.workshop schema final).disk.writeAll
      (settings.duty schema account.registry account.made account.tree).journal = .ok staged)
    (hcopied : staged.writeAll account.copies = .ok again) :
    (account.manifest.pairs.forM (copyResource (settings.resources provider))).Yields ⟨staged, renderer⟩ ()
      ⟨again, renderer⟩ := by
  obtain ⟨hleads, houtside⟩ := Disk.sameOutside_of_writeAll account.leads_final hstaged
  have hloads (pair : String × String) (hpair : pair ∈ account.manifest.pairs) :=
    (hinputs.resources account.manifest account.loaded pair hpair).of_workingDirectory account.alters.workingDirectory
  exact yields_of_copies hleads
    (fun pair hpair => (hloads pair hpair).of_workingDirectory houtside.workingDirectory)
    (copies_of_later hloads houtside account.leads_final.directory hleads.directory
      (Disk.alters_of_writeAll hstaged).directory account.copied) hcopied

/-- A site is built again from what has been left, and nothing changes. -/
theorem Account.exists_build (hinputs : settings.InputsOutside provider schema files) :
    ∃ again, settings.build Stage.standard provider schema final = (.ok result, again) ∧
      ∀ place, again.root.bareAt? place = final.root.bareAt? place := by
  obtain ⟨again, hagain, hsame⟩ := Disk.exists_writeAll_again account.leads account.written
    (rfl : (Disk.mk final { root := settings.siteDirectory schema }).files = final) rfl
  obtain ⟨staged, hstaged, hcopied⟩ := Disk.writeAll_append_eq_ok_iff.mp hagain
  have hmanifest : settings.loadManifest final = .ok account.manifest := by
    refine loadManifest_of_keeps account.alters.toKeeps (fun place hplace => ?_) hinputs.manifest account.loaded
    obtain ⟨write, -, rfl⟩ := List.mem_map.mp hplace
    exact List.prefix_append _ _
  have hmade : makeOutput final (settings.siteDirectory schema) = (.ok (), final) :=
    makeOutput_eq_ok_iff.mpr (FileSystem.createDirectories_again (makeOutput_eq_ok_iff.mp account.directory)
      (Disk.alters_of_writeAll account.written).toKeeps)
  obtain ⟨renderer, hstages⟩ := account.yields_stages_again hinputs hstaged
  have hcopying := account.yields_copies_again hinputs renderer hstaged hcopied
  have hreport := congrArg BuildResult.report account.result
  have hassets := congrArg BuildResult.assets account.result
  refine ⟨again.files, build_eq_ok_iff.mpr ⟨account.registry, account.manifest, final, ⟨again, renderer⟩,
    account.registered, hmanifest, hmade, ?_, congrArg BuildResult.outputDirectory account.result, rfl⟩, hsame⟩
  rw [hreport, hassets]
  exact Build.yields_bind_iff.mpr ⟨_, _, hstages, Build.yields_bind_iff.mpr ⟨account.manifest.size, _,
    Build.yields_bind_iff.mpr ⟨(), _, hcopying, rfl⟩, rfl⟩⟩

end

/-- Two file systems differ in nothing but what is in the output directory, once it is there. -/
def DiffersInOutput (settings : BuildSettings) (schema : Schema) (files others : FileSystem) : Prop :=
  (makeOutput files (settings.siteDirectory schema)).2.SameOutside (makeOutput others (settings.siteDirectory schema)).2
    (files.placeOf (settings.siteDirectory schema))

section

variable {others : FileSystem} (hdiffers : settings.DiffersInOutput schema files others)
include hdiffers

private theorem DiffersInOutput.workingDirectory : others.workingDirectory = files.workingDirectory :=
  calc others.workingDirectory
    _ = (makeOutput others (settings.siteDirectory schema)).2.workingDirectory :=
      (alters_of_makeOutput (rfl : makeOutput others _ = (_, _))).workingDirectory.symm
    _ = (makeOutput files (settings.siteDirectory schema)).2.workingDirectory := SameOutside.workingDirectory hdiffers
    _ = files.workingDirectory := (alters_of_makeOutput (rfl : makeOutput files _ = (_, _))).workingDirectory

private theorem InputsOutside.of_differs (hinputs : settings.InputsOutside provider schema files)
    (hfiles : (makeOutput files (settings.siteDirectory schema)).2.root.bareAt?
      (files.placeOf (settings.siteDirectory schema)) = some (.directory []))
    (hothers : (makeOutput others (settings.siteDirectory schema)).2.root.bareAt?
      (files.placeOf (settings.siteDirectory schema)) = some (.directory []))
    (hloaded : settings.loadManifest files = .ok manifest) (hloadedAgain : settings.loadManifest others = .ok found) :
    settings.InputsOutside provider schema others ∧ found = manifest := by
  have hworking := DiffersInOutput.workingDirectory hdiffers
  have hplace := FileSystem.placeOf_of_workingDirectory hworking
  have hmade := alters_of_makeOutput (rfl : makeOutput files (settings.siteDirectory schema) = (_, _))
  have hmadeAgain := alters_of_makeOutput (rfl : makeOutput others (settings.siteDirectory schema) = (_, _))
  have houtside (made : FileSystem) (hsame : made.workingDirectory = files.workingDirectory) (path : String)
      (hpath : settings.manifest = some path) : ¬ files.placeOf (settings.siteDirectory schema) <+: made.placeOf path := by
    rw [FileSystem.placeOf_of_workingDirectory hsame]
    exact hinputs.manifest path hpath
  obtain rfl : found = manifest := by
    refine eq_of_loadManifest hdiffers hfiles hothers (houtside _ hmade.workingDirectory)
      (loadManifest_of_keeps hmade.toKeeps (List.forall_mem_nil _) hinputs.manifest hloaded)
      (loadManifest_of_keeps hmadeAgain.toKeeps (List.forall_mem_nil _) (houtside _ hworking) hloadedAgain)
  refine ⟨⟨?_, ?_, ?_⟩, rfl⟩
  · rw [hplace]
    exact hinputs.pages_made hworking
  · rw [hplace]
    exact houtside others hworking
  · intro manifest hmanifest pair hpair
    obtain rfl := Except.ok.inj (hloadedAgain.symm.trans hmanifest)
    rw [hplace]
    exact (hinputs.resources _ hloaded pair hpair).of_workingDirectory hworking

/-- What is written does not depend on what was in the output directory. -/
theorem Account.agrees {reached : BuildResult} {ended : FileSystem}
    (hinputs : settings.InputsOutside provider schema files)
    (account : settings.Account provider schema files result final)
    (again : settings.Account provider schema others reached ended) (hmanifest : again.manifest = account.manifest) :
    reached = result ∧ again.journal = account.journal := by
  have hworking := DiffersInOutput.workingDirectory hdiffers
  have htop := FileSystem.placeOf_of_workingDirectory hworking (settings.siteDirectory schema)
  have houtside := account.stays.2
  have houtsideAgain := again.stays.2
  have hleadsAgain := again.leads.directory
  have hstaysAgain := again.stays.1.directory
  rw [htop] at houtsideAgain hleadsAgain hstaysAgain
  have hmade : account.made.SameOutside again.made (files.placeOf (settings.siteDirectory schema)) := by
    rw [DiffersInOutput, account.directory, again.directory] at hdiffers
    exact hdiffers
  have hregistry : again.registry = account.registry := Except.ok.inj (again.registered.symm.trans account.registered)
  have hfound : (settings.context schema again.registry).foundPages again.made =
      (settings.context schema account.registry).foundPages account.made := by
    rw [hregistry]
    exact Context.foundPages_eq hmade account.leads.directory hleadsAgain
      (hinputs.pages_made (alters_of_makeOutput account.directory).workingDirectory)
  have htree : again.tree = account.tree := by
    have hmerged := again.merged
    rw [hfound, hregistry] at hmerged
    exact Except.ok.inj (hmerged.symm.trans account.merged)
  have hduty : settings.duty schema again.registry again.made again.tree =
      settings.duty schema account.registry account.made account.tree := by
    rw [duty, duty, hfound, hregistry, htree]
  have hcopies : again.copies = account.copies := by
    have hcopied := again.copied
    rw [hmanifest] at hcopied
    refine eq_of_copies (fun pair hpair => ?_) ((houtside.symm.trans hmade).trans houtsideAgain)
      account.stays.1.directory hstaysAgain account.copied hcopied
    exact (hinputs.resources _ account.loaded pair hpair).of_workingDirectory account.alters.workingDirectory
  refine ⟨?_, ?_⟩
  · rw [again.result, account.result, hduty, hmanifest]
  · rw [journal, journal, hduty, hcopies]

end

/-- A build of a site changes nothing when it is repeated, and what it writes does not depend on what the
output directory held before. -/
theorem build_idempotent (hinputs : settings.InputsOutside provider schema files)
    (h : settings.build Stage.standard provider schema files = (.ok result, final)) :
    (∃ again, settings.build Stage.standard provider schema final = (.ok result, again) ∧
      ∀ place, again.root.bareAt? place = final.root.bareAt? place) ∧
    ∀ others reached ended, settings.build Stage.standard provider schema others = (.ok reached, ended) →
      settings.DiffersInOutput schema files others → reached = result ∧
        ∃ journal, settings.Generates schema files final journal ∧ settings.Generates schema others ended journal := by
  obtain ⟨account⟩ := nonempty_account hinputs h
  refine ⟨account.exists_build hinputs, fun others reached ended hothers hdiffers => ?_⟩
  obtain ⟨made, found, hmade, hloaded, hleads⟩ := exists_leads_of_build hothers
  have htop := FileSystem.placeOf_of_workingDirectory (DiffersInOutput.workingDirectory hdiffers) (settings.siteDirectory schema)
  obtain ⟨hinputsAgain, rfl⟩ := hinputs.of_differs hdiffers (by rw [account.directory]; exact account.leads.directory)
    (by rw [hmade, ← htop]; exact hleads.directory) account.loaded hloaded
  obtain ⟨again⟩ := nonempty_account hinputsAgain hothers
  have hmanifest : again.manifest = account.manifest := Except.ok.inj (again.loaded.symm.trans hloaded)
  obtain ⟨hresult, hjournal⟩ := account.agrees hdiffers hinputs again hmanifest
  exact ⟨hresult, account.journal, account.generates hinputs, hjournal ▸ again.generates hinputsAgain⟩

end BuildSettings

/-! ### A small site, built over an older one -/

namespace Sample

/-- The output directory of the small site, with an older index and a file of another origin. -/
def litteredFiles : FileSystem where
  root := .directory [
    ("m", .file "[[bundle]]\nname=\"\"\nfiles=[\"x\"]".toUTF8),
    ("o", .directory [("data", .directory [("index.json", .file "old".toUTF8)]), ("notes", .file "mine".toUTF8)]),
    ("p", .directory [("a", .directory [("index.md", .file "# A".toUTF8)])])]

private theorem inputsOutside : settings.InputsOutside provider schema files where
  pages path hpath := by
    obtain rfl := Option.some.inj hpath
    refine ⟨fun front rest hfront hway => ?_, by decide⟩
    obtain ⟨back, hback⟩ : front <+: ["p"] := hfront
    cases front with
    | nil => cases hway
    | cons name front =>
      obtain ⟨rfl, hrest⟩ := List.cons.inj hback
      obtain rfl := (List.append_eq_nil_iff.mp hrest).1
      exact absurd (List.cons.inj hway).1 (by decide)
  manifest path hpath := by
    obtain rfl := Option.some.inj hpath
    decide
  resources _ _ _ _ := trivial

private theorem differs : settings.DiffersInOutput schema files litteredFiles where
  workingDirectory := rfl
  get place hbelow habove := by
    cases place with
    | nil => exact absurd List.nil_prefix habove
    | cons name place =>
      have hname : name ≠ "o" := by
        rintro rfl
        exact hbelow ⟨place, rfl⟩
      have hmade : (BuildSettings.makeOutput files "o").2.root = .directory [
          ("m", .file "[[bundle]]\nname=\"\"\nfiles=[\"x\"]".toUTF8),
          ("o", .directory []),
          ("p", .directory [("a", .directory [("index.md", .file "# A".toUTF8)])])] := rfl
      have hkept : (BuildSettings.makeOutput litteredFiles "o").2.root = litteredFiles.root := rfl
      show (BuildSettings.makeOutput litteredFiles "o").2.root.get? _ = (BuildSettings.makeOutput files "o").2.root.get? _
      rw [hmade, hkept]
      simp only [litteredFiles, Tree.get?, Tree.lookup_cons, if_neg hname]

private theorem builds_littered : (settings.build Stage.standard provider schema litteredFiles).1.toOption.isSome := by
  decide +kernel

end Sample

theorem BuildSettings.build_idempotent_littered :
    ∃ result final, Sample.settings.build Stage.standard Sample.provider Sample.schema Sample.files = (.ok result, final) ∧
      (∃ again, Sample.settings.build Stage.standard Sample.provider Sample.schema final = (.ok result, again) ∧
        ∀ place, again.root.bareAt? place = final.root.bareAt? place) ∧
      ∃ ended journal,
        Sample.settings.build Stage.standard Sample.provider Sample.schema Sample.litteredFiles = (.ok result, ended) ∧
        Sample.settings.Generates Sample.schema Sample.files final journal ∧
        Sample.settings.Generates Sample.schema Sample.litteredFiles ended journal := by
  obtain ⟨result, final, h⟩ := Sample.exists_build
  obtain ⟨reached, ended, hlittered⟩ := Sample.exists_of_isSome Sample.builds_littered
  obtain ⟨hagain, hothers⟩ := BuildSettings.build_idempotent Sample.inputsOutside h
  obtain ⟨rfl, journal, hfirst, hsecond⟩ := hothers _ reached ended hlittered Sample.differs
  exact ⟨reached, final, h, hagain, ended, journal, hlittered, hfirst, hsecond⟩

end SchemaDocs
