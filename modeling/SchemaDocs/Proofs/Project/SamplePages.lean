import SchemaDocs.Project.Config
import SchemaDocs.Proofs.Project.Scaffolding

/-!
# Where the sample pages are

A configuration that is scaffolded says what holds without one, so that a build looks for pages where the samples
have been written. A configuration that was there before is kept, and what it says about the pages is not asked: the
samples are where a build looks exactly if its directory is the one of the built-in configuration.
-/

namespace SchemaDocs

open FileSystem

namespace Config

variable {files : FileSystem} {path text : String} {config : Config}

theorem base_of_load (h : load files path = .ok config) : config.base = Path.directory path := by
  rw [load] at h
  split at h
  · exact (Except.ok.inj h) ▸ rfl
  · split at h
    · cases h
    · split at h
      · cases h
      · exact (Except.ok.inj h) ▸ rfl

private theorem exists_read_of_load (h : load files path = .ok config) (hthere : files.contains path = true) :
    ∃ content, files.read path = .ok content := by
  cases hread : files.read path with
  | ok content => exact ⟨content, rfl⟩
  | error error =>
    simp [load, hthere, readText, hread, bind, Except.bind] at h

private theorem load_of_read (hread : files.read path = .ok text.toUTF8) (hparse : parse? text = some config) :
    load files path = .ok { config with base := Path.directory path } := by
  have htext : files.readText path = .ok text := by
    have hvalid : String.fromUTF8? text.toUTF8 = some text := by
      rw [String.toUTF8_eq_toByteArray, String.fromUTF8?, dif_pos text.isValidUTF8]
      rfl
    simp only [readText, hread, bind, Except.bind, hvalid]
  simp [load, contains_of_read hread, htext, hparse]

end Config

namespace Scaffold

variable {fs next : FileSystem} {config : String} {overwrite : Bool} {count : Nat} {settings : Config} {pages : String}

/-! ### The built-in configuration -/

private theorem toList_textOfLines (lines : List String) :
    (textOfLines lines).toList = lines.flatMap fun line => line.toList ++ ['\n'] := by
  rw [textOfLines]
  induction lines with
  | nil => rfl
  | cons line lines ih => simp [String.join_cons, ih]

private theorem parse_configText : Config.parse? configText = some {} := by
  rw [Config.parse?, Toml.parse?, configText, toList_textOfLines]
  decide +kernel

private theorem load_of_scaffolded (hload : Config.load next config = .ok settings)
    (hread : next.read config = .ok configText.toUTF8) : settings = { base := Path.directory config } := by
  rw [Config.load_of_read hread parse_configText] at hload
  exact (Except.ok.inj hload).symm

/-! ### The configured directory -/

private theorem steps_samplePages :
    samplePages.map (fun page => Path.steps page.1) = [["index.md"], ["guide", "index.md"], ["guide", "getting-started.md"]] := by
  decide +kernel

private theorem eq_of_places {base top : List String} (name : String)
    (hplaces : ∀ steps ∈ samplePages.map (fun page => Path.steps page.1), base ++ steps = top ++ [name] ∨
      ∃ others ∈ samplePages.map (fun page => Path.steps page.1), base ++ steps = top ++ "pages" :: others) :
    base = top ++ ["pages"] := by
  simp only [steps_samplePages, List.mem_cons, List.not_mem_nil, or_false, exists_eq_or_imp, exists_eq_left] at hplaces
  have hindex := hplaces ["index.md"] (.inl rfl)
  have hstarted := hplaces ["guide", "getting-started.md"] (.inr (.inr rfl))
  rcases hstarted with hstarted | hstarted | hstarted | hstarted
  -- a configuration that is the first page of the guide leaves no place for the overview
  · have hlength := congrArg List.length hstarted
    simp only [List.length_append, List.length_cons, List.length_nil] at hlength
    rcases hindex with hindex | hindex | hindex | hindex <;> have hshort := congrArg List.length hindex <;>
      simp only [List.length_append, List.length_cons, List.length_nil] at hshort <;> omega
  · exact absurd (List.append_inj' hstarted rfl).2 (by decide)
  · have hseam : base ++ ["guide", "getting-started.md"] = (top ++ ["pages"]) ++ ["guide", "index.md"] := by
      rw [hstarted, List.append_assoc]
      rfl
    exact absurd (List.append_inj' hseam rfl).2 (by decide)
  · refine List.append_cancel_right (hstarted.trans ?_)
    rw [List.append_assoc]
    rfl

private theorem config_mem_projectFiles (config : String) : (config, configText) ∈ projectFiles config := by
  rw [projectFiles_eq]
  exact List.mem_cons_self

private theorem page_mem_projectFiles {page : String × String} (hpage : page ∈ samplePages) (config : String) :
    (Path.join (pagesDirectory config) page.1, page.2) ∈ projectFiles config := by
  rw [projectFiles_eq]
  exact List.mem_cons_of_mem _ (List.mem_map_of_mem hpage)

private theorem placeOf_pagesDirectory (fs : FileSystem) (config : String) :
    fs.placeOf (pagesDirectory config) = fs.placeOf (Path.directory config) ++ ["pages"] :=
  placeOf_join_segment isSegment_pages fs (Path.directory config)

section

variable (h : run config overwrite fs = (.ok count, next)) (hload : Config.load next config = .ok settings)
include h hload

private theorem exists_file_of_load : ∃ content, next.root.bareAt? (fs.placeOf config) = some (.file content) ∧
    next.locate config = .ok (fs.placeOf config) := by
  obtain ⟨content, hread⟩ := Config.exists_read_of_load hload (contains_of_run h (config_mem_projectFiles config))
  obtain ⟨place, hplace, hcontent⟩ := read_eq_ok_iff.mp hread
  obtain rfl : place = fs.placeOf config := (eq_placeOf_of_locate hplace).trans (placeOf_of_run h config)
  exact ⟨content, hcontent, hplace⟩

private theorem exists_placeOf_config : ∃ name, fs.placeOf config = fs.placeOf (Path.directory config) ++ [name] := by
  obtain ⟨content, hcontent, hplace⟩ := exists_file_of_load h hload
  obtain ⟨base, name, -, -, hname⟩ := exists_join_of_locate hplace (by simp [hcontent])
  exact ⟨name, by rw [hname, placeOf_of_run h]⟩

private theorem settings_of_new (hnew : overwrite = true ∨ fs.root.get? (fs.placeOf config) = none) :
    settings = { base := Path.directory config } := by
  refine load_of_scaffolded hload ?_
  cases overwrite with
  | true => exact read_of_overwrite h (config_mem_projectFiles config)
  | false =>
    refine read_of_isNew h (config_mem_projectFiles config) ⟨hnew.resolve_left Bool.false_ne_true, fun hpasses => ?_⟩
    -- on the way to the guide it would be a directory
    obtain ⟨content, hcontent, -⟩ := exists_file_of_load h hload
    rw [directory_of_passes_guide h hpasses] at hcontent
    cases hcontent

/-- Where none of the sample pages was in a directory, all of them are afterwards if and only if it is the one of the
built-in configuration, and none of them is on the way to the guide. -/
theorem pages_made_iff
    (hvacant : ∀ page ∈ samplePages, fs.root.get? (fs.placeOf (Path.join pages page.1)) = none) :
    (∀ page ∈ samplePages, ∃ content, next.root.get? (fs.placeOf (Path.join pages page.1)) = some (.file content)) ↔
      fs.placeOf pages = fs.placeOf (pagesDirectory config) ∧
        ∀ page ∈ samplePages, ¬ fs.Passes (guideDirectory config) (fs.placeOf (Path.join pages page.1)) := by
  constructor
  · intro hmade
    refine ⟨?_, fun page hpage hpasses => ?_⟩
    · obtain ⟨name, hname⟩ := exists_placeOf_config h hload
      rw [placeOf_pagesDirectory]
      refine eq_of_places name (List.forall_mem_map.mpr fun page hpage => ?_)
      obtain ⟨content, hcontent⟩ := hmade page hpage
      -- a file that was not there is one that is scaffolded
      have hplace : ¬ ∀ file ∈ projectFiles config, fs.placeOf (Path.join pages page.1) ≠ fs.placeOf file.1 := fun hapart => by
        rw [file_iff_of_run h hapart, hvacant page hpage] at hcontent
        cases hcontent
      simp only [projectFiles_eq, List.forall_mem_cons, List.forall_mem_map, not_and_or, not_forall, Classical.not_not,
        Ne] at hplace
      rw [← placeOf_join (samplePages_lead_down page hpage).1]
      refine hplace.imp (fun hsame => hname ▸ hsame) ?_
      rintro ⟨other, hother, hsame⟩
      exact ⟨_, List.mem_map_of_mem hother, by rw [hsame, placeOf_page (samplePages_lead_down other hother).1]⟩
    · obtain ⟨content, hcontent⟩ := hmade page hpage
      rw [← Tree.bareAt?_eq_file_iff, directory_of_passes_guide h hpasses] at hcontent
      cases hcontent
  · rintro ⟨hsame, hway⟩ page hpage
    have hplace : fs.placeOf (Path.join pages page.1) = fs.placeOf (Path.join (pagesDirectory config) page.1) := by
      rw [placeOf_join (samplePages_lead_down page hpage).1, placeOf_join (samplePages_lead_down page hpage).1, hsame]
    have hread : next.read (Path.join (pagesDirectory config) page.1) = .ok page.2.toUTF8 := by
      cases overwrite with
      | true => exact read_of_overwrite h (page_mem_projectFiles hpage config)
      | false =>
        refine read_of_isNew h (page_mem_projectFiles hpage config) ?_
        rw [IsNew, ← hplace]
        exact ⟨hvacant page hpage, hway page hpage⟩
    obtain ⟨place, hlocated, hcontent⟩ := read_eq_ok_iff.mp hread
    rw [eq_placeOf_of_locate hlocated, placeOf_of_run h, ← hplace, Tree.bareAt?_eq_file_iff] at hcontent
    exact ⟨_, hcontent⟩

end

/-- The sample pages are where the built-in configuration points. A build looks there with a new or overwritten
configuration and with a kept one that names the same directory; in another directory it finds all of them only if
some were there before. -/
theorem samples_where_build_looks (h : run config overwrite fs = (.ok count, next))
    (hload : Config.load next config = .ok settings) :
    ∃ pages, (settings.buildSettings none).pagesDirectory = some pages ∧
      pages = Path.join (Path.directory config) settings.input.pages ∧
      (∀ page ∈ samplePages, next.contains (Path.join (pagesDirectory config) page.1) = true) ∧
      (overwrite = true ∨ fs.root.get? (fs.placeOf config) = none → settings = { base := Path.directory config }) ∧
      (settings.input.pages = "pages" → pages = pagesDirectory config) ∧
      ((∀ page ∈ samplePages, fs.root.get? (fs.placeOf (Path.join pages page.1)) = none) →
        ((∀ page ∈ samplePages, ∃ content, next.root.get? (fs.placeOf (Path.join pages page.1)) = some (.file content)) ↔
          fs.placeOf pages = fs.placeOf (pagesDirectory config) ∧
            ∀ page ∈ samplePages, ¬ fs.Passes (guideDirectory config) (fs.placeOf (Path.join pages page.1)))) := by
  have hbase := Config.base_of_load hload
  refine ⟨_, rfl, by rw [Config.resolve, hbase], fun page hpage => contains_of_run h (page_mem_projectFiles hpage config),
    settings_of_new h hload, fun hpages => ?_, pages_made_iff h hload⟩
  rw [Config.resolve, hbase, hpages, pagesDirectory]

namespace Sample

/-- A project whose configuration says where its pages are. -/
def projectWith (pages : String) : FileSystem :=
  { root := .directory [("protodoc.toml", .file ("[input]\npages = \"" ++ pages ++ "\"\n").toUTF8)] }

def settingsWith (pages : String) : Config := { input := { pages } }

private theorem projectWith_scaffolds : ∀ pages ∈ ["./pages", "docs"],
    (run "protodoc.toml" false (projectWith pages)).1 = .ok 3 ∧
      (Config.load (run "protodoc.toml" false (projectWith pages)).2 "protodoc.toml").toOption = some (settingsWith pages) := by
  decide +kernel

private theorem dottedPages_vacant : ∀ page ∈ samplePages,
    (projectWith "./pages").root.get? ((projectWith "./pages").placeOf (Path.join "./pages" page.1)) = none ∧
      ¬ (projectWith "./pages").Passes (guideDirectory "protodoc.toml")
        ((projectWith "./pages").placeOf (Path.join "./pages" page.1)) := by
  decide +kernel

end Sample

/-- A kept configuration may spell the directory of the pages differently. -/
theorem samples_where_build_looks_dotted :
    ∃ next, run "protodoc.toml" false (Sample.projectWith "./pages") = (.ok 3, next) ∧
      ∀ page ∈ samplePages, ∃ content,
        next.root.get? ((Sample.projectWith "./pages").placeOf (Path.join "./pages" page.1)) = some (.file content) := by
  obtain ⟨hrun, hload⟩ := Sample.projectWith_scaffolds "./pages" (by decide)
  obtain ⟨next, h⟩ := Sample.exists_of_fst hrun
  rw [h] at hload
  obtain ⟨pages, -, hpages, -, -, -, hmade⟩ := samples_where_build_looks h (eq_ok_of_toOption hload)
  obtain rfl : pages = "./pages" := hpages
  refine ⟨next, h, (hmade fun page hpage => (Sample.dottedPages_vacant page hpage).1).mpr ⟨?_, fun page hpage => ?_⟩⟩
  · decide +kernel
  · exact (Sample.dottedPages_vacant page hpage).2

/-- A kept configuration may look for pages in another directory, and finds none there. -/
theorem samples_where_no_build_looks :
    ∃ next settings, run "protodoc.toml" false (Sample.projectWith "docs") = (.ok 3, next) ∧
      Config.load next "protodoc.toml" = .ok settings ∧ (settings.buildSettings none).pagesDirectory = some "docs" ∧
      ∀ page ∈ samplePages, next.contains (Path.join "docs" page.1) = false := by
  obtain ⟨hrun, hload⟩ := Sample.projectWith_scaffolds "docs" (by decide)
  refine ⟨(run "protodoc.toml" false (Sample.projectWith "docs")).2, Sample.settingsWith "docs", by rw [← hrun],
    eq_ok_of_toOption hload, by decide +kernel, by decide +kernel⟩

end Scaffold

end SchemaDocs
