import SchemaDocs.Project.Command
import SchemaDocs.Proofs.Project.SamplePages
import SchemaDocs.Proofs.Site.Elsewhere
import SchemaDocs.Proofs.Site.Failures

/-!
# Projects built from elsewhere

A project is built from its own directory, or from outside with the path to its configuration. Both ways the paths of
the configuration lead to the same files, so that both builds leave the same site in the same place. The exception is
an empty path to the pages: it leads nowhere inside, and to the directory itself outside.
-/

namespace SchemaDocs

open FileSystem (IsLong Paves)

variable {inner outer files : FileSystem} {base path : String} {config : Config}

/-! ### Where a build leaves files -/

namespace BuildSettings

/-- Outside of its output directory a build only makes directories that lead there. -/
theorem paves_build (settings : BuildSettings) (provider : Option Provider) (schema : Schema) (files : FileSystem) :
    Paves (settings.siteDirectory schema) (fun place => ¬ files.placeOf (settings.siteDirectory schema) <+: place) files
      (settings.build Stage.standard provider schema files).2 := by
  obtain ⟨_, hleft⟩ := exists_isLeft_build settings (fun _ => {}) provider schema files
  exact hleft.outside

end BuildSettings

/-! ### The configuration -/

namespace Config

/-- A configuration is loaded from outside as from its directory, but for the directory that its paths are seen from. -/
theorem toOption_load_join (h : outer.Enters base inner) (hpath : path ≠ "") (hfits : ¬ IsLong (Path.join base path)) :
    (load outer (Path.join base path)).toOption =
      (load inner path).toOption.map ({ · with base := Path.directory (Path.join base path) }) := by
  rw [load, load, h.contains_eq hpath hfits, h.readText_eq hpath hfits]
  split
  · rfl
  · cases inner.readText path with
    | error error => rfl
    | ok text =>
      simp only
      cases parse? text <;> rfl

private theorem resolve_of_base (hbase : config.base = "") (path : String) : config.resolve path = path := by
  rw [resolve, hbase, Path.join]
  simp

private theorem buildSettings_behind (hbase : config.base = "") (base : String) :
    ({ config with base } : Config).buildSettings none = (config.buildSettings none).behind base := by
  have hsame : config.resolve = id := funext (resolve_of_base hbase)
  simp only [buildSettings, BuildSettings.behind, hsame]
  cases config.site.output <;> cases config.resources.manifest <;> rfl

/-- Outside of its directory a configuration finds what it finds inside. -/
structure FindsAlike (config moved : Config) (inner outer : FileSystem) : Prop where
  /-- The module is read in both or in neither, and is the same. -/
  module : IsLong moved.modulePath ∨ (outer.readText moved.modulePath).toOption = (inner.readText config.modulePath).toOption
  pages : config.input.pages ≠ "" → ¬ IsLong (moved.resolve moved.input.pages) →
    Discovery.discover outer (moved.resolve moved.input.pages) = Discovery.discover inner (config.resolve config.input.pages)
  /-- Without a path to the pages there are none inside, and outside those of the whole directory. -/
  noPages : config.input.pages = "" → Discovery.discover inner (config.resolve config.input.pages) = [] ∧
    Discovery.discover outer (moved.resolve moved.input.pages) = Discovery.discover inner "."
  manifest : (∃ path, (moved.buildSettings none).manifest = some path ∧ IsLong path) ∨
    ((moved.buildSettings none).loadManifest outer).toOption = ((config.buildSettings none).loadManifest inner).toOption
  resources : ∀ locator, IsLong (Path.join (moved.buildSettings none).resourcesDirectory locator) ∨
    ((Provider.directory (moved.buildSettings none).resourcesDirectory).load outer locator).toOption =
      ((Provider.directory (config.buildSettings none).resourcesDirectory).load inner locator).toOption
  /-- All other paths lead to the same places as well. -/
  places : ∀ path, outer.placeOf (moved.resolve path) = inner.placeOf (config.resolve path)

private theorem findsAlike (h : outer.Enters base inner) (hbase : config.base = "") :
    FindsAlike config { config with base } inner outer := by
  refine ⟨?_, fun hpages hfits => ?_, fun hempty => ?_, ?_, fun locator => ?_, fun path => ?_⟩
  · rw [modulePath, modulePath, resolve_of_base hbase]
    exact (Classical.em _).imp_right h.toOption_readText
  · rw [resolve_of_base hbase]
    exact h.discover_eq hpages hfits
  · rw [resolve_of_base hbase, resolve, hempty]
    exact h.discover_empty
  · rw [buildSettings_behind hbase]
    refine (BuildSettings.loadManifest_behind _ h).imp_left ?_
    rintro ⟨path, hpath, hlong, -⟩
    exact ⟨path, hpath, hlong⟩
  · rw [buildSettings_behind hbase]
    exact (BuildSettings.load_behind _ h locator).imp_left And.left
  · rw [resolve_of_base hbase]
    exact h.placeOf_eq path

end Config

/-! ### Commands -/

/-- A command fails only because the path to a file is longer than a path may be. -/
inductive CommandError.IsTooLong (settings : BuildSettings) : CommandError → Prop where
  | module {path : String} (h : IsLong path) : IsTooLong settings (.moduleUnreadable path)
  | build {error : BuildError} (h : error.IsTooLong settings) : IsTooLong settings (.build error)

namespace Command

variable {d output : String} {schema : Schema} {result : BuildResult} {final : FileSystem}

private theorem readSchema_behind {moved : Config} (h : outer.Enters base inner)
    (hmodule : moved.modulePath = Path.join base config.modulePath) :
    (∃ path, IsLong path ∧ readSchema moved none outer = .error (.moduleUnreadable path)) ∨
      (readSchema moved none outer).toOption = (readSchema config none inner).toOption := by
  rw [readSchema, readSchema, Option.getD_none, Option.getD_none, hmodule]
  by_cases hlong : IsLong (Path.join base config.modulePath)
  · rw [FileSystem.readText_of_isLong hlong]
    exact .inl ⟨_, hlong, rfl⟩
  · have hread := h.toOption_readText hlong
    right
    generalize inner.readText _ = found, outer.readText _ = foundOuter at hread
    obtain ⟨_, _, rfl, rfl⟩ | ⟨text, rfl, rfl⟩ := cases_of_toOption hread
    · rfl
    · simp only
      cases Schema.parse text <;> rfl

/-- A build of a loaded project ends outside as it ends inside. -/
theorem runBuild_behind (h : outer.Enters base inner) (hbase : config.base = "")
    (houtput : config.site.output = some output)
    (hpages : config.input.pages ≠ "") (hfits : ¬ IsLong (Path.join base config.input.pages)) {inside outside : String}
    (hinside : Config.load inner inside = .ok config) (houtside : Config.load outer outside = .ok { config with base }) :
    (∃ error, CommandError.IsTooLong (({ config with base } : Config).buildSettings none) error ∧
        (runBuild outside none none outer).1 = .error error) ∨
      (runBuild outside none none outer).1.toOption =
          (runBuild inside none none inner).1.toOption.map ({ · with outputDirectory := Path.join base output }) ∧
        (runBuild outside none none outer).2.root = (runBuild inside none none inner).2.root := by
  have hmodule : ({ config with base } : Config).modulePath = Path.join base config.modulePath := by
    rw [Config.modulePath, Config.modulePath, Config.resolve_of_base hbase, Config.resolve]
  have hread := readSchema_behind h hmodule
  have hsettings := Config.buildSettings_behind hbase base
  rw [runBuild, runBuild, hinside, houtside]
  simp only [hsettings]
  generalize readSchema config none inner = schema, readSchema { config with base } none outer = schemaOuter at hread
  rcases hread with ⟨path, hlong, rfl⟩ | hread
  · exact .inl ⟨_, .module hlong, rfl⟩
  obtain ⟨_, _, rfl, rfl⟩ | ⟨schema, rfl, rfl⟩ := cases_of_toOption hread
  · exact .inr ⟨rfl, h.root⟩
  have hdirectory : (config.buildSettings none).outputDirectory = some output := by
    rw [Config.buildSettings, houtput, Option.map_some, Config.resolve_of_base hbase]
    rfl
  have hfound : ∀ pages ∈ (config.buildSettings none).pagesDirectory, pages ≠ "" ∧ ¬ IsLong (Path.join base pages) := by
    rintro pages hmem
    obtain rfl : config.resolve config.input.pages = pages := Option.some.inj hmem
    rw [Config.resolve_of_base hbase]
    exact ⟨hpages, hfits⟩
  have hbuild := BuildSettings.build_behind schema h hdirectory hfound
  simp only
  generalize (config.buildSettings none).build Stage.standard none schema inner = built,
    ((config.buildSettings none).behind base).build Stage.standard none schema outer = builtOuter at hbuild
  rcases hbuild with ⟨error, hlong, herror⟩ | ⟨hsame, hfiles⟩
  · exact .inl ⟨_, .build hlong, by rw [herror]; rfl⟩
  · exact .inr ⟨by rw [toOption_mapError, toOption_mapError, hsame, toOption_map], hfiles.root⟩

/-- What is given for one run goes before the configuration, and is seen from where the command is started. -/
structure GivenFirst (configPath : String) (files : FileSystem) : Prop where
  /-- Outside of the given directory nothing changes, but that directories are made on the way to it. -/
  output : ∀ output module, Paves output (fun place => ¬ files.placeOf output <+: place) files
      (runBuild configPath (some output) module files).2 ∧
    ∀ result, (runBuild configPath (some output) module files).1 = .ok result → result.outputDirectory = output
  module : ∀ output module result final, runBuild configPath output (some module) files = (.ok result, final) ↔
    ∃ config text schema, Config.load files configPath = .ok config ∧ files.readText module = .ok text ∧
      Schema.parse text = .ok schema ∧
      (config.buildSettings output).build Stage.standard none schema files = (.ok result, final)

theorem readSchema_eq_ok_iff {module : String} :
    readSchema config (some module) files = .ok schema ↔
      ∃ text, files.readText module = .ok text ∧ Schema.parse text = .ok schema := by
  rw [readSchema, Option.getD_some]
  cases files.readText module with
  | error error => simp
  | ok text =>
    cases hparse : Schema.parse text <;> simp [hparse]

theorem runBuild_eq_ok_iff {configPath : String} {given module : Option String} :
    runBuild configPath given module files = (.ok result, final) ↔
      ∃ config schema, Config.load files configPath = .ok config ∧ readSchema config module files = .ok schema ∧
        (config.buildSettings given).build Stage.standard none schema files = (.ok result, final) := by
  rw [runBuild]
  cases Config.load files configPath with
  | error error => simp
  | ok config =>
    cases hschema : readSchema config module files with
    | error error => simp [hschema]
    | ok schema =>
      rcases hbuilt : (config.buildSettings given).build Stage.standard none schema files with ⟨error | made, left⟩ <;>
        simp [hschema, hbuilt, Except.mapError]

private theorem givenFirst (configPath : String) (files : FileSystem) : GivenFirst configPath files where
  output output module := by
    constructor
    · rw [runBuild]
      split
      · exact .refl _ _ _
      · rename_i config _
        split
        · exact .refl _ _ _
        · exact BuildSettings.paves_build (config.buildSettings (some output)) none _ files
    · intro result hresult
      obtain ⟨config, schema, -, -, hbuild⟩ := runBuild_eq_ok_iff.mp (Prod.ext hresult rfl)
      obtain ⟨run⟩ := SiteRun.nonempty_of_build hbuild
      exact run.outputDirectory
  module output module result final := by
    rw [runBuild_eq_ok_iff]
    simp only [readSchema_eq_ok_iff]
    constructor
    · rintro ⟨config, schema, hload, ⟨text, hread, hparse⟩, hbuild⟩
      exact ⟨config, text, schema, hload, hread, hparse, hbuild⟩
    · rintro ⟨config, text, schema, hload, hread, hparse, hbuild⟩
      exact ⟨config, schema, hload, ⟨text, hread, hparse⟩, hbuild⟩

/-- A project whose output directory is set is built from outside as from its own directory. The same module, manifest
and resources are read, and the same pages unless the path to them is empty; then the same files are left in the same
place, or both builds fail. Only where a path gets longer than a path may be can the build outside fail alone. What is
given for one run goes before the configuration and is seen from where the build is started. -/
theorem runBuild_from_outside (hdirectory : outer.isDirectory d = true) (hroom : ¬ IsLong (Path.join d defaultConfig))
    (hload : Config.load (outer.within d) defaultConfig = .ok config) (houtput : config.site.output = some output) :
    (∃ moved, Config.load outer (Path.join d defaultConfig) = .ok moved ∧
      moved = { config with base := Path.directory (Path.join d defaultConfig) } ∧
      config.FindsAlike moved (outer.within d) outer ∧
      (config.input.pages ≠ "" → ¬ IsLong (moved.resolve config.input.pages) →
        (∃ error, CommandError.IsTooLong (moved.buildSettings none) error ∧
          (runBuild (Path.join d defaultConfig) none none outer).1 = .error error) ∨
        (runBuild (Path.join d defaultConfig) none none outer).1.toOption =
            (runBuild defaultConfig none none (outer.within d)).1.toOption.map
              ({ · with outputDirectory := moved.resolve output }) ∧
          (runBuild (Path.join d defaultConfig) none none outer).2.root =
            (runBuild defaultConfig none none (outer.within d)).2.root)) ∧
    ∀ configPath files, GivenFirst configPath files := by
  have hsegment : IsSegment defaultConfig := ⟨by decide, by decide, by decide, by decide⟩
  have h := FileSystem.enters_directory_join hdirectory hsegment (by decide) hroom
  have hbase : config.base = "" := (Config.base_of_load hload).trans (Path.directory_of_segment hsegment)
  have houtside : Config.load outer (Path.join d defaultConfig) =
      .ok { config with base := Path.directory (Path.join d defaultConfig) } := by
    refine eq_ok_of_toOption ?_
    rw [Config.toOption_load_join (FileSystem.enters_of_join hdirectory hsegment (by decide) hroom) (by decide) hroom, hload]
    rfl
  exact ⟨⟨_, houtside, rfl, Config.findsAlike h hbase, fun hpages hfits =>
    runBuild_behind h hbase houtput hpages hfits hload houtside⟩, givenFirst⟩

namespace Sample

/-- A project in a directory, whose configuration says where its pages are. -/
def projectWith (pages : String) : FileSystem where
  root := .directory [
    ("d", .directory [
      ("m.toml", .file "".toUTF8),
      ("module.json", .file "\x7b\"name\":\"m\"\x7d".toUTF8),
      ("p", .directory [("a.md", .file "A".toUTF8)]),
      ("protodoc.toml", .file ("[site]\noutput = \"o\"\n[input]\npages = \"" ++ pages ++
        "\"\n[resources]\nmanifest = \"m.toml\"\n").toUTF8)])]

def settingsWith (pages : String) : Config where
  site := { output := some "o" }
  input := { pages }
  resources := { manifest := some "m.toml" }

private theorem loads :
    (Config.load ((projectWith "p").within "d") defaultConfig).toOption = some (settingsWith "p") := by
  decide +kernel

private theorem builds :
    (runBuild "d/protodoc.toml" none none (projectWith "p")).1.toOption.map (·.report.pages) = some 1 := by
  decide +kernel

end Sample

/-- The build outside leaves what the build inside leaves. -/
theorem runBuild_from_outside_small :
    ∃ result final, runBuild "d/protodoc.toml" none none (Sample.projectWith "p") = (.ok result, final) ∧
      result.report.pages = 1 ∧ result.outputDirectory = "d/o" ∧
      final.root = (runBuild defaultConfig none none ((Sample.projectWith "p").within "d")).2.root := by
  have hroom : ¬ IsLong (Path.join "d" defaultConfig) := Nat.not_lt.mpr (by decide)
  obtain ⟨⟨moved, -, rfl, -, hrun⟩, -⟩ :=
    runBuild_from_outside (by decide) hroom (eq_ok_of_toOption Sample.loads) rfl
  have hruns := hrun (by decide) (Nat.not_lt.mpr (by decide))
  have hpath : Path.join "d" defaultConfig = "d/protodoc.toml" := by decide +kernel
  have hplace : ({ Sample.settingsWith "p" with base := Path.directory "d/protodoc.toml" } : Config).resolve "o" = "d/o" := by
    decide +kernel
  have hpages := Sample.builds
  rw [hpath, hplace] at hruns
  generalize runBuild "d/protodoc.toml" none none (Sample.projectWith "p") = ended at hruns hpages
  generalize runBuild defaultConfig none none _ = inside at hruns
  obtain ⟨outcome, final⟩ := ended
  rcases hruns with ⟨error, -, rfl⟩ | ⟨hsame, hroot⟩
  · cases hpages
  · cases outcome with
    | error error => cases hpages
    | ok result =>
      obtain ⟨made, -, hmade⟩ := Option.map_eq_some_iff.mp hsame.symm
      exact ⟨result, final, rfl, Option.some.inj hpages, by rw [← hmade], hroot⟩

/-- Without a path to the pages the build inside writes none, and the one outside all that it finds. -/
theorem runBuild_finds_more_outside :
    ((runBuild defaultConfig none none ((Sample.projectWith "").within "d")).1.toOption.map (·.report.pages) = some 0 ∧
      (runBuild defaultConfig none none ((Sample.projectWith "").within "d")).2.contains "o/pages/p/a.json" = false) ∧
    (runBuild "d/protodoc.toml" none none (Sample.projectWith "")).1.toOption.map (·.report.pages) = some 1 ∧
      (runBuild "d/protodoc.toml" none none (Sample.projectWith "")).2.contains "d/o/pages/p/a.json" = true := by
  decide +kernel

end Command

end SchemaDocs
