import SchemaDocs.Proofs.Site.Failures
import SchemaDocs.Proofs.Site.Listed

/-!
# The targets of resources

A manifest and an output directory check the targets of resources by rules of their own. What the manifest refuses
every output directory refuses too, so nothing is written then. What the manifest accepts is refused later only if
a name in it is a dot, and behind all documents.
-/

namespace SchemaDocs

variable {context : Context} {start ended : Workshop} {text target : String} {manifest : Manifest}

def OutputDirectory.Admits (output : OutputDirectory) (path : String) : Prop :=
  output.claim path ≠ .error (.notRelative path)

theorem OutputDirectory.admits_iff {output : OutputDirectory} {path : String} :
    output.Admits path ↔ isOutputPath path := by
  rw [Admits, claim]
  cases isOutputPath path with
  | false => simp
  | true => by_cases hclaimed : path ∈ output.written <;> simp [hclaimed]

namespace Manifest

/-- A name in a target is a dot, which leads nowhere. -/
def IsDotted (target : String) : Prop := "." ∈ Text.pieces '/' target

/-- Output directories have nothing against the targets of a manifest. -/
def IsAdmitted (manifest : Manifest) : Prop :=
  ∀ pair ∈ manifest.pairs, ∀ output : OutputDirectory, output.Admits pair.2

theorem isRelativeTarget_iff : isRelativeTarget target ↔ ∀ name ∈ Text.pieces '/' target, name ≠ "" ∧ name ≠ ".." := by
  simp only [isRelativeTarget, List.all_eq_true, Bool.and_eq_true, decide_eq_true_eq]

private theorem isOutputPath_iff_isRelativeTarget :
    isOutputPath target ↔ isRelativeTarget target ∧ ¬ IsDotted target := by
  rw [isOutputPath_iff, isRelativeTarget_iff]
  constructor
  · intro h
    exact ⟨fun name hname => ⟨(h name hname).1, (h name hname).2.2⟩, fun hdot => (h "." hdot).2.1 rfl⟩
  · rintro ⟨h, hdot⟩ name hname
    refine ⟨(h name hname).1, ?_, (h name hname).2⟩
    rintro rfl
    exact hdot hname

theorem isAdmitted_iff :
    manifest.IsAdmitted ↔ (∀ pair ∈ manifest.pairs, isRelativeTarget pair.2) ∧ ∀ pair ∈ manifest.pairs, ¬ IsDotted pair.2 := by
  simp only [IsAdmitted, OutputDirectory.admits_iff, isOutputPath_iff_isRelativeTarget, ← forall₂_and]
  exact forall₂_congr fun _ _ => ⟨fun h => h { root := "" }, fun h _ => h⟩

theorem parse_eq_ok_iff :
    parse text = .ok manifest ↔
      (Toml.parse? text).bind ofTable? = some manifest ∧ ∀ pair ∈ manifest.pairs, isRelativeTarget pair.2 := by
  rw [parse]
  constructor
  · intro h
    split at h
    · cases h
    · rename_i found hfound
      split at h
      · cases h
      · rename_i hnone
        obtain rfl := Except.ok.inj h
        exact ⟨hfound, by simpa using hnone⟩
  · rintro ⟨hfound, hrelative⟩
    have hnone : manifest.pairs.find? (fun pair => !isRelativeTarget pair.2) = none := by simpa using hrelative
    simp only [hfound, hnone]

private theorem exists_of_parse_eq_error {cause : ManifestError} (h : (Toml.parse? text).bind ofTable? = some manifest)
    (herror : parse text = .error cause) :
    ∃ pair ∈ manifest.pairs, cause = .targetNotRelative pair.2 ∧ ¬ isRelativeTarget pair.2 := by
  rw [parse, h] at herror
  simp only at herror
  split at herror
  · rename_i source target hrefused
    refine ⟨(source, target), List.mem_of_find?_eq_some hrefused, (Except.error.inj herror).symm, ?_⟩
    simpa using List.find?_some hrefused
  · cases herror

end Manifest

/-! ### Builds -/

private theorem Stage.not_fails_notRelative (hnamed : WellNamed context.registry.entries)
    (hfiles : start.disk.files.root.IsNamed) :
    ¬ (runAll context standard).Fails start (.output (.notRelative target)) ended := by
  intro h
  rcases halts_of_runAll h with hhalts | ⟨middle, hreference, hhalts⟩
  · obtain ⟨hplan, hpath⟩ := hhalts.not_isOutputPath
    exact hpath ((pathsApart hnamed (List.forall_mem_nil SourcePage.IsFound)).isOutputPath_of_referencePaths hplan)
  · obtain ⟨hplan, hpath⟩ := hhalts.not_isOutputPath
    refine hpath ((pathsApart hnamed fun _ hsource => ?_).isOutputPath_of_pagePaths hplan)
    exact Context.isFound_of_foundPages (hreference.isNamed hfiles) hsource

namespace BuildSettings

variable {settings : BuildSettings} {provider : Option Provider} {schema : Schema} {files final : FileSystem}
  {result : BuildResult}

/-- A build has come to a target. All documents and the resources before it are written, and its resource is loaded. -/
inductive ReachesTarget (settings : BuildSettings) (provider : Option Provider) (schema : Schema) (files : FileSystem)
    (manifest : Manifest) : String → FileSystem → Prop where
  | behind {registry : Registry} {made final : FileSystem} {ledger : Ledger} {staged : Disk}
      {before after : List (String × String)} {pair : String × String} {resources : List Write} {content : ByteArray}
      (hregistry : Registry.build schema = .ok registry)
      (hmade : makeOutput files (settings.siteDirectory schema) = (.ok (), made))
      (hstages : ledger.Records (settings.context schema registry) (settings.workshop schema made).disk staged)
      (hpairs : manifest.pairs = before ++ pair :: after)
      (hbefore : List.Forall₂ (IsResource (settings.resources provider)) before resources)
      (hload : (settings.resources provider).load final pair.1 = .ok content)
      (hleft : IsLeft (settings.siteDirectory schema) files final (ledger.documents.map SiteDocument.write ++ resources)) :
      ReachesTarget settings provider schema files manifest pair.2 final

/-- A build fails for a path that is not accepted at a target of its manifest only. -/
theorem exists_reachesTarget (hfiles : files.root.IsNamed)
    (h : settings.build Stage.standard provider schema files = (.error (.output (.notRelative target)), final)) :
    ∃ manifest, settings.loadManifest files = .ok manifest ∧ ¬ isOutputPath target ∧
      settings.ReachesTarget provider schema files manifest target final := by
  obtain ⟨_, -, herror, -⟩ | ⟨registry, hregistry, ⟨_, -, herror, -⟩ | ⟨manifest, hmanifest, h⟩⟩ := fails_build h
  · cases herror
  · cases herror
  · refine ⟨manifest, hmanifest, ?_⟩
    rcases h with hmade | ⟨made, ended, hmade, hgenerate, rfl⟩
    · cases (fails_makeOutput hmade).1
    · have hcreated := congrArg Prod.snd (makeOutput_eq_ok_iff.mp hmade)
      have hnamed : made.root.IsNamed := by
        have hnamed := FileSystem.isKept_isNamed.createDirectories hfiles (settings.siteDirectory schema)
        rwa [hcreated] at hnamed
      rcases Build.fails_bind_iff.mp hgenerate with hstages | ⟨report, staged, hstages, hgenerate⟩
      · exact absurd hstages (Stage.not_fails_notRelative (wellNamed_of_build hregistry) hnamed)
      · rcases Build.fails_bind_iff.mp hgenerate with hcopies | ⟨_, _, _, hgenerate⟩
        · obtain ⟨ledger, before, pair, after, resources, middle, hrecords, hpairs, hbefore, hleft, hstops⟩ :=
            exists_stops_of_copyResources hcreated hstages hcopies
          generalize ended.disk = last at hstops ⊢
          cases hstops with
          | write hload hwrite =>
            obtain ⟨rfl, hpath, rfl⟩ := Disk.notRelative_of_writeBytes hwrite
            exact ⟨hpath, .behind hregistry hmade hrecords hpairs hbefore hload hleft⟩
        · exact absurd hgenerate Build.not_fails_pure

private theorem exists_isAdmitted_of_build
    (h : settings.build Stage.standard provider schema files = (.ok result, final)) :
    ∃ manifest, settings.loadManifest files = .ok manifest ∧ manifest.IsAdmitted := by
  obtain ⟨run⟩ := SiteRun.nonempty_of_build h
  refine ⟨run.manifest, run.loaded, fun pair hpair output => OutputDirectory.admits_iff.mpr ?_⟩
  obtain ⟨write, hwrite, hresource⟩ := (exists_of_mem_forall₂ run.found).2 pair hpair
  rw [← hresource.path]
  exact (Disk.holdsAll_of_writeAll run.copied).accepted write hwrite

private theorem loadManifest_of_readText {path : String} (hpath : settings.manifest = some path)
    (htext : files.readText path = .ok text) : settings.loadManifest files = Manifest.parse text := by
  rw [loadManifest, hpath]
  simp only [htext]

private theorem build_of_loadManifest_eq_error {stages : List Stage} {registry : Registry} {cause : ManifestError}
    (hregistry : Registry.build schema = .ok registry) (hmanifest : settings.loadManifest files = .error cause) :
    settings.build stages provider schema files = (.error (.manifest cause), files) := by
  rw [build, hregistry]
  simp only [hmanifest]

end BuildSettings

/-- Of a manifest that can be read, output directories admit all targets exactly if it is accepted and no name in a
target is a dot. If it is refused, then for a target that they do not admit, and nothing is written. A build that
fails for a path that is not accepted has come to a target with a dot, behind all documents; and no build succeeds
unless all targets are admitted. -/
theorem Manifest.parse_admits_iff (h : (Toml.parse? text).bind Manifest.ofTable? = some manifest) :
    (manifest.IsAdmitted ↔ Manifest.parse text = .ok manifest ∧ ∀ pair ∈ manifest.pairs, ¬ IsDotted pair.2) ∧
      (∀ cause, Manifest.parse text = .error cause →
        ∃ pair ∈ manifest.pairs, cause = .targetNotRelative pair.2 ∧ ∀ output : OutputDirectory, ¬ output.Admits pair.2) ∧
      ∀ (settings : BuildSettings) (path : String) (provider : Option Provider) (schema : Schema) (files : FileSystem),
        settings.manifest = some path → files.readText path = .ok text → files.root.IsNamed →
        (∀ registry cause, Registry.build schema = .ok registry → Manifest.parse text = .error cause →
          settings.build Stage.standard provider schema files = (.error (.manifest cause), files)) ∧
        (∀ target final,
          settings.build Stage.standard provider schema files = (.error (.output (.notRelative target)), final) →
          Manifest.parse text = .ok manifest ∧ IsDotted target ∧
            settings.ReachesTarget provider schema files manifest target final) ∧
        ∀ result final, settings.build Stage.standard provider schema files = (.ok result, final) → manifest.IsAdmitted := by
  have haccepted : Manifest.parse text = .ok manifest ↔ ∀ pair ∈ manifest.pairs, isRelativeTarget pair.2 :=
    parse_eq_ok_iff.trans (and_iff_right h)
  refine ⟨by rw [isAdmitted_iff, haccepted], fun cause hcause => ?_,
    fun settings path provider schema files hpath htext hfiles => ?_⟩
  · obtain ⟨pair, hpair, rfl, hrefused⟩ := exists_of_parse_eq_error h hcause
    refine ⟨pair, hpair, rfl, fun output hadmits => hrefused ?_⟩
    exact (isOutputPath_iff_isRelativeTarget.mp (OutputDirectory.admits_iff.mp hadmits)).1
  · have hload := BuildSettings.loadManifest_of_readText hpath htext
    have hloaded (found : Manifest) (hfound : settings.loadManifest files = .ok found) :
        Manifest.parse text = .ok manifest ∧ found = manifest := by
      rw [hload] at hfound
      obtain rfl := Option.some.inj ((parse_eq_ok_iff.mp hfound).1.symm.trans h)
      exact ⟨hfound, rfl⟩
    refine ⟨fun registry cause hregistry hcause => ?_, fun target final hbuild => ?_, fun result final hbuild => ?_⟩
    · exact BuildSettings.build_of_loadManifest_eq_error hregistry (hload.trans hcause)
    · obtain ⟨found, hfound, hpath, hreaches⟩ := BuildSettings.exists_reachesTarget hfiles hbuild
      obtain ⟨hparse, rfl⟩ := hloaded found hfound
      refine ⟨hparse, ?_, hreaches⟩
      by_contra hundotted
      refine hpath (isOutputPath_iff_isRelativeTarget.mpr ⟨?_, hundotted⟩)
      cases hreaches with
      | behind _ _ _ hpairs _ _ _ => exact haccepted.mp hparse _ (hpairs ▸ List.mem_append_right _ List.mem_cons_self)
    · obtain ⟨found, hfound, hadmitted⟩ := BuildSettings.exists_isAdmitted_of_build hbuild
      obtain ⟨-, rfl⟩ := hloaded found hfound
      exact hadmitted

namespace Sample

/-- A manifest of one resource, whose target begins with a dot. -/
def dottedText : String := "[[bundle]]\nname = \"a\"\nfiles = [\"./x\"]\n"

def dotted : Manifest := ⟨[{ name := "a", files := ["./x"] }]⟩

def dottedFiles : FileSystem where
  root := .directory [("m", .file dottedText.toUTF8)]

def dottedProvider : Provider := .memory [("./x", .empty)]

private theorem dotted_read : (Toml.parse? dottedText).bind Manifest.ofTable? = some dotted := by
  decide +kernel

private theorem dottedFiles_hold : dottedFiles.readText "m" = .ok dottedText := by
  refine eq_ok_of_toOption ?_
  decide +kernel

private theorem dottedFiles_named : dottedFiles.root.IsNamed := ⟨⟨by decide, by decide⟩, trivial, trivial⟩

private theorem exists_dotted_build : ∃ final, settings.build Stage.standard (some dottedProvider) schema dottedFiles =
    (.error (.output (.notRelative "./x")), final) := by
  refine exists_of_hasCause ?_
  decide +kernel

end Sample

theorem Manifest.parse_admits_iff_dotted :
    ¬ Sample.dotted.IsAdmitted ∧ ∃ final,
      Sample.settings.build Stage.standard (some Sample.dottedProvider) Sample.schema Sample.dottedFiles =
        (.error (.output (.notRelative "./x")), final) ∧
      Manifest.parse Sample.dottedText = .ok Sample.dotted ∧ IsDotted "./x" ∧
      Sample.settings.ReachesTarget (some Sample.dottedProvider) Sample.schema Sample.dottedFiles Sample.dotted "./x" final := by
  obtain ⟨hadmitted, -, hbuilds⟩ := parse_admits_iff Sample.dotted_read
  obtain ⟨final, hbuild⟩ := Sample.exists_dotted_build
  obtain ⟨-, hfails, -⟩ := hbuilds Sample.settings "m" (some Sample.dottedProvider) Sample.schema Sample.dottedFiles rfl
    Sample.dottedFiles_hold Sample.dottedFiles_named
  obtain ⟨hparse, hdot, hreaches⟩ := hfails "./x" final hbuild
  refine ⟨fun h => (hadmitted.mp h).2 ("./x", "./x") ?_ hdot, final, hbuild, hparse, hdot, hreaches⟩
  exact List.mem_singleton_self _

/-- A manifest that is accepted, with a target that no output directory admits. A build finds out behind all
documents. -/
theorem Manifest.accepts_what_is_not_admitted :
    (Toml.parse? Sample.dottedText).bind Manifest.ofTable? = some Sample.dotted ∧
      Manifest.parse Sample.dottedText = .ok Sample.dotted ∧ ("./x", "./x") ∈ Sample.dotted.pairs ∧
      (∀ output : OutputDirectory, output.claim "./x" = .error (.notRelative "./x")) ∧
      ∃ final, Sample.settings.build Stage.standard (some Sample.dottedProvider) Sample.schema Sample.dottedFiles =
        (.error (.output (.notRelative "./x")), final) := by
  refine ⟨Sample.dotted_read, parse_eq_ok_iff.mpr ⟨Sample.dotted_read, ?_⟩, List.mem_singleton_self _, fun output => rfl,
    Sample.exists_dotted_build⟩
  decide

end SchemaDocs
