import SchemaDocs.Site.Stage

/-!
# Building a site

A build checks the schema and reads the manifest before it writes anything. Then the stages write
their documents, and the resources follow.
-/

namespace SchemaDocs

structure BuildSettings where
  /-- Where the site goes; by default the place that the schema names. -/
  outputDirectory : Option String := none
  /-- Where authored pages are. -/
  pagesDirectory : Option String := some "pages"
  /-- Where resources are. -/
  resourcesDirectory : String := "resources"
  /-- A manifest in place of the built-in one. -/
  manifest : Option String := none
  /-- The title of the site; by default the name of the schema. -/
  title : Option String := none
  /-- The greatest number of bytes of a text in Markdown. -/
  markdownLimit : Nat := Markdown.defaultLimit
deriving DecidableEq, Repr

/-- What a build has written, and where. -/
structure BuildResult where
  report : Report
  assets : Nat
  outputDirectory : String
deriving DecidableEq, Repr

namespace BuildSettings

def loadManifest (settings : BuildSettings) (files : FileSystem) : Except ManifestError Manifest :=
  match settings.manifest with
  | none => .ok .builtIn
  | some path =>
    match files.readText path with
    | .error _ => .error .unreadable
    | .ok text => Manifest.parse text

/-- The title of the site: the first that is not empty of the one set, the name of the schema and a
fixed one. -/
def siteTitle (settings : BuildSettings) (schema : Schema) : String :=
  ((settings.title.filter (!·.isEmpty)).or (some schema.name |>.filter (!·.isEmpty))).getD "API Reference"

def siteDirectory (settings : BuildSettings) (schema : Schema) : String :=
  settings.outputDirectory.getD schema.output

def makeOutput (files : FileSystem) (directory : String) : Except BuildError Unit × FileSystem :=
  let (result, files) := files.createDirectories directory
  (result.mapError fun _ => .output (.failed directory), files)

/-- What is left once the output directory is there: the stages, then the resources. -/
def generate (context : Context) (stages : List Stage) (provider : Provider) (manifest : Manifest) :
    Build (Report × Nat) := do
  let report ← Stage.runAll context stages
  let assets ← copyResources provider manifest
  return (report, assets)

/-- Builds the site of a schema with the given stages. Without a provider the resources are those of
the resources directory. -/
def build (settings : BuildSettings) (stages : List Stage) (provider : Option Provider) (schema : Schema)
    (files : FileSystem) : Except BuildError BuildResult × FileSystem :=
  match Registry.build schema with
  | .error error => (.error (.schema error), files)
  | .ok registry =>
    match settings.loadManifest files with
    | .error error => (.error (.manifest error), files)
    | .ok manifest =>
      let directory := settings.siteDirectory schema
      match makeOutput files directory with
      | (.error error, files) => (.error error, files)
      | (.ok (), files) =>
        let context : Context :=
          { schema, registry, title := settings.siteTitle schema, pagesDirectory := settings.pagesDirectory }
        let workshop : Workshop :=
          { disk := { files, output := { root := directory } }, renderer := { limit := settings.markdownLimit } }
        let (result, workshop) :=
          generate context stages (provider.getD (.directory settings.resourcesDirectory)) manifest workshop
        (result.map fun (report, assets) => ⟨report, assets, directory⟩, workshop.disk.files)

end BuildSettings

end SchemaDocs
