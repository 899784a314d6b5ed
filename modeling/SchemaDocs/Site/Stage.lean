import SchemaDocs.Navigation.Merge
import SchemaDocs.Reference.Document
import SchemaDocs.Resource.Provider
import SchemaDocs.Site.Output

/-!
# Stages

A site is generated in stages, each of which writes documents of its own. What they share is read
only, apart from the files they write and the renderer, which keeps what it has rendered. The stages
follow each other, but the documents of a kind are written by threads: in any order, and where one
cannot be written, some of the others are left out.
-/

namespace SchemaDocs

open Json (Value)
open Markdown (Renderer TocEntry)

/-- Why a site is not built. -/
inductive BuildError where
  | schema (error : SchemaError)
  | manifest (error : ManifestError)
  | output (error : OutputError)
  | navigation (collision : Collision)
  | resource (error : ResourceError)

def BuildError.message : BuildError → String
  | .schema error => "Invalid schema model: " ++ error.message
  | .manifest error => error.message
  | .output error => error.message
  | .navigation collision => collision.message
  | .resource error => "Static resource error: " ++ error.message

/-- What changes during a build. -/
structure Workshop where
  disk : Disk
  renderer : Renderer := {}

/-- A step of a build. What it has written before it fails stays. -/
abbrev Build := ExceptT BuildError (StateM Workshop)

namespace Build

def render {α : Type} (rendering : StateM Renderer α) : Build α := fun workshop =>
  let (value, renderer) := rendering workshop.renderer
  (.ok value, { workshop with renderer })

def writeBytes (path : String) (content : ByteArray) : Build Unit := fun workshop =>
  let (result, disk) := workshop.disk.writeBytes path content
  (result.mapError .output, { workshop with disk })

def writeJson (path : String) (value : Value) : Build Unit := writeBytes path (Disk.jsonBytes value)

/-- Runs a step to its end and gives the reason why it has failed, if it has. -/
def failure? (step : Build Unit) : Build (Option BuildError) := fun workshop =>
  match step workshop with
  | (.ok (), workshop) => (.ok none, workshop)
  | (.error error, workshop) => (.ok (some error), workshop)

end Build

/-- What threads make of the tasks that they share. -/
structure Schedule where
  /-- Which task comes next, as its position among those that are left. A task that is picked is run to its
  end, although another may have failed. -/
  picks : List Nat := []
  /-- Which of the failures is reported, as its position among them. -/
  reported : Nat := 0

namespace Build

variable {α : Type}

/-- Runs tasks as they are picked, behind others that have failed for the given reasons. Without a failure
the tasks that are not picked follow in order; otherwise they are left out. -/
def racing (run : α → Build Unit) (reported : Nat) : List BuildError → List Nat → List α → Build Unit
  | [], [], tasks => tasks.forM run
  | first :: failures, [], _ => throw ((first :: failures).getD reported first)
  | failures, pick :: picks, tasks =>
    match tasks[pick]? with
    | none => racing run reported failures picks tasks
    | some task => do
      let failed ← failure? (run task)
      racing run reported (failures ++ failed.toList) picks (tasks.eraseIdx pick)

/-- Runs tasks in parallel. -/
def race (run : α → Build Unit) (schedule : Schedule) (tasks : List α) : Build Unit :=
  racing run schedule.reported [] schedule.picks tasks

end Build

/-- What the stages of a site start from. -/
structure Context where
  schema : Schema
  registry : Registry
  title : String
  /-- Where authored pages are, if there are any. -/
  pagesDirectory : Option String

structure Report where
  /-- Documents of the reference and the navigation. -/
  documents : Nat := 0
  /-- Authored pages. -/
  pages : Nat := 0
deriving DecidableEq, Repr

def Report.add (a b : Report) : Report := ⟨a.documents + b.documents, a.pages + b.pages⟩

structure Stage where
  name : String
  run : Context → Build Report

namespace Stage

/-! ### Reference -/

def index : Stage where
  name := "index"
  run context := do
    let view ← Build.render (indexView context.registry context.schema.name context.title)
    Build.writeJson "data/index.json" view.toJson
    return { documents := 1 }

def writeEntry (context : Context) (entry : Entry) : Build Unit := do
  let document ← Build.render (entryDocument context.registry entry)
  Build.writeJson entry.path document

/-- Writes the documents of all declarations of a kind in parallel. The schedule does not matter where all
of them can be written. -/
def ofKind (name : String) (kind : Kind) (schedule : Schedule := {}) : Stage where
  name
  run context := do
    let entries := context.registry.declaring kind
    Build.race (writeEntry context) schedule entries
    return { documents := entries.length }

def enums (schedule : Schedule := {}) : Stage := ofKind "enums" .enum schedule

def messages (schedule : Schedule := {}) : Stage := ofKind "messages" .message schedule

def services (schedule : Schedule := {}) : Stage := ofKind "services" .service schedule

def protos (schedule : Schedule := {}) : Stage := ofKind "protos" .proto schedule

/-! ### Pages -/

/-- The document of the navigation tree. No page has a name that begins like this one. -/
def treePath : String := "pages/_tree.json"

def tocJson (entry : TocEntry) : Value :=
  .object [("title", .string entry.title), ("id", .string entry.id), ("level", .ofInt entry.level)]

def pageDocument (source : SourcePage) : StateM Renderer Value := do
  let content ← Renderer.render source.page.content
  return .object
    ([("id", .string source.id), ("title", .string source.title)] ++
      textMember "description" source.page.description ++
      [("content", .string content), ("toc", .array (source.page.toc.map tocJson))])

def writePage (source : SourcePage) : Build Unit := do
  let document ← Build.render (pageDocument source)
  Build.writeJson source.documentPath document

def sources (context : Context) : Build (List SourcePage) := fun workshop =>
  (.ok ((context.pagesDirectory.map (Discovery.discover workshop.disk.files)).getD []), workshop)

/-- Writes the documents of the pages and the navigation tree. Nothing is written if the tree has a
collision. -/
def pages : Stage where
  name := "pages"
  run context := do
    let sources ← sources context
    match PageTree.merge context.title sources context.registry with
    | .error collision => throw (.navigation collision)
    | .ok tree =>
      sources.forM writePage
      Build.writeJson treePath tree.view.toJson
      return { documents := 1, pages := sources.length }

/-- The stages of every site, in order, with a schedule for each kind. -/
def scheduled (schedule : Kind → Schedule) : List Stage :=
  [index, enums (schedule .enum), messages (schedule .message), services (schedule .service), protos (schedule .proto), pages]

/-- The stages of every site, where the documents of a kind are written one by one, up to the first failure. -/
def standard : List Stage := scheduled fun _ => {}

def runAll (context : Context) (stages : List Stage) : Build Report :=
  stages.foldlM (fun report stage => do return report.add (← stage.run context)) {}

end Stage

/-! ### Resources -/

def copyResource (provider : Provider) (pair : String × String) : Build Unit := fun workshop =>
  match provider.load workshop.disk.files pair.1 with
  | .error error => (.error (.resource error), workshop)
  | .ok content => Build.writeBytes pair.2 content workshop

/-- Copies the resources of a manifest in order, up to the first failure, and returns their number. -/
def copyResources (provider : Provider) (manifest : Manifest) : Build Nat := do
  manifest.pairs.forM (copyResource provider)
  return manifest.size

end SchemaDocs
