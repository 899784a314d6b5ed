import SchemaDocs.Site.Build
import SchemaDocs.Toml.Record

/-!
# The configuration of a project

A configuration is a TOML file with everything that a build needs, all of it with defaults. Its
paths are seen from the directory that the file lies in, so a build does not depend on where it is
started.
-/

namespace SchemaDocs

structure SiteSection where
  title : Option String := none
  output : Option String := none
deriving DecidableEq, Repr

structure InputSection where
  module : String := "module.json"
  pages : String := "pages"
deriving DecidableEq, Repr

structure ResourcesSection where
  directory : String := "resources"
  manifest : Option String := none
deriving DecidableEq, Repr

/-- A configuration, and the directory that its paths are seen from. -/
structure Config where
  base : String := ""
  site : SiteSection := {}
  input : InputSection := {}
  resources : ResourcesSection := {}
  /-- The greatest number of bytes of a text in Markdown. -/
  markdownLimit : Nat := Markdown.defaultLimit
deriving DecidableEq, Repr

inductive ConfigError where
  | unreadable (path : String)
  | malformed (path : String)
deriving DecidableEq, Repr

def ConfigError.message : ConfigError → String
  | .unreadable path => "Failed to read " ++ path
  | .malformed path => "Failed to parse " ++ path

namespace SiteSection

def ofRecord? (record : Toml.Record) : Option SiteSection := do
  let title ← record.optional? 0 "title" (·.text?)
  let output ← record.optional? 1 "output" (·.text?)
  return { title, output }

end SiteSection

namespace InputSection

def ofRecord? (record : Toml.Record) : Option InputSection := do
  let defaults : InputSection := {}
  let module ← record.withDefault? 0 "module" (·.text?) defaults.module
  let pages ← record.withDefault? 1 "pages" (·.text?) defaults.pages
  return { module, pages }

end InputSection

namespace ResourcesSection

def ofRecord? (record : Toml.Record) : Option ResourcesSection := do
  let defaults : ResourcesSection := {}
  let directory ← record.withDefault? 0 "dir" (·.text?) defaults.directory
  let manifest ← record.optional? 1 "manifest" (·.text?)
  return { directory, manifest }

end ResourcesSection

namespace Config

def limitOfRecord? (record : Toml.Record) : Option Nat :=
  record.withDefault? 0 "max_input_len" (·.nat?) Markdown.defaultLimit

def ofTable? (table : Toml.Table) : Option Config := do
  let part? {α : Type} (key : String) (read : Toml.Record → Option α) (default : α) : Option α :=
    (Toml.Record.named table).withDefault? 0 key (fun value => (Toml.Record.ofValue? value).bind read) default
  let site ← part? "site" SiteSection.ofRecord? {}
  let input ← part? "input" InputSection.ofRecord? {}
  let resources ← part? "resources" ResourcesSection.ofRecord? {}
  let markdownLimit ← part? "markdown" limitOfRecord? Markdown.defaultLimit
  return { site, input, resources, markdownLimit }

def parse? (text : String) : Option Config := (Toml.parse? text).bind ofTable?

/-- The configuration in a file. Where there is no file everything has its default. -/
def load (files : FileSystem) (path : String) : Except ConfigError Config :=
  let base := Path.directory path
  if !files.contains path then .ok { base }
  else
    match files.readText path with
    | .error _ => .error (.unreadable path)
    | .ok text =>
      match parse? text with
      | none => .error (.malformed path)
      | some config => .ok { config with base }

/-- A path of the configuration as it is seen from the working directory. -/
def resolve (config : Config) (path : String) : String := Path.join config.base path

def modulePath (config : Config) : String := config.resolve config.input.module

/-- The settings of a build. An output directory given for this run goes before the configured one
and is not seen from the configuration. -/
def buildSettings (config : Config) (output : Option String) : BuildSettings where
  outputDirectory := output.or (config.site.output.map config.resolve)
  pagesDirectory := some (config.resolve config.input.pages)
  resourcesDirectory := config.resolve config.resources.directory
  manifest := config.resources.manifest.map config.resolve
  title := config.site.title
  markdownLimit := config.markdownLimit

end Config

end SchemaDocs
