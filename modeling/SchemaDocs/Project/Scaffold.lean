import SchemaDocs.Storage.FileSystem

/-!
# Scaffolding a project

A new project gets a configuration that spells out the defaults, and sample pages beside it. Files
that exist are kept unless they are to be overwritten.
-/

namespace SchemaDocs.Scaffold

/-- Why a project is not scaffolded. -/
inductive Failure where
  | pagesDirectory
  | unwritable (path : String)
deriving DecidableEq, Repr

def Failure.message : Failure → String
  | .pagesDirectory => "Failed to create pages directory"
  | .unwritable path => "Failed to write " ++ path

def textOfLines (lines : List String) : String := String.join (lines.map (· ++ "\n"))

def configText : String := textOfLines [
  "# protodoc configuration",
  "",
  "[site]",
  "# Site title (defaults to the module name)",
  "# title = \"API Reference\"",
  "",
  "# Output directory (defaults to the module's own)",
  "# output = \"dist\"",
  "",
  "[input]",
  "# Resolved module exported by the compiler front-end",
  "module = \"module.json\"",
  "",
  "# Authored pages",
  "pages = \"pages\"",
  "",
  "[resources]",
  "# Application shell and third-party libraries",
  "dir = \"resources\"",
  "",
  "# Replace the built-in resource list",
  "# manifest = \"manifest.toml\"",
  "",
  "[markdown]",
  "# Larger comments and pages render as empty",
  "max_input_len = 1048576"]

def indexText : String := textOfLines [
  "---",
  "title: Overview",
  "---",
  "",
  "# Overview",
  "",
  "Welcome to the API documentation. The **API Reference** section lists every",
  "file, message, enum and service in the module."]

def guideText : String := textOfLines [
  "---",
  "title: Guide",
  "order: 1",
  "---",
  "",
  "# Guide",
  "",
  "Hand-written guides live under `pages/guide/`."]

def gettingStartedText : String := textOfLines [
  "---",
  "title: Getting Started",
  "order: 1",
  "---",
  "",
  "# Getting Started",
  "",
  "## Building",
  "",
  "```bash",
  "protodoc build",
  "```",
  "",
  "## Previewing",
  "",
  "```bash",
  "protodoc serve",
  "```",
  "",
  "## Ordering pages",
  "",
  "Pages with an `order` in their frontmatter come first, lowest first. The",
  "rest follow by file name. Set `nav: false` to publish a page without listing",
  "it in the navigation."]

def pagesDirectory (config : String) : String := Path.join (Path.directory config) "pages"

def projectFiles (config : String) : List (String × String) :=
  let pages := pagesDirectory config
  [(config, configText), (Path.join pages "index.md", indexText), (Path.join pages "guide/index.md", guideText),
   (Path.join pages "guide/getting-started.md", gettingStartedText)]

/-- Writes files in order, up to the first failure, and returns their number. -/
def writeFiles (overwrite : Bool) : List (String × String) → FileSystem → Except Failure Nat × FileSystem
  | [], files => (.ok 0, files)
  | (path, text) :: rest, files =>
    if files.contains path && !overwrite then writeFiles overwrite rest files
    else
      match files.write path text.toUTF8 with
      | .error _ => (.error (.unwritable path), files)
      | .ok files =>
        let (count, files) := writeFiles overwrite rest files
        (count.map (· + 1), files)

/-- Scaffolds a project and returns the number of files written. -/
def run (config : String) (overwrite : Bool) (files : FileSystem) : Except Failure Nat × FileSystem :=
  match files.createDirectories (Path.join (pagesDirectory config) "guide") with
  | (.error _, files) => (.error .pagesDirectory, files)
  | (.ok (), files) => writeFiles overwrite (projectFiles config) files

end SchemaDocs.Scaffold
