import SchemaDocs.Text.Split
import SchemaDocs.Toml.Record

/-!
# The resource manifest

The application shell and its libraries are files that every site gets unchanged. A manifest lists
them in bundles; a bundle gives its files a prefix where they come from and another where they go.
-/

namespace SchemaDocs

/-- Files with common prefixes. -/
structure Bundle where
  name : String
  sourceBase : String := ""
  targetBase : String := ""
  files : List String
deriving DecidableEq, Repr

structure Manifest where
  bundles : List Bundle
deriving DecidableEq, Repr

inductive ManifestError where
  | unreadable
  | malformed
  | targetNotRelative (target : String)
deriving DecidableEq, Repr

def ManifestError.message : ManifestError → String
  | .unreadable => "Invalid resource manifest: unreadable"
  | .malformed => "Invalid resource manifest: malformed"
  | .targetNotRelative target => "Invalid resource manifest: target '" ++ target ++ "' is not a relative path"

namespace Bundle

def ofRecord? (record : Toml.Record) : Option Bundle := do
  let name ← record.required? 0 "name" (·.text?)
  let sourceBase ← record.withDefault? 1 "source_base" (·.text?) ""
  let targetBase ← record.withDefault? 2 "target_base" (·.text?) ""
  let files ← record.required? 3 "files" (·.texts?)
  return { name, sourceBase, targetBase, files }

def pairs (bundle : Bundle) : List (String × String) :=
  bundle.files.map fun file => (bundle.sourceBase ++ file, bundle.targetBase ++ file)

end Bundle

namespace Manifest

def pairs (manifest : Manifest) : List (String × String) := manifest.bundles.flatMap Bundle.pairs

def size (manifest : Manifest) : Nat :=
  manifest.bundles.foldr (fun bundle total => bundle.files.length + total) 0

/-- Whether a target stays below the directory that it is seen from: it has no empty name and no way
up. -/
def isRelativeTarget (target : String) : Bool :=
  (Text.pieces '/' target).all fun name => name ≠ "" && name ≠ ".."

def ofTable? (table : Toml.Table) : Option Manifest := do
  let records ← (Toml.Record.named table).withDefault? 0 "bundle" (·.records?) []
  return ⟨← records.mapM Bundle.ofRecord?⟩

/-- Reads a manifest whose targets are all relative. -/
def parse (text : String) : Except ManifestError Manifest :=
  match (Toml.parse? text).bind ofTable? with
  | none => .error .malformed
  | some manifest =>
    match manifest.pairs.find? fun pair => !isRelativeTarget pair.2 with
    | some (_, target) => .error (.targetNotRelative target)
    | none => .ok manifest

def shellBundle : Bundle where
  name := "app"
  sourceBase := "app/"
  files := [
    "index.html",
    "partials/page.html",
    "partials/type-list.html",
    "partials/type-detail.html",
    "partials/proto-detail.html",
    "partials/enum.html",
    "partials/message.html",
    "partials/service.html",
    "partials/type-ref.html",
    "partials/scalar-value-types.html",
    "js/app.js",
    "js/controllers.js",
    "js/filters.js",
    "js/directives.js",
    "js/factories.js",
    "js/fuzzy.js",
    "css/theme.css"]

def libraryBundle : Bundle where
  name := "libs"
  sourceBase := "webjars/"
  targetBase := "libs/"
  files := [
    "jquery/1.11.1/jquery.min.js",
    "bootstrap/3.3.5/js/bootstrap.min.js",
    "bootstrap/3.3.5/css/bootstrap.min.css",
    "bootstrap/3.3.5/css/bootstrap-theme.min.css",
    "angular-material/1.1.1/angular-material.min.css",
    "bootstrap/3.3.5/fonts/glyphicons-halflings-regular.woff2",
    "bootstrap/3.3.5/fonts/glyphicons-halflings-regular.svg",
    "bootstrap/3.3.5/fonts/glyphicons-halflings-regular.woff",
    "bootstrap/3.3.5/fonts/glyphicons-halflings-regular.eot",
    "bootstrap/3.3.5/fonts/glyphicons-halflings-regular.ttf",
    "angular-bootstrap-nav-tree-gildo/0.1.0/dist/abn_tree_directive.js",
    "angular-bootstrap-nav-tree-gildo/0.1.0/dist/abn_tree.css",
    "angularjs/1.5.8/angular.min.js",
    "angularjs/1.5.8/angular-animate.min.js",
    "angularjs/1.5.8/angular-route.min.js",
    "angularjs/1.5.8/angular-aria.min.js",
    "angularjs/1.5.8/angular-messages.min.js",
    "angularjs/1.5.8/angular-sanitize.min.js",
    "angular-material/1.1.1/angular-material.min.js"]

/-- The manifest of a site that has none of its own. -/
def builtIn : Manifest := ⟨[shellBundle, libraryBundle]⟩

end Manifest

end SchemaDocs
