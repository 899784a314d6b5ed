import SchemaDocs.Navigation.Tree
import SchemaDocs.Page.Discovery
import SchemaDocs.Schema.Registry
import SchemaDocs.Text.LetterCase

/-!
# Merging pages and reference entries

Pages are placed by their directories first, then each goes below the folder that it declares, if
there is one. The reference entries follow in a subtree of their own, grouped by kind.
-/

namespace SchemaDocs

namespace PageTree

/-- The title of a folder that has no page of its own. -/
def folderTitle (name : String) : String := String.ofList (Text.capitalize name.toList)

/-- The folder below `current` at the end of a way of directories, made where it is missing.
`passed` is the way to `current`. -/
def ensureFolder (tree : PageTree) (current : Nat) (passed : List String) :
    List String → Except Collision (Nat × PageTree)
  | [] => .ok (current, tree)
  | directory :: directories =>
    let way := passed ++ [directory]
    match tree.childNamed? current .page directory with
    | some child =>
      if (tree.node child).kind = .folder then tree.ensureFolder child way directories
      else .error ⟨(tree.node current).id, (tree.node child).id⟩
    | none => do
      let (child, tree) ← tree.addChild current
        { kind := .folder, id := String.intercalate "/" way, name := directory, title := folderTitle directory }
      tree.ensureFolder child way directories

def folderOf (tree : PageTree) (source : SourcePage) : Except Collision (Nat × PageTree) :=
  tree.ensureFolder root [] source.directories

/-- Lets a folder show the page that describes it. The root keeps its title. -/
def describe (tree : PageTree) (index : Nat) (source : SourcePage) : PageTree :=
  tree.edit index fun entry =>
    let entry := { entry with document := some source.documentPath }
    if index = root then entry
    else { entry with title := source.page.title.getD entry.title, order := source.page.order }

def place (tree : PageTree) (source : SourcePage) : Except Collision PageTree := do
  if source.isIndex then
    let (index, tree) ← tree.folderOf source
    return tree.describe index source
  else if source.page.inNav then
    let (parent, tree) ← tree.folderOf source
    let (_, tree) ← tree.addChild parent
      { kind := .page, id := source.id, name := source.name, title := source.title,
        order := source.page.order, document := some source.documentPath }
    return tree
  else return tree

/-- Places pages by their directories in turn. A directory is described once; `described` are those
that are so far. -/
def placeAll (tree : PageTree) (described : List String) : List SourcePage → Except Collision PageTree
  | [] => .ok tree
  | source :: sources => do
    if source.isIndex && described.contains source.id then throw ⟨source.id, "index"⟩
    let tree ← tree.place source
    tree.placeAll (if source.isIndex then source.id :: described else described) sources

/-- The declared path of a folder without slashes at its ends. -/
def trimSlashes (path : String) : String :=
  let text := path.toList.dropWhile (· = '/')
  String.ofList (text.reverse.dropWhile (· = '/')).reverse

/-- The folder with a declared path; the empty path is that of the root. -/
def declaredFolder? (tree : PageTree) (declared : String) : Option Nat :=
  let path := trimSlashes declared
  if path.isEmpty then some root
  else (tree.find? .page path).filter fun index => (tree.node index).kind = .folder

/-- Takes a page to the folder that it declares. Where there is none it stays. -/
def rehome (tree : PageTree) (source : SourcePage) : Except Collision PageTree :=
  if source.isIndex || !source.page.inNav then .ok tree
  else
    match source.page.declaredParent.bind tree.declaredFolder?, tree.find? .page source.id with
    | some folder, some index => tree.moveTo index folder
    | _, _ => .ok tree

/-- The title of the reference entries of a kind. -/
def groupTitle : Kind → String
  | .proto => "Files"
  | .message => "Messages"
  | .enum => "Enums"
  | .service => "Services"

/-- Adds the reference entries of one kind below the root of the reference. -/
def addGroup (registry : Registry) (reference : Nat) (tree : PageTree) (position : Nat × Kind) :
    Except Collision PageTree := do
  let (rank, kind) := position
  let entries := registry.ofKind kind
  if entries.isEmpty then return tree
  let id := "reference/" ++ kind.tag
  let (group, tree) ← tree.addChild reference
    { kind := .referenceGroup, id, name := kind.tag, title := groupTitle kind, order := some rank }
  entries.foldlM (fun tree entry => do
    let (_, tree) ← tree.addChild group
      { kind := .reference, id := id ++ "/" ++ entry.qualifiedName, name := entry.qualifiedName,
        title := entry.qualifiedName, document := some entry.path }
    return tree) tree

def rankedKinds : List (Nat × Kind) := [(0, .proto), (1, .message), (2, .enum), (3, .service)]

def addReference (tree : PageTree) (registry : Registry) : Except Collision PageTree := do
  let (reference, tree) ← tree.addChild root
    { kind := .referenceRoot, id := "reference", name := "reference", title := "API Reference" }
  rankedKinds.foldlM (addGroup registry reference) tree

/-- The tree of all pages and reference entries, in order. -/
def merge (title : String) (sources : List SourcePage) (registry : Registry) : Except Collision PageTree := do
  let placed ← (new title).placeAll [] sources
  let rehomed ← sources.foldlM rehome placed
  let merged ← rehomed.addReference registry
  return merged.sort

end PageTree

end SchemaDocs
