import SchemaDocs.Json.Value

/-!
# The navigation tree

Authored pages and reference documents share one tree. Its nodes are numbered in the order in which
they were added, the root first, and refer to each other by number. Siblings are told apart by their
origin and name together, so that a page and a reference entry of one name can stand side by side.
-/

namespace SchemaDocs

inductive Origin where
  | page
  | reference
deriving DecidableEq, Repr

def Origin.tag : Origin → String
  | .page => "page"
  | .reference => "reference"

/-- The place of an origin among siblings: pages come first. -/
def Origin.rank : Origin → Nat
  | .page => 0
  | .reference => 1

/-- What a node is; a folder holds the pages of a directory. -/
inductive NodeKind where
  | root
  | folder
  | page
  | referenceRoot
  | referenceGroup
  | reference
deriving DecidableEq, Repr

namespace NodeKind

def tag : NodeKind → String
  | .root => "root"
  | .folder => "section"
  | .page => "page"
  | .referenceRoot => "reference-root"
  | .referenceGroup => "reference-group"
  | .reference => "reference"

def origin : NodeKind → Origin
  | .root | .folder | .page => .page
  | .referenceRoot | .referenceGroup | .reference => .reference

end NodeKind

/-- What a node shows. -/
structure NavEntry where
  kind : NodeKind
  /-- Identity among all nodes of the origin. -/
  id : String
  /-- Identity among the siblings of the origin. -/
  name : String
  title : String
  /-- Order among siblings, the least first. -/
  order : Option Int := none
  /-- Path of the node's document. -/
  document : Option String := none
deriving DecidableEq, Repr

namespace NavEntry

def origin (entry : NavEntry) : Origin := entry.kind.origin

/-- A declared order comes before none. -/
def compareOrder : Option Int → Option Int → Ordering
  | some a, some b => compare a b
  | some _, none => .lt
  | none, some _ => .gt
  | none, none => .eq

def compareSiblings (a b : NavEntry) : Ordering :=
  (compare a.origin.rank b.origin.rank).then ((compareOrder a.order b.order).then (compare a.id b.id))

end NavEntry

/-- A node with its links. -/
structure NavNode extends NavEntry where
  parent : Option Nat := none
  children : List Nat := []
deriving DecidableEq, Repr

instance : Inhabited NavNode := ⟨{ kind := .page, id := "", name := "", title := "" }⟩

/-- Two entries that cannot stand side by side: the one there, and its parent. -/
structure Collision where
  parent : String
  id : String
deriving DecidableEq, Repr

def Collision.message (collision : Collision) : String :=
  "Duplicate navigation entry '" ++ collision.id ++ "' under '" ++ collision.parent ++ "'"

/-- A node with all that is below it, as readers see it. -/
inductive TreeView where
  | node (entry : NavEntry) (children : List TreeView)
deriving Repr

/-- A navigation tree. -/
structure PageTree where
  nodes : Array NavNode
deriving DecidableEq, Repr

namespace PageTree

def root : Nat := 0

def new (title : String) : PageTree := ⟨#[{ kind := .root, id := "", name := "", title }]⟩

def node (tree : PageTree) (index : Nat) : NavNode := tree.nodes.getD index default

def size (tree : PageTree) : Nat := tree.nodes.size

def modify (tree : PageTree) (index : Nat) (change : NavNode → NavNode) : PageTree :=
  ⟨tree.nodes.modify index change⟩

def edit (tree : PageTree) (index : Nat) (change : NavEntry → NavEntry) : PageTree :=
  tree.modify index fun node => { node with toNavEntry := change node.toNavEntry }

def childNamed? (tree : PageTree) (parent : Nat) (origin : Origin) (name : String) : Option Nat :=
  (tree.node parent).children.find? fun child =>
    let entry := (tree.node child).toNavEntry
    entry.origin = origin && entry.name = name

def find? (tree : PageTree) (origin : Origin) (id : String) : Option Nat :=
  tree.nodes.findIdx? fun node => node.toNavEntry.origin = origin && node.id = id && node.kind ≠ .root

/-- The collision that a new child of this origin and name makes, if it makes one. -/
def collision? (tree : PageTree) (parent : Nat) (origin : Origin) (name : String) : Option Collision :=
  (tree.childNamed? parent origin name).map fun child => ⟨(tree.node parent).id, (tree.node child).id⟩

def addChild (tree : PageTree) (parent : Nat) (entry : NavEntry) : Except Collision (Nat × PageTree) :=
  match tree.collision? parent entry.origin entry.name with
  | some collision => .error collision
  | none =>
    let index := tree.size
    let grown : PageTree := ⟨tree.nodes.push { entry with parent := some parent }⟩
    .ok (index, grown.modify parent fun node => { node with children := node.children ++ [index] })

/-- Whether a node is met on the way up from another, within `fuel` steps. -/
def isMetAbove (tree : PageTree) (ancestor : Nat) : (fuel : Nat) → (index : Nat) → Bool
  | 0, index => index = ancestor
  | fuel + 1, index =>
    index = ancestor ||
      match (tree.node index).parent with
      | some parent => isMetAbove tree ancestor fuel parent
      | none => false

def isAncestor (tree : PageTree) (ancestor index : Nat) : Bool := tree.isMetAbove ancestor tree.size index

/-- Takes a node with all below it to another parent. The root stays, and no node goes below itself. -/
def moveTo (tree : PageTree) (index newParent : Nat) : Except Collision PageTree :=
  let moved := tree.node index
  if index = root || tree.isAncestor index newParent then .error ⟨(tree.node newParent).id, moved.id⟩
  else if moved.parent = some newParent then .ok tree
  else
    match tree.collision? newParent moved.toNavEntry.origin moved.name with
    | some collision => .error collision
    | none =>
      let freed := match moved.parent with
        | some old => tree.modify old fun node => { node with children := node.children.filter (· ≠ index) }
        | none => tree
      let hung := freed.modify index fun node => { node with parent := some newParent }
      .ok (hung.modify newParent fun node => { node with children := node.children ++ [index] })

def mayPrecede (tree : PageTree) (a b : Nat) : Bool :=
  NavEntry.compareSiblings (tree.node a).toNavEntry (tree.node b).toNavEntry ≠ .gt

/-- Puts the children of each node in order; those that are alike keep theirs. -/
def sort (tree : PageTree) : PageTree :=
  ⟨tree.nodes.map fun node => { node with children := node.children.mergeSort tree.mayPrecede }⟩

def viewBelow (tree : PageTree) : (fuel : Nat) → (index : Nat) → TreeView
  | 0, index => .node (tree.node index).toNavEntry []
  | fuel + 1, index => .node (tree.node index).toNavEntry ((tree.node index).children.map (viewBelow tree fuel))

/-- The tree as readers see it. No way down is longer than the number of nodes. -/
def view (tree : PageTree) : TreeView := tree.viewBelow tree.size root

end PageTree

namespace TreeView

open Json (Value)

mutual

def toJson : TreeView → Value
  | .node entry children =>
    .object
      ([("id", .string entry.id), ("title", .string entry.title), ("kind", .string entry.kind.tag),
        ("origin", .string entry.origin.tag)] ++
        (entry.document.map fun path => ("ref", Value.string path)).toList ++
        [("children", .array (listToJson children))])

def listToJson : List TreeView → List Value
  | [] => []
  | view :: views => toJson view :: listToJson views

end

end TreeView

end SchemaDocs
