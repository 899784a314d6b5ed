/-!
# Trees of files

A tree is a file or a directory with named trees. The entries of a directory stand in ascending
order of their names, which is the order of a listing.
-/

namespace SchemaDocs

/-- A file, or a directory. -/
inductive Tree where
  | file (content : ByteArray)
  | directory (entries : List (String × Tree))
deriving Inhabited

namespace Tree

def putEntry (name : String) (tree : Tree) : List (String × Tree) → List (String × Tree)
  | [] => [(name, tree)]
  | (n, t) :: entries =>
    if name < n then (name, tree) :: (n, t) :: entries
    else if name = n then (name, tree) :: entries
    else (n, t) :: putEntry name tree entries

def get? : (tree : Tree) → (place : List String) → Option Tree
  | tree, [] => some tree
  | .directory entries, name :: place => (entries.lookup name).bind (get? · place)
  | .file _, _ :: _ => none

/-- Puts a tree at a place, in place of what is there. Nothing is put below a file. -/
def put : (tree : Tree) → (place : List String) → (new : Tree) → Tree
  | _, [], new => new
  | .directory entries, name :: place, new =>
    .directory (putEntry name (put ((entries.lookup name).getD (.directory [])) place new) entries)
  | .file content, _ :: _, _ => .file content

/-- Takes away what is at a place below this tree. -/
def remove : (tree : Tree) → (place : List String) → Tree
  | .directory entries, name :: place =>
    match place, entries.lookup name with
    | _, none => .directory entries
    | [], _ => .directory (entries.filter fun entry => entry.1 ≠ name)
    | _ :: _, some tree => .directory (putEntry name (remove tree place) entries)
  | tree, _ => tree

def isDirectory : Tree → Bool
  | .file _ => false
  | .directory _ => true

mutual

def files : Tree → List (List String × ByteArray)
  | .file content => [([], content)]
  | .directory entries => entryFiles entries

def entryFiles : List (String × Tree) → List (List String × ByteArray)
  | [] => []
  | (name, tree) :: entries => (files tree).map (fun file => (name :: file.1, file.2)) ++ entryFiles entries

end

end Tree

end SchemaDocs
