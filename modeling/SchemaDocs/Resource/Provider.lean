import SchemaDocs.Resource.Manifest
import SchemaDocs.Storage.FileSystem

/-!
# Resource providers

A provider loads the resource behind a locator, from memory, from a directory or in a way of its
own. A locator that could lead out of the directory is refused before anything is read.
-/

namespace SchemaDocs

/-- Why a resource is not loaded. -/
inductive ResourceError where
  | notFound (locator : String)
  | invalidLocator (locator : String)
  | unreadable (locator : String)
deriving DecidableEq, Repr

def ResourceError.message : ResourceError → String
  | .notFound locator => "Resource not found: " ++ locator
  | .invalidLocator locator => "Invalid resource locator: " ++ locator
  | .unreadable locator => "Failed to read resource " ++ locator

inductive Provider where
  | memory (resources : List (String × ByteArray))
  | directory (root : String)
  /-- Any other way to load the resource behind a locator. -/
  | custom (load : FileSystem → String → Except ResourceError ByteArray)

namespace Provider

/-- A provider with a placeholder for each resource of a manifest. -/
def placeholders (manifest : Manifest) : Provider :=
  .memory (manifest.pairs.map fun (source, _) => (source, ("/* " ++ source ++ " */\n").toUTF8))

def load (files : FileSystem) (locator : String) : Provider → Except ResourceError ByteArray
  | .memory resources =>
    match resources.lookup locator with
    | some content => .ok content
    | none => .error (.notFound locator)
  | .directory root =>
    if !Path.isDownward locator then .error (.invalidLocator locator)
    else
      match files.read (Path.join root locator) with
      | .ok content => .ok content
      | .error .notFound => .error (.notFound locator)
      | .error _ => .error (.unreadable locator)
  | .custom load => load files locator

end Provider

end SchemaDocs
