import SchemaDocs.Storage.Path
import SchemaDocs.Storage.Tree

/-!
# The file system

A tree of files with a working directory. A path is followed name by name, and each name on the way
has to be a directory, also where two dots lead back out of it.
-/

namespace SchemaDocs

/-- All files, and the place that relative paths begin at. -/
structure FileSystem where
  root : Tree := .directory []
  workingDirectory : List String := []

inductive FileError where
  | notFound
  | notDirectory
  | isDirectory
  | alreadyExists
  /-- A name or the path is too long, or the path holds a NUL character. -/
  | invalidPath
  | notText
deriving DecidableEq, Repr

namespace FileSystem

def maxNameSize : Nat := 255

def maxPathSize : Nat := 4095

/-- Follows names from a place; the last one need not exist. -/
def follow (root : Tree) : (place : List String) → (names : List String) → Except FileError (List String)
  | place, [] => .ok place
  | place, name :: names =>
    match root.get? place with
    | none => .error .notFound
    | some (.file _) => .error .notDirectory
    | some (.directory _) =>
      if name = "" || name = "." then follow root place names
      else if name = ".." then follow root place.dropLast names
      else if maxNameSize < name.utf8ByteSize then .error .invalidPath
      else follow root (place ++ [name]) names

def locate (fs : FileSystem) (path : String) : Except FileError (List String) :=
  if path = "" then .error .notFound
  else if maxPathSize < path.utf8ByteSize || path.toList.contains (Char.ofNat 0) then .error .invalidPath
  else follow fs.root (if Path.isAbsolute path then [] else fs.workingDirectory) (Text.pieces '/' path)

def find (fs : FileSystem) (path : String) : Except FileError Tree := do
  match fs.root.get? (← fs.locate path) with
  | some tree => .ok tree
  | none => .error .notFound

def contains (fs : FileSystem) (path : String) : Bool := (fs.find path).toOption.isSome

def isDirectory (fs : FileSystem) (path : String) : Bool := (fs.find path).toOption.any Tree.isDirectory

def read (fs : FileSystem) (path : String) : Except FileError ByteArray := do
  match ← fs.find path with
  | .file content => .ok content
  | .directory _ => .error .isDirectory

def readText (fs : FileSystem) (path : String) : Except FileError String := do
  match String.fromUTF8? (← fs.read path) with
  | some text => .ok text
  | none => .error .notText

/-- Writes a file into an existing directory. What the file held before is lost. -/
def write (fs : FileSystem) (path : String) (content : ByteArray) : Except FileError FileSystem := do
  let place ← fs.locate path
  match fs.root.get? place with
  | some (.directory _) => .error .isDirectory
  | _ => .ok { fs with root := fs.root.put place (.file content) }

/-- Makes a directory where nothing is. Slashes at the end of the path do not count, except to its
length. -/
def createDirectory (fs : FileSystem) (path : String) : Except FileError FileSystem :=
  if maxPathSize < path.utf8ByteSize then .error .invalidPath
  else do
    let bare := Path.withoutTrailingSlashes path
    let place ← fs.locate (if bare = "" then path else bare)
    match fs.root.get? place with
    | some _ => .error .alreadyExists
    | none => .ok { fs with root := fs.root.put place (.directory []) }

/-- Makes a directory and those that it lies in, unless they exist; `fuel` bounds the number of
names. Those that were made before a failure stay. -/
def createAncestors : (fuel : Nat) → (path : String) → FileSystem → Except FileError Unit × FileSystem
  | 0, _, fs => (.error .notFound, fs)
  | fuel + 1, path, fs =>
    let settled (error : FileError) (fs : FileSystem) : Except FileError Unit × FileSystem :=
      (if fs.isDirectory path then .ok () else .error error, fs)
    if path = "" then (.ok (), fs)
    else
      match fs.createDirectory path with
      | .ok fs => (.ok (), fs)
      | .error .notFound =>
        match Path.parent? path with
        | none => (.error .notFound, fs)
        | some parent =>
          match createAncestors fuel parent fs with
          | (.error error, fs) => (.error error, fs)
          | (.ok (), fs) =>
            match fs.createDirectory path with
            | .ok fs => (.ok (), fs)
            | .error error => settled error fs
      | .error error => settled error fs

/-- Makes a directory and those that it lies in, unless they exist. -/
def createDirectories (path : String) (fs : FileSystem) : Except FileError Unit × FileSystem :=
  createAncestors (path.length + 1) path fs

end FileSystem

end SchemaDocs
