import SchemaDocs.Json.Printer
import SchemaDocs.Storage.FileSystem

/-!
# The output directory

Generated files go to a directory under relative paths. A path is claimed before it is written, and
each path is claimed once: a second claim means that two parts of the site want the same file.
-/

namespace SchemaDocs

/-- Why a file is not written. -/
inductive OutputError where
  | notRelative (path : String)
  | duplicate (path : String)
  /-- Writing the file, or making its directory, fails at this path. -/
  | failed (path : String)
deriving DecidableEq, Repr

def OutputError.message : OutputError → String
  | .notRelative path => "Failed to write output: " ++ path ++ ": not a relative output path"
  | .duplicate path => "Output path written twice: " ++ path
  | .failed path => "Failed to write output: " ++ path

/-- Whether a path names a file below the output directory in the one way that is accepted: all its
names are there, and none of them is a dot or two. -/
def isOutputPath (path : String) : Bool :=
  (Text.pieces '/' path).all fun name => name ≠ "" && name ≠ "." && name ≠ ".."

/-- Puts a path at its place among paths in ascending order, unless it is there. -/
def insertPath (path : String) : List String → List String
  | [] => [path]
  | p :: paths => if path < p then path :: p :: paths else if path = p then p :: paths else p :: insertPath path paths

/-- An output directory, and the paths claimed in it in ascending order. -/
structure OutputDirectory where
  root : String
  written : List String := []

/-- The files together with the output directory among them. -/
structure Disk where
  files : FileSystem
  output : OutputDirectory

namespace OutputDirectory

def claim (output : OutputDirectory) (path : String) : Except OutputError OutputDirectory :=
  if !isOutputPath path then .error (.notRelative path)
  else if output.written.contains path then .error (.duplicate path)
  else .ok { output with written := insertPath path output.written }

/-- Where the file of an output path lies. -/
def location (output : OutputDirectory) (path : String) : String :=
  (Text.pieces '/' path).foldl Path.join output.root

end OutputDirectory

namespace Disk

/-- Writes a file, after its directory is made. A claim stays even if writing fails. -/
def writeBytes (path : String) (content : ByteArray) (disk : Disk) : Except OutputError Unit × Disk :=
  match disk.output.claim path with
  | .error error => (.error error, disk)
  | .ok output =>
    let location := output.location path
    let directory := Path.directory location
    match disk.files.createDirectories directory with
    | (.error _, files) => (.error (.failed directory), { files, output })
    | (.ok (), files) =>
      match files.write location content with
      | .error _ => (.error (.failed location), { files, output })
      | .ok files => (.ok (), { files, output })

def jsonBytes (value : Json.Value) : ByteArray := (value.pretty ++ "\n").toUTF8

def writeJson (path : String) (value : Json.Value) (disk : Disk) : Except OutputError Unit × Disk :=
  disk.writeBytes path (jsonBytes value)

end Disk

end SchemaDocs
