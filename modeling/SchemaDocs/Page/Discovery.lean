import SchemaDocs.Page.Basic
import SchemaDocs.Storage.FileSystem

/-!
# Finding pages

Pages are the Markdown files below a directory. An `index` page describes its directory and is known
by the directory's path, any other page by its own path without the extension. Pages that cannot be
read are left out, and where an `index` page cannot be read, so is the rest of its directory.
-/

namespace SchemaDocs

structure SourcePage where
  /-- Path of the page without the extension, or of the directory that it describes. -/
  id : String
  /-- The names that lead to the page; the last has no extension. -/
  segments : List String
  /-- Whether the page describes its directory. -/
  isIndex : Bool
  page : Page
deriving DecidableEq, Repr

namespace SourcePage

def documentPath (source : SourcePage) : String :=
  if source.isIndex then
    if source.id.isEmpty then "pages/index.json" else "pages/" ++ source.id ++ "/index.json"
  else "pages/" ++ source.id ++ ".json"

def name (source : SourcePage) : String := source.segments.getLast?.getD ""

def directories (source : SourcePage) : List String := source.segments.dropLast

def title (source : SourcePage) : String := source.page.title.getD source.name

end SourcePage

namespace Discovery

def extensions : List String := ["md", "markdown"]

/-- Whether files and directories of this name are passed over. -/
def isReserved (name : String) : Bool :=
  match name.toList with
  | c :: _ => c = '_' || c = '.'
  | [] => false

/-- The page that a file holds; a file that cannot be read as a page gives none. -/
def readPage? (content : ByteArray) : Option Page :=
  (String.fromUTF8? content).bind fun source => (Page.parse source).toOption

/-- A file with the extension of a page. -/
structure Candidate where
  segments : List String
  content : ByteArray

def candidate? (directories : List String) (name : String) (content : ByteArray) : Option Candidate :=
  match Path.splitExtension name with
  | (stem, some extension) => if extensions.contains extension then some ⟨directories ++ [stem], content⟩ else none
  | (_, none) => none

mutual

def candidates (directories : List String) (name : String) : Tree → List Candidate
  | .file content => (candidate? directories name content).toList
  | .directory entries => entryCandidates (directories ++ [name]) entries

/-- The candidates of the entries of a directory, in the order of their names. -/
def entryCandidates (directories : List String) : List (String × Tree) → List Candidate
  | [] => []
  | (name, tree) :: entries =>
    (if isReserved name then [] else candidates directories name tree) ++ entryCandidates directories entries

end

namespace Candidate

def isIndex (candidate : Candidate) : Bool := candidate.segments.getLast? = some "index"

def id (candidate : Candidate) : String :=
  String.intercalate "/" (if candidate.isIndex then candidate.segments.dropLast else candidate.segments)

def source? (candidate : Candidate) : Option SourcePage :=
  (readPage? candidate.content).map fun page => ⟨candidate.id, candidate.segments, candidate.isIndex, page⟩

/-- The directory that is lost because the page that describes it cannot be read. The topmost
directory is never lost. -/
def lostDirectory? (candidate : Candidate) : Option String :=
  if candidate.isIndex && !candidate.id.isEmpty && candidate.source?.isNone then some candidate.id else none

end Candidate

def isWithin (directory : String) (source : SourcePage) : Bool :=
  source.id = directory || (directory ++ "/").toList.isPrefixOf source.id.toList

def pagesOf (candidates : List Candidate) : List SourcePage :=
  let lost := candidates.filterMap Candidate.lostDirectory?
  (candidates.filterMap Candidate.source?).filter fun source => !lost.any (isWithin · source)

/-- The pages below a directory, in the order of their paths. Where there is no such directory there
are none. -/
def discover (files : FileSystem) (directory : String) : List SourcePage :=
  match files.find directory with
  | .ok (.directory entries) => pagesOf (entryCandidates [] entries)
  | _ => []

end Discovery

end SchemaDocs
