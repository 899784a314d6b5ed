import SchemaDocs.Text.Split

/-!
# Paths

A path is a text whose names are parted by slashes. Empty names and single dots within it mean
nothing; a leading dot is a name of its own.
-/

namespace SchemaDocs.Path

def isAbsolute (path : String) : Bool := path.toList.head? = some '/'

/-- The path seen from a directory. An absolute path stays as it is, and an empty one puts a slash
behind the directory. -/
def join (base path : String) : String :=
  if isAbsolute path || base.isEmpty then path
  else if base.toList.getLast? = some '/' then base ++ path
  else base ++ "/" ++ path

/-- What stands before the names of a path: the slash of the root, or a leading dot. -/
def lead : List Char → List Char
  | '/' :: _ => ['/']
  | ['.'] => ['.']
  | '.' :: '/' :: _ => ['.']
  | _ => []

/-- The names between slashes, without the meaningless ones at the end. -/
def trimNames (names : List (List Char)) : List (List Char) :=
  (names.reverse.dropWhile fun name => name = [] || name = ['.']).reverse

/-- The path without its last name; the root and the empty path have none to lose. -/
def parent? (path : String) : Option String :=
  let text := path.toList
  let lead := lead text
  match trimNames (Text.splitChars '/' (text.drop lead.length)) with
  | [] => if lead = ['.'] then some "" else none
  | names => some (String.ofList (lead ++ List.intercalate ['/'] (trimNames names.dropLast)))

/-- The directory that a path lies in, which is empty for a bare name. -/
def directory (path : String) : String := (parent? path).getD ""

/-- Whether a path leads downwards only: it is relative, and neither a leading dot nor two dots are
among its names. -/
def isDownward (path : String) : Bool :=
  (lead path.toList).isEmpty && (Text.splitChars '/' path.toList).all fun name => name ≠ ['.', '.']

/-- The path without slashes at its end. -/
def withoutTrailingSlashes (path : String) : String :=
  String.ofList (path.toList.reverse.dropWhile (· = '/')).reverse

/-- Splits a file name at its last dot. A dot in front belongs to the name. -/
def splitExtension (name : String) : String × Option String :=
  match name.toList.reverse.span (· ≠ '.') with
  | (extension, '.' :: stem) =>
    if stem.isEmpty || name = ".." then (name, none) else (String.ofList stem.reverse, some (String.ofList extension.reverse))
  | _ => (name, none)

end SchemaDocs.Path
