import SchemaDocs.Text.Alphanumeric
import SchemaDocs.Text.Blank
import SchemaDocs.Text.LetterCase

/-!
# Slugs

A slug is a lower-case name fit for an anchor: runs of letters and digits joined by single hyphens.
White space, hyphens and underscores separate the runs; every other character is dropped, so that it
joins its neighbours.
-/

namespace SchemaDocs.Text

def isSlugSeparator (c : Char) : Bool := isWhiteSpace c || c = '-' || c = '_'

/-- The words of a text already in lower case: its alphanumeric characters, parted at separators.
The word in progress comes reversed in `word`. -/
def slugWords : List Char → (word : List Char) → List (List Char)
  | [], word => if word.isEmpty then [] else [word.reverse]
  | c :: rest, word =>
    if isAlphanumeric c then slugWords rest (c :: word)
    else if isSlugSeparator c then
      if word.isEmpty then slugWords rest [] else word.reverse :: slugWords rest []
    else slugWords rest word

/-- The slug of a text, empty if the text has no letter and no digit. -/
def slug (text : List Char) : List Char :=
  List.intercalate ['-'] (slugWords (lowercase text) [])

def slugify (text : String) : String := String.ofList (slug text.toList)

end SchemaDocs.Text
