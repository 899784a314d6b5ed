/-!
# Splitting at a character

A text splits into one piece more than it has separators, so the empty text has one piece, which is
empty.
-/

namespace SchemaDocs.Text

def splitChars (separator : Char) : List Char → List (List Char)
  | [] => [[]]
  | c :: rest =>
    if c = separator then [] :: splitChars separator rest
    else
      match splitChars separator rest with
      | [] => [[c]]
      | piece :: pieces => (c :: piece) :: pieces

def pieces (separator : Char) (text : String) : List String :=
  (splitChars separator text.toList).map String.ofList

end SchemaDocs.Text
