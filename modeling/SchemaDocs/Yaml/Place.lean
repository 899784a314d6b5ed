/-!
# Places in a YAML text

A place knows its line and column, since both carry meaning. Five characters break lines; a carriage
return and a line feed make one break together.
-/

namespace SchemaDocs.Yaml

def isBreak (c : Char) : Bool := c = '\n' || c = '\r' || c = '\u0085' || c = '\u2028' || c = '\u2029'

def isBlank (c : Char) : Bool := c = ' ' || c = '\t'

/-- What is left of a text, and where it begins. -/
structure Place where
  rest : List Char
  index : Nat := 0
  line : Nat := 0
  column : Nat := 0

namespace Place

def skip (place : Place) (count : Nat) : Place :=
  { place with rest := place.rest.drop count, index := place.index + count, column := place.column + count }

/-- The characters of the line that satisfy a test, and the place behind them. -/
def span (place : Place) (test : Char → Bool) : List Char × Place :=
  let text := place.rest.takeWhile fun c => test c && !isBreak c
  (text, place.skip text.length)

/-- The break at the place and the place behind it. Breaks of Unicode's own stay as they are, all
others are line feeds. -/
def breakLine? (place : Place) : Option (List Char × Place) :=
  let behind (width : Nat) : Place :=
    { rest := place.rest.drop width, index := place.index + width, line := place.line + 1, column := 0 }
  match place.rest with
  | '\r' :: '\n' :: _ => some (['\n'], behind 2)
  | c :: _ =>
    if c = '\u2028' || c = '\u2029' then some ([c], behind 1)
    else if isBreak c then some (['\n'], behind 1)
    else none
  | [] => none

/-- Whether a blank, a break or the end of the text stands `offset` characters behind the place. -/
def gapAt (place : Place) (offset : Nat) : Bool :=
  match place.rest[offset]? with
  | none => true
  | some c => isBlank c || isBreak c

/-- Whether the place is at a line with nothing but the mark of a document's beginning or end. -/
def atDocumentMark (place : Place) (mark : List Char) : Bool :=
  place.column = 0 && mark.isPrefixOf place.rest && place.gapAt 3

/-- Whether the place is at a line that begins or ends a document. -/
def atDocumentBoundary (place : Place) : Bool :=
  place.atDocumentMark ['-', '-', '-'] || place.atDocumentMark ['.', '.', '.']

end Place

end SchemaDocs.Yaml
