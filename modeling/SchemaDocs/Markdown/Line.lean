import SchemaDocs.Text.Punctuation

/-!
# Lines

A document is read by lines. The beginning of a line is looked at through a cursor that counts
columns, so that a tab reaches to the next multiple of four and may be used up in parts.
-/

namespace SchemaDocs.Markdown

/-- Blanks within a line: space, tab and the two vertical ones. -/
def isLineBlank (c : Char) : Bool := c = ' ' || c = '\t' || c = '\x0b' || c = '\x0c'

def isLineEnd (c : Char) : Bool := c = '\n' || c = '\r'

def isAsciiBlank (c : Char) : Bool := isLineBlank c || isLineEnd c

def isAsciiLetter (c : Char) : Bool := c.isAlpha

def isAsciiAlphanumeric (c : Char) : Bool := c.isAlphanum

/-- A line and the characters that end it, which the last line may lack. Where a line has been freed
of the marks of its containers, these are its margin. -/
structure Line where
  text : List Char
  ending : List Char
  margin : List Char := []
deriving Repr

private def prepend (c : Char) : List Line → List Line
  | [] => [{ text := [c], ending := [] }]
  | line :: lines => { line with text := c :: line.text } :: lines

/-- The lines of a text. A line ends with a line feed, a carriage return, or both in this order. -/
def splitLines : List Char → List Line
  | [] => []
  | '\r' :: '\n' :: rest => { text := [], ending := ['\r', '\n'] } :: splitLines rest
  | c :: rest => if isLineEnd c then { text := [], ending := [c] } :: splitLines rest else prepend c (splitLines rest)

/-- The line end in literal text: a line feed for both characters. -/
def Line.literalEnding (line : Line) : List Char :=
  if line.ending.length = 2 then ['\n'] else line.ending

/-- Whether nothing but blanks is left of a line. -/
def isBlankRest (text : List Char) : Bool := text.all isLineBlank

/-- A place near the beginning of a line: what is left, the columns since the last tab stop, and the
columns of a tab that are not used up. -/
structure Cursor where
  rest : List Char
  column : Nat
  spare : Nat

namespace Cursor

def ofText (text : List Char) : Cursor := ⟨text, 0, 0⟩

/-- Passes up to `wanted` columns of blanks and tells how many are lacking. -/
def passBlanks (column : Nat) : (rest : List Char) → (wanted : Nat) → Cursor × Nat
  | ' ' :: rest, wanted + 1 => passBlanks (column + 1) rest wanted
  | '\t' :: rest, wanted + 1 =>
    let width := 4 - column % 4
    if wanted + 1 ≤ width then (⟨rest, 0, width - (wanted + 1)⟩, 0)
    else passBlanks 0 rest (wanted + 1 - width)
  | rest, wanted => (⟨rest, column, 0⟩, wanted)

/-- Passes up to `wanted` columns of blanks, beginning with those left of a tab, and tells how many
are lacking. -/
def pass (cursor : Cursor) (wanted : Nat) : Cursor × Nat :=
  if wanted ≤ cursor.spare then (⟨cursor.rest, cursor.column, cursor.spare - wanted⟩, 0)
  else passBlanks cursor.column cursor.rest (wanted - cursor.spare)

/-- The cursor behind exactly `wanted` columns of blanks. -/
def pass? (cursor : Cursor) (wanted : Nat) : Option Cursor :=
  let (behind, lacking) := cursor.pass wanted
  if lacking = 0 then some behind else none

/-- The cursor behind at most `wanted` columns of blanks, and their number. -/
def passUpTo (cursor : Cursor) (wanted : Nat) : Cursor × Nat :=
  let (behind, lacking) := cursor.pass wanted
  (behind, wanted - lacking)

def passAll (cursor : Cursor) : Cursor :=
  let rest := cursor.rest.dropWhile fun c => c = ' ' || c = '\t'
  ⟨rest, cursor.column + (cursor.rest.length - rest.length), 0⟩

def passChar? (cursor : Cursor) (wanted : Char) : Option Cursor :=
  match cursor.rest with
  | c :: rest => if c = wanted then some ⟨rest, cursor.column + 1, 0⟩ else none
  | [] => none

def atEnd (cursor : Cursor) : Bool := cursor.rest.isEmpty

/-- What is left, with the unused columns of a tab as spaces. -/
def remaining (cursor : Cursor) : List Char := List.replicate cursor.spare ' ' ++ cursor.rest

/-- The cursor behind the mark of a block quote and the blank that follows it. -/
def passQuoteMark? (cursor : Cursor) : Option Cursor :=
  (cursor.passChar? '>').map fun behind => (behind.pass 1).1

end Cursor

/-- The number of times a character stands at the front. -/
def countFront (c : Char) (text : List Char) : Nat := (text.takeWhile (· = c)).length

def dropEndBlanks (text : List Char) : List Char := (text.reverse.dropWhile isLineBlank).reverse

end SchemaDocs.Markdown
