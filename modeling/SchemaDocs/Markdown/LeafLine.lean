import SchemaDocs.Markdown.RawHtml
import SchemaDocs.Markdown.Reference
import SchemaDocs.Markdown.Tree

/-!
# What a line can be

Tests on the text of a line behind the marks of its containers and its indentation: thematic breaks,
headings, fences, list markers, and the rows of tables.
-/

namespace SchemaDocs.Markdown

/-- A thematic break: three or more asterisks, hyphens or underscores, and blanks. -/
def isThematicBreak (text : List Char) : Bool :=
  match text with
  | c :: _ =>
    (c = '*' || c = '-' || c = '_') && 3 ≤ text.count c && text.all fun d => d = c || d = ' ' || d = '\t'
  | [] => false

/-- The level of a heading that begins with number signs. -/
def atxLevel? (text : List Char) : Option Nat :=
  let level := countFront '#' text
  if 1 ≤ level ∧ level ≤ 6 then
    match text.drop level with
    | [] => some level
    | c :: _ => if isAsciiBlank c then some level else none
  else none

/-- The content of a heading of a level: number signs at its end are dropped behind a space. -/
def atxContent (level : Nat) (text : List Char) : List Char :=
  let content := (text.drop level).dropWhile isLineBlank
  let spaced := (content.reverse.dropWhile (· = ' ')).reverse
  let unsigned := (spaced.reverse.dropWhile (· = '#')).reverse
  let closed :=
    if unsigned.isEmpty then []
    else if unsigned.getLast? = some ' ' then unsigned
    else spaced
  dropEndBlanks closed

/-- The level of a heading that is underlined with equals signs or hyphens. -/
def setextLevel? (text : List Char) : Option Nat :=
  match text with
  | '=' :: _ => if isBlankRest (text.dropWhile (· = '=')) then some 1 else none
  | '-' :: _ => if isBlankRest (text.dropWhile (· = '-')) then some 2 else none
  | _ => none

/-- The character and length of a fence. The info string behind backticks holds no backtick. -/
def fence? (text : List Char) : Option (Char × Nat) :=
  match text with
  | c :: _ =>
    let count := countFront c text
    if (c = '\x60' || c = '~') && 3 ≤ count && !(c = '\x60' && (text.drop count).contains '\x60') then some (c, count)
    else none
  | [] => none

def closesFence (fenceChar : Char) (count : Nat) (text : List Char) : Bool :=
  let run := countFront fenceChar text
  count ≤ run && (text.drop run).all (· = ' ')

/-- A list marker: its last character, the number of an ordered one, its width, and what follows it. -/
structure Marker where
  delimiter : Char
  number : Nat
  width : Nat
  behind : List Char

def isOrdered (delimiter : Char) : Bool := delimiter = '.' || delimiter = ')'

/-- The list marker at the front of a text; a blank or the end of the line must follow it. -/
def marker? (text : List Char) : Option Marker :=
  let found : Option Marker :=
    match text with
    | [] => none
    | c :: rest =>
      if c = '-' || c = '+' || c = '*' then some ⟨c, 0, 1, rest⟩
      else
        let digits := text.takeWhile Char.isDigit
        if digits.isEmpty || 9 < digits.length then none
        else
          match text.drop digits.length with
          | d :: rest =>
            if isOrdered d then
              some ⟨d, digits.foldl (fun n d => 10 * n + (d.toNat - 48)) 0, digits.length + 1, rest⟩
            else none
          | [] => none
  found.filter fun marker =>
    match marker.behind with
    | [] => true
    | c :: _ => c = ' ' || c = '\t'

/-- Whether a list item may interrupt a paragraph of the same containers: it is not empty, as far as
this line and the next can show, and a numbered one is the first. -/
def markerInterrupts (marker : Marker) (later : List Line) : Bool :=
  let empty := isBlankRest marker.behind && (match later with
    | [] => true
    | next :: _ => isBlankRest next.text)
  !empty && (!isOrdered marker.delimiter || marker.number = 1)

/-- The label of a footnote definition and what follows its colon. -/
def footnoteLabel? (text : List Char) : Option (List Char × List Char) :=
  match text with
  | '[' :: '^' :: rest =>
    match readLabel? false rest with
    | some (label, ':' :: rest) => some (label, rest)
    | _ => none
  | _ => none

/-- Whether a line interrupts a paragraph. In other containers than the paragraph's, `lazy`, any
list item does. -/
def interrupts (isLazy : Bool) (text : List Char) (later : List Line) : Bool :=
  text.isEmpty || isThematicBreak text || (atxLevel? text).isSome || (fence? text).isSome ||
    text.head? = some '>' || (footnoteLabel? text).isSome || (htmlBlock? false text).isSome ||
      (match marker? text with
        | some marker => isLazy || markerInterrupts marker later
        | none => false)

/-- The mark of a task behind a list marker: whether it is checked, and what follows it. -/
def taskMark? (line : Line) (cursor : Cursor) : Option (Bool × Cursor) :=
  let cursor := (cursor.passUpTo 3).1
  match cursor.rest with
  | '[' :: c :: ']' :: rest =>
    let followed := match rest with
      | [] => !line.ending.isEmpty
      | d :: _ => isLineBlank d
    if !followed then none
    else if isLineBlank c then some (false, ⟨rest, cursor.column + 3, 0⟩)
    else if c = 'x' || c = 'X' then some (true, ⟨rest, cursor.column + 3, 0⟩)
    else none
  | _ => none

/-! ### Tables -/

/-- A bar parts cells unless a backslash stands before it. The pieces of a row between such bars. -/
def splitBars : (before : Char) → List Char → List (List Char)
  | _, [] => [[]]
  | before, c :: rest =>
    if c = '|' && before ≠ '\\' then [] :: splitBars c rest
    else
      match splitBars c rest with
      | [] => [[c]]
      | piece :: pieces => (c :: piece) :: pieces

/-- The cells of a row. A bar at its beginning parts nothing, and neither does one at its end. -/
def rowCells (text : List Char) : List (List Char) :=
  let pieces := splitBars ' ' (text.dropWhile isLineBlank)
  let pieces := match pieces with
    | [] :: rest => rest
    | _ => pieces
  let pieces := if (pieces.getLast?).any isBlankRest then pieces.dropLast else pieces
  pieces.map fun piece => dropEndBlanks (piece.dropWhile isLineBlank)

/-- The alignment of a column from the cell of a delimiter row. -/
def cellAlignment? (cell : List Char) : Option Alignment :=
  let marks := cell.filter (· ≠ ' ')
  if !marks.contains '-' || marks.any fun c => c ≠ ':' && c ≠ '-' then none
  else
    let first := marks.head? = some ':'
    let later := (marks.drop 1).contains ':'
    some (if first then if later then .center else .left else if later then .right else .none)

def delimiterRow? (text : List Char) : Option (List Alignment) :=
  if !text.contains '|' then none
  else
    let pieces := splitBars ' ' text
    let pieces := match text with
      | '|' :: _ => pieces.drop 1
      | _ => pieces
    let pieces := if (pieces.getLast?).any fun piece => piece.all (· = ' ') then pieces.dropLast else pieces
    pieces.mapM cellAlignment?

/-- Whether a line ends with a backslash that makes its end a hard break. -/
def endsInBackslash (text : List Char) : Bool := countFront '\\' text.reverse % 2 = 1

def headColumns (text : List Char) : Nat :=
  let bars := (splitBars ' ' text).length - 1
  let bars := if (text.dropWhile isLineBlank).head? = some '|' then bars - 1 else bars
  if ((splitBars ' ' text).getLast?).any isBlankRest then bars else bars + 1

/-- The cells of a row, cut or filled up to the number of columns. -/
def fittedCells (columns : Nat) (text : List Char) : List (List Char) :=
  let cells := (rowCells text).take columns
  cells ++ List.replicate (columns - cells.length) []

end SchemaDocs.Markdown
