import SchemaDocs.Markdown.InlineContent
import SchemaDocs.Markdown.LeafLine

/-!
# Splitting a document into blocks

Lines are taken one by one. The state holds the containers that are open (block quotes, lists,
items, footnotes) with the blocks they hold so far, and the block without containers that is being
read, its leaf. A line first has to continue the open containers; it then continues the leaf, or
ends it and begins something new. A line may look at the lines behind it, for a table's second row
and for definitions over several lines, and then has these skipped.
-/

namespace SchemaDocs.Markdown

/-- An open container. An item holds the columns that its lines are indented by. -/
inductive Container where
  | quote
  | list (delimiter : Char) (start : Nat) (tight : Bool)
  | item (indent : Nat)
  | footnote (label : List Char)

/-- An open container with its blocks so far, in reverse. -/
structure Open where
  container : Container
  blocks : List (Block RawText) := []

/-- The leaf that is being read, with its lines in reverse. -/
inductive Leaf where
  | none
  | paragraph (task : Option Bool) (lines : List Line)
  | fenced (indent : Nat) (fenceChar : Char) (count : Nat) (info : String) (lines : List String)
  | indented (lines : List (Bool × String))
  | html (ending : HtmlEnd) (lines : List String)
  | table (alignments : List Alignment) (head : List RawText) (rows : List (List RawText))

structure Structure where
  /-- The blocks outside all containers, in reverse. -/
  ground : List (Block RawText) := []
  /-- The open containers, innermost first. -/
  stack : List Open := []
  leaf : Leaf := .none
  /-- Whether a blank line stands before the next block of a list. -/
  blankBefore : Bool := false
  /-- Whether the innermost item has begun with a blank line. -/
  emptyItem : Bool := false
  /-- The mark of a task that waits for its paragraph. -/
  task : Option Bool := none
  /-- The number of lines that are read already. -/
  skip : Nat := 0
  /-- Definitions and footnotes, in reverse. -/
  definitions : List Definition := []
  footnotes : List (List Char) := []

namespace Structure

/-! ### Containers -/

def append (s : Structure) (block : Block RawText) : Structure :=
  match s.stack with
  | [] => { s with ground := block :: s.ground }
  | top :: below => { s with stack := { top with blocks := block :: top.blocks } :: below }

def loosenParagraph : Block RawText → Block RawText
  | .paragraph content => .plain content
  | block => block

def blockOf (closed : Open) : Block RawText :=
  let blocks := closed.blocks.reverse
  match closed.container with
  | .quote => .quote blocks
  | .item _ => .item blocks
  | .footnote label => .footnote (String.ofList label) blocks
  | .list delimiter start tight =>
    let items := if tight then blocks.map fun block =>
        match block with
        | .item blocks => .item (blocks.map loosenParagraph)
        | block => block
      else blocks
    .list (if isOrdered delimiter then some start else none) items

def pop (s : Structure) : Structure :=
  match s.stack with
  | [] => s
  | top :: below =>
    let emptyItem := match top.container with
      | .list _ _ true => false
      | _ => s.emptyItem
    { s with stack := below, emptyItem }.append (blockOf top)

def popMany : (count : Nat) → Structure → Structure
  | 0, s => s
  | count + 1, s => popMany count s.pop

def push (s : Structure) (container : Container) : Structure := { s with stack := ⟨container, []⟩ :: s.stack }

/-- Notes that a blank line stands between the parts of the list around the innermost container. -/
def loosenAround (s : Structure) : Structure :=
  if !s.blankBefore then s
  else
    match s.stack with
    | top :: ⟨.list delimiter start _, blocks⟩ :: below =>
      { s with stack := top :: ⟨.list delimiter start false, blocks⟩ :: below, blankBefore := false }
    | _ => { s with blankBefore := false }

/-- Closes an item that began with two blank lines. -/
def finishEmptyItem (s : Structure) : Structure :=
  let closed := match s.stack with
    | ⟨.item _, _⟩ :: _ => if s.emptyItem && s.blankBefore then s.pop else s
    | _ => s
  { closed with emptyItem := false }

/-- Closes a list that does not go on, before something else begins. -/
def finishList (s : Structure) : Structure :=
  let s := s.finishEmptyItem
  let s := match s.stack with
    | ⟨.list _ _ _, _⟩ :: _ => s.pop
    | _ => s
  s.loosenAround

/-- Closes a footnote, before another one begins. -/
def finishFootnote (s : Structure) : Structure :=
  match s.stack with
  | ⟨.footnote _, _⟩ :: _ => s.pop
  | _ => s

/-- Goes on with the open list if its items have the same delimiter, else begins a list. -/
def continueList (s : Structure) (delimiter : Char) (number : Nat) : Structure :=
  let s := s.finishEmptyItem
  let fresh := { s.finishList.push (.list delimiter number true) with blankBefore := false }
  match s.stack with
  | ⟨.list open_ start tight, blocks⟩ :: below =>
    if open_ = delimiter then
      { s with stack := ⟨.list open_ start (tight && !s.blankBefore), blocks⟩ :: below, blankBefore := false }
    else fresh
  | _ => fresh

/-- The cursor behind what a line shows of a container, if it continues the container. -/
def continues? (container : Container) (cursor : Cursor) : Option Cursor :=
  let indented (columns : Nat) : Option Cursor :=
    let (behind, lacking) := cursor.pass columns
    if lacking = 0 || behind.atEnd then some behind else none
  match container with
  | .quote => (cursor.passUpTo 3).1.passQuoteMark?
  | .item indent => indented indent
  | .footnote _ => indented 4
  | .list _ _ _ => some cursor

/-- How many containers, outermost first, a line continues, and the cursor behind their marks. -/
def matchContainers : List Open → Cursor → Nat × Cursor
  | [], cursor => (0, cursor)
  | first :: inner, cursor =>
    match continues? first.container cursor with
    | none => (0, cursor)
    | some behind =>
      let (count, cursor) := matchContainers inner behind
      (count + 1, cursor)

/-- Whether a line continues all open containers, and the cursor behind the marks it has. -/
def matchLine (s : Structure) (line : Line) : Bool × Cursor :=
  let (count, cursor) := matchContainers s.stack.reverse (.ofText line.text)
  (count = s.stack.length, cursor)

/-! ### Ending a leaf -/

/-- Lines, given in reverse, as raw text without the last line end. -/
def joinLines (lines : List Line) : List Char :=
  match lines with
  | [] => []
  | last :: earlier => earlier.reverse.flatMap (fun line => line.text ++ line.ending) ++ dropEndBlanks last.text

def paragraphText (task : Option Bool) (lines : List Line) : RawText :=
  { text := joinLines lines, task, margins := (lines.dropLast.map (·.margin)).reverse }

/-- Ends the leaf. Blank lines at the end of indented code do not count. -/
def closeLeaf (s : Structure) : Structure :=
  let closed := { s with leaf := .none }
  match s.leaf with
  | .none => s
  | .paragraph task lines => closed.append (.paragraph (paragraphText task lines))
  | .fenced _ _ _ info lines => closed.append (.code (some info) lines.reverse)
  | .indented lines => closed.append (.code Option.none ((lines.dropWhile (·.1)).reverse.map (·.2)))
  | .html _ lines => closed.append (.html lines.reverse)
  | .table alignments head rows => closed.append (.table alignments head rows.reverse)

def literal (line : Line) (text : List Char) : String := String.ofList (text ++ line.literalEnding)

def paragraphLine (line : Line) (cursor : Cursor) : Line :=
  ⟨cursor.remaining, line.ending, line.text.take (line.text.length - cursor.rest.length)⟩

/-- The alignments of the table that a line begins: the next line is a delimiter row with as many
columns. -/
def tableBelow? (s : Structure) (text : List Char) (later : List Line) : Option (List Alignment) :=
  match later with
  | [] => none
  | next :: _ =>
    if (splitBars ' ' text).length < 2 then none
    else
      let (current, cursor) := s.matchLine next
      let (behind, indent) := cursor.passUpTo 4
      if current && indent < 4 && !behind.atEnd then
        (delimiterRow? behind.rest).filter (·.length = headColumns text)
      else none

/-- How a line goes on with a paragraph: not at all, as its text, or as the underline that makes it
a heading. -/
inductive Continuation where
  | no
  | text (line : Line)
  | underline (level : Nat)

/-- How a line goes on with a paragraph in the open containers. -/
def continuation (s : Structure) (line : Line) (later : List Line) : Continuation :=
  let (current, cursor) := s.matchLine line
  if isBlankRest cursor.rest then .no
  else
    match cursor.pass? 4 with
    | some _ => .text (paragraphLine line cursor)
    | none =>
      let rest := (cursor.pass 4).1.rest
      match if current then setextLevel? rest else Option.none with
      | some level => .underline level
      | none =>
        if interrupts (!current) rest later || (current && (s.tableBelow? rest later).isSome) then .no
        else .text (paragraphLine line cursor)

/-- The lines that go on with a paragraph, as its text. -/
def paragraphTail (s : Structure) : List Line → List Char
  | [] => []
  | line :: later =>
    match s.continuation line later with
    | .text line => line.text ++ line.ending ++ s.paragraphTail later
    | _ => []

/-! ### Beginning a block -/

/-- Takes a line without text in the open containers. -/
def blankLine (s : Structure) : Structure :=
  match s.stack with
  | ⟨.quote, _⟩ :: _ => s
  | ⟨.item indent, blocks⟩ :: below =>
    { s with stack := ⟨.item (if s.emptyItem then 0 else indent), blocks⟩ :: below, blankBefore := true }
  | _ => { s with blankBefore := true }

/-- Begins a leaf at a line that is not blank, behind all marks of containers. -/
def beginLeaf (s : Structure) (line : Line) (cursor : Cursor) (later : List Line) : Structure :=
  let s := s.finishList
  match cursor.pass? 4 with
  | some behind =>
    { s with leaf := .indented [(false, literal line behind.remaining)], blankBefore := false }
  | none =>
    let (behind, indent) := cursor.passUpTo 4
    let text := behind.rest
    match htmlBlock? true text with
    | some ending =>
      let opened := { s with leaf := .html ending [literal line (List.replicate indent ' ' ++ text)] }
      match ending with
      | .mark mark => if (behindFirst? mark text).isSome then opened.closeLeaf else opened
      | .blankLine => opened
    | none =>
      if isThematicBreak text then s.append .rule
      else
        match atxLevel? text with
        | some level => s.append (.heading level { text := atxContent level text })
        | none =>
          match fence? text with
          | some (fenceChar, count) =>
            let info := (text.drop count).dropWhile isLineBlank
            { s with leaf := .fenced indent fenceChar count (unescape false (dropEndBlanks info)) [] }
          | none =>
            match if endsInBackslash text then none else s.tableBelow? text later with
            | some alignments =>
              let cells := (fittedCells alignments.length text).map fun cell => { text := cell }
              { s with leaf := .table alignments cells [], skip := 1, task := Option.none }
            | none =>
              let definition? := if text.head? = some '[' then
                  readDefinition? false (text ++ line.ending ++ s.paragraphTail later)
                else Option.none
              match definition? with
              | some (definition, rest) =>
                let taken := (splitLines (text ++ line.ending ++ s.paragraphTail later)).length - (splitLines rest).length
                { s with definitions := definition :: s.definitions, skip := taken - 1 }
              | none => { s with leaf := .paragraph s.task [{ text, ending := line.ending }], task := Option.none }

/-- Opens the containers that a line begins, and then the leaf. -/
def openContainers (line : Line) (later : List Line) : (fuel : Nat) → Structure → Cursor → Structure
  | 0, s, _ => s
  | fuel + 1, s, cursor =>
    let leaf := if isBlankRest cursor.rest then s.blankLine else s.beginLeaf line cursor later
    let (behind, indent) := cursor.passUpTo 4
    if indent = 4 then leaf
    else
      match footnoteLabel? behind.rest with
      | some (label, rest) =>
        let s := { s.finishList.finishFootnote.push (.footnote label) with footnotes := labelKey label :: s.footnotes }
        openContainers line later fuel s (.ofText rest)
      | none =>
        match if isThematicBreak behind.rest then none else marker? behind.rest with
        | some marker =>
          let afterMark : Cursor := ⟨marker.behind, behind.column + marker.width, 0⟩
          let afterBlank := (afterMark.pass 1).1
          let columns := indent + marker.width + 1
          let (content, extra) := afterBlank.passUpTo 4
          let (content, columns) :=
            if isBlankRest afterBlank.rest || extra = 4 then (afterBlank, columns) else (content, columns + extra)
          let s := (s.continueList marker.delimiter marker.number).push (.item columns)
          if isBlankRest content.rest then { s with emptyItem := true }
          else
            match taskMark? line content with
            | some (checked, cursor) =>
              if isBlankRest cursor.rest then { s.append (.plain { text := [], task := some checked }) with emptyItem := true }
              else openContainers line later fuel { s with task := some checked } cursor
            | none => openContainers line later fuel s content
        | none =>
          match behind.passQuoteMark? with
          | some behind => openContainers line later fuel (s.finishList.push .quote) behind
          | none => leaf

def beginBlock (s : Structure) (line : Line) (later : List Line) : Structure :=
  let (count, cursor) := matchContainers s.stack.reverse (.ofText line.text)
  openContainers line later (line.text.length + 1) (popMany (s.stack.length - count) s) cursor

/-! ### Lines -/

def continueLeaf (s : Structure) (line : Line) (later : List Line) : Structure :=
  let (current, cursor) := s.matchLine line
  let ended := s.closeLeaf.beginBlock line later
  match s.leaf with
  | .none => s.beginBlock line later
  | .fenced indent fenceChar count info lines =>
    if !current then ended
    else
      let inner := (cursor.pass indent).1
      let closing := (inner.pass? 4).isNone &&
        (closesFence fenceChar count (inner.pass 4).1.rest ||
          ((inner.pass 4).1.atEnd && line.ending.isEmpty))
      if closing then s.closeLeaf
      else { s with leaf := .fenced indent fenceChar count info (literal line inner.remaining :: lines) }
  | .indented lines =>
    let (inner, lacking) := cursor.pass 4
    if current && (lacking = 0 || inner.atEnd) then
      let blank := isBlankRest inner.rest
      { s with leaf := .indented ((blank, literal line inner.remaining) :: lines), blankBefore := blank }
    else ended
  | .html (.mark mark) lines =>
    if !current then ended
    else
      let taken := { s with leaf := .html (.mark mark) (literal line cursor.remaining :: lines) }
      if (behindFirst? mark cursor.rest).isSome then taken.closeLeaf else taken
  | .html .blankLine lines =>
    if !current || isBlankRest cursor.rest then ended
    else { s with leaf := .html .blankLine (literal line cursor.remaining :: lines) }
  | .table alignments head rows =>
    let rest := cursor.passAll.rest
    if !current || isBlankRest rest || interrupts false rest later || (marker? rest).isSome then ended
    else
      let cells := (fittedCells alignments.length rest).map fun cell => { text := cell }
      { s with leaf := .table alignments head (cells :: rows) }
  | .paragraph task lines =>
    match s.continuation line later with
    | .no => ended
    | .text line => { s with leaf := .paragraph task (line :: lines) }
    | .underline level => { s with leaf := .none }.append (.heading level (paragraphText task lines))

def takeLines : Structure → List Line → Structure
  | s, [] => s
  | s, line :: later =>
    let next := if 0 < s.skip then { s with skip := s.skip - 1 } else s.continueLeaf line later
    takeLines next later

def finish (s : Structure) : Structure :=
  let s := s.closeLeaf
  popMany s.stack.length s

end Structure

def Structure.ofText (text : List Char) : Structure := (Structure.takeLines {} (splitLines text)).finish

mutual

/-- The block with its raw text read. Bars have a meaning of their own in the cells of a table. -/
def Block.readInlines (context : Context) : Block RawText → Block (List Inline)
  | .paragraph raw => .paragraph (raw.inlines context false)
  | .plain raw => .plain (raw.inlines context false)
  | .heading level raw => .heading level (raw.inlines context false)
  | .rule => .rule
  | .code info lines => .code info lines
  | .html lines => .html lines
  | .quote blocks => .quote (Block.listReadInlines context blocks)
  | .list start items => .list start (Block.listReadInlines context items)
  | .item blocks => .item (Block.listReadInlines context blocks)
  | .footnote label blocks => .footnote label (Block.listReadInlines context blocks)
  | .table alignments head rows =>
    .table alignments (head.map (·.inlines context true)) (rows.map (·.map (·.inlines context true)))

def Block.listReadInlines (context : Context) : List (Block RawText) → List (Block (List Inline))
  | [] => []
  | block :: blocks => block.readInlines context :: Block.listReadInlines context blocks

end

def blocks (text : String) : List (Block (List Inline)) :=
  let s := Structure.ofText text.toList
  Block.listReadInlines ⟨s.definitions.reverse, s.footnotes⟩ s.ground.reverse

def events (text : String) : List Event := Block.listEvents (blocks text)

end SchemaDocs.Markdown
