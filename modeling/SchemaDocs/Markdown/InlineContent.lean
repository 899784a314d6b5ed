import SchemaDocs.Markdown.Emphasis
import SchemaDocs.Markdown.RawHtml
import SchemaDocs.Markdown.Reference

/-!
# Reading running content

Raw text is read from left to right into pieces. Code, raw HTML, addresses and character references
are settled on the way. An opening bracket is kept with the text behind it until a closing one shows
whether they make a link, an image or a footnote reference; whatever makes nothing is plain text.
Emphasis is resolved last, within each link and around it.
-/

namespace SchemaDocs.Markdown

/-- Raw running content, the mark of a task before it, and the margins of its lines but the first. -/
structure RawText where
  text : List Char
  task : Option Bool := none
  margins : List (List Char) := []

/-- What a whole document contributes to the reading of its running content. -/
structure Context where
  definitions : List Definition
  footnotes : List (List Char)

/-- An opening bracket that is not settled: whether it begins an image, whether it may still make a
link, the text behind it, and the pieces since then, in reverse. -/
structure OpenBracket where
  image : Bool
  active : Bool
  behind : List Char
  pieces : List Piece

/-- A place in raw text: pieces before the first open bracket, in reverse, the open brackets,
innermost first, plain text since the last piece, in reverse, and the character before. -/
structure Reading where
  ground : List Piece
  brackets : List OpenBracket
  plain : List Char
  before : Option Char

namespace Reading

def append (reading : Reading) (pieces : List Piece) : Reading :=
  match reading.brackets with
  | [] => { reading with ground := pieces ++ reading.ground }
  | top :: below => { reading with brackets := { top with pieces := pieces ++ top.pieces } :: below }

def flush (reading : Reading) : Reading :=
  if reading.plain.isEmpty then reading
  else { reading.append [.inline (.text (String.ofList reading.plain.reverse))] with plain := [] }

def add (reading : Reading) (piece : Piece) (before : Option Char) : Reading :=
  { reading.flush.append [piece] with before }

def addPlain (reading : Reading) (c : Char) : Reading := { reading with plain := c :: reading.plain, before := some c }

def bracketText (image : Bool) : Piece := .inline (.text (if image then "![" else "["))

def dropBracket (reading : Reading) : Reading :=
  match reading.brackets with
  | [] => reading
  | top :: below => { reading with brackets := below }.append (top.pieces ++ [bracketText top.image])

def dropBrackets : (brackets : Nat) → Reading → Reading
  | 0, reading => reading
  | brackets + 1, reading => dropBrackets brackets reading.dropBracket

def pieces (reading : Reading) : List Piece :=
  let reading := reading.flush
  (dropBrackets reading.brackets.length reading).ground.reverse

end Reading

/-! ### Code spans -/

/-- The text before and behind the first run of exactly `count` backticks. `done` holds the text so
far in reverse. -/
def splitCode? (count : Nat) : (fuel : Nat) → List Char → (done : List Char) → Option (List Char × List Char)
  | 0, _, _ => none
  | _ + 1, [], _ => none
  | fuel + 1, c :: rest, done =>
    if c = '\x60' then
      let run := countFront '\x60' (c :: rest)
      let behind := (c :: rest).drop run
      if run = count then some (done.reverse, behind)
      else splitCode? count fuel behind (List.replicate run '\x60' ++ done)
    else splitCode? count fuel rest (c :: done)

/-- Code on one line: each line end is a space, and in a table a bar loses its backslash. -/
def joinCodeLines (inTable : Bool) : List Char → List Char
  | '\r' :: '\n' :: rest => ' ' :: joinCodeLines inTable rest
  | '\\' :: '|' :: rest => if inTable then '|' :: joinCodeLines inTable rest else '\\' :: '|' :: joinCodeLines inTable rest
  | c :: rest => (if isLineEnd c then ' ' else c) :: joinCodeLines inTable rest
  | [] => []

/-- The text of a code span: one space at either end is dropped, if there is one at both and
something else between. -/
def codeText (inTable : Bool) (raw : List Char) : String :=
  let text := joinCodeLines inTable raw
  if text.head? = some ' ' && text.getLast? = some ' ' && text.any (· ≠ ' ') then
    String.ofList (text.drop 1).dropLast
  else String.ofList text

/-! ### Brackets -/

/-- The definition that a label refers to: the first one of its key. -/
def Context.find? (context : Context) (label : List Char) : Option Definition :=
  let key := labelKey label
  context.definitions.find? (·.key = key)

inductive BracketMeaning where
  | link (target title : String)
  | footnote (label : List Char)

def bracketLabel (behind rest : List Char) : List Char := behind.take (behind.length - rest.length - 1)

/-- The meaning of an open bracket that closes in front of `rest`, and what is left behind the link. -/
def bracketMeaning? (context : Context) (inTable : Bool) (behind rest : List Char) :
    Option (BracketMeaning × List Char) :=
  let ofLabel (label : List Char) (rest : List Char) : Option (BracketMeaning × List Char) :=
    (context.find? label).map fun definition => (.link definition.target definition.title, rest)
  let own? (rest' : List Char) : Option (BracketMeaning × List Char) :=
    let whole := bracketLabel behind rest ++ [']']
    let footnote? := match whole with
      | '^' :: d :: more =>
        if d = ']' || (d :: more).any isLineEnd then none
        else
          match readLabel? inTable (d :: more) with
          | some (label, []) => some label
          | _ => none
      | _ => none
    match footnote? with
    | some label => if context.footnotes.contains (labelKey label) then some (.footnote label, rest) else none
    | none =>
      match readLabel? inTable whole with
      | some (label, []) => ofLabel label rest'
      | _ => none
  match readInlineTarget? inTable rest with
  | some (target, title, rest) => some (.link target title, rest)
  | none =>
    match rest with
    | '[' :: ']' :: rest' => own? rest'
    | '[' :: '^' :: more =>
      if more.head? ≠ some ']' && ((readLabel? inTable more).isSome) then own? rest
      else
        match readLabel? inTable ('^' :: more) with
        | some (label, rest) => ofLabel label rest
        | none => own? rest
    | '[' :: more =>
      match readLabel? inTable more with
      | some (label, rest) => ofLabel label rest
      | none => own? rest
    | _ => own? rest

/-- Settles the innermost open bracket at a closing one. -/
def closeBracket (context : Context) (inTable : Bool) (reading : Reading) (rest : List Char) : Reading × List Char :=
  let reading := reading.flush
  match reading.brackets with
  | [] => (reading.addPlain ']', rest)
  | top :: below =>
    let failed := (reading.dropBracket.addPlain ']', rest)
    if !top.active then failed
    else
      match bracketMeaning? context inTable top.behind rest with
      | none => failed
      | some (.link target title, rest) =>
        let content := resolveEmphasis top.pieces.reverse
        if top.image then
          ({ reading with brackets := below }.add (.inline (.image target title content)) (some ')'), rest)
        else
          let below := below.map fun bracket => if bracket.image then bracket else { bracket with active := false }
          ({ reading with brackets := below }.add (.inline (.link false target title content)) (some ')'), rest)
      | some (.footnote label, rest) =>
        let outer := Reading.dropBrackets below.length { reading with brackets := below }
        let outer := if top.image then outer.add (.inline (.text "!")) (some '!') else outer
        (outer.add (.inline (.footnoteReference (String.ofList label))) (some ']'), rest)

/-! ### The reader -/

/-- Ends a line: blanks at its end are dropped, and two of them make the break a hard one, as does a
backslash. -/
def breakLine (reading : Reading) (afterBackslash : Bool) : Reading :=
  let kept := reading.plain.dropWhile isLineBlank
  let hard := afterBackslash || 2 ≤ reading.plain.length - kept.length
  let reading := { reading with plain := if afterBackslash then reading.plain else kept }
  reading.add (.inline (if hard then .hardBreak else .softBreak)) (some '\n')

def readInlines (context : Context) (inTable : Bool) (margins : List (List Char)) :
    (fuel : Nat) → Reading → List Char → Reading
  | 0, reading, _ => reading
  | _ + 1, reading, [] => reading
  | fuel + 1, reading, c :: rest =>
    let next := readInlines context inTable margins fuel
    if isLineEnd c then
      let rest := match c, rest with
        | '\r', '\n' :: rest => rest
        | _, rest => rest
      next (breakLine reading false) (rest.dropWhile isLineBlank)
    else
      match c with
      | '\\' =>
        match rest with
        | '\r' :: '\n' :: rest => next (breakLine reading true) (rest.dropWhile isLineBlank)
        | '\\' :: '|' :: rest => next (if inTable then reading.addPlain '|' else (reading.addPlain '\\').addPlain '|') rest
        | d :: rest =>
          if Text.isAsciiPunctuation d then next (reading.addPlain d) rest
          else if isLineEnd d then next (breakLine reading true) (rest.dropWhile isLineBlank)
          else next (reading.addPlain '\\') (d :: rest)
        | [] => next (reading.addPlain '\\') []
      | '\x60' =>
        let count := countFront '\x60' (c :: rest)
        let behind := (c :: rest).drop count
        match splitCode? count (behind.length + 1) behind [] with
        | some (raw, behind) => next (reading.add (.inline (.code (codeText inTable raw))) (some '\x60')) behind
        | none =>
          next { reading with plain := List.replicate count '\x60' ++ reading.plain, before := some '\x60' } behind
      | '<' =>
        match addressEnd? rest with
        | some behind =>
          let address := String.ofList (rest.take (rest.length - behind.length - 1))
          next (reading.add (.inline (.link false address "" [.text address])) (some '>')) behind
        | none =>
          match mailAddressEnd? rest with
          | some behind =>
            let address := String.ofList (rest.take (rest.length - behind.length - 1))
            next (reading.add (.inline (.link true address "" [.text address])) (some '>')) behind
          | none =>
            match readRawHtml? margins rest with
            | some (raw, behind) =>
              next (reading.add (.inline (.html (String.ofList ('<' :: raw)))) (some '>')) behind
            | none => next (reading.addPlain '<') rest
      | '&' =>
        match characterReference? rest with
        | some (chars, behind) => next (reading.add (.inline (.text (String.ofList chars))) (some ';')) behind
        | none => next (reading.addPlain '&') rest
      | '!' =>
        match rest with
        | '[' :: behind =>
          let reading := reading.flush
          next { reading with brackets := ⟨true, true, behind, []⟩ :: reading.brackets, before := some '[' } behind
        | _ => next (reading.addPlain '!') rest
      | '[' =>
        let reading := reading.flush
        next { reading with brackets := ⟨false, true, rest, []⟩ :: reading.brackets, before := some '[' } rest
      | ']' =>
        let (reading, behind) := closeBracket context inTable reading rest
        next { reading with before := some ']' } behind
      | _ =>
        if c = '*' || c = '_' || c = '~' then
          let count := countFront c (c :: rest)
          let behind := (c :: rest).drop count
          let run := DelimiterRun.between c count reading.before behind.head?
          next (reading.add (.run run) (some c)) behind
        else next (reading.addPlain c) rest

def RawText.inlines (context : Context) (inTable : Bool) (raw : RawText) : List Inline :=
  let start : Reading := ⟨[], [], [], none⟩
  let content := resolveEmphasis (readInlines context inTable raw.margins (raw.text.length + 1) start raw.text).pieces
  match raw.task with
  | some checked => .taskMarker checked :: content
  | none => content

end SchemaDocs.Markdown
