import SchemaDocs.Yaml.Scalar

/-!
# Tokens of a YAML text

Indentation becomes tokens: a block collection begins with a token of its own and ends with one. A
key without an indicator is known as a key only when its colon follows, on the same line and within
1024 characters; its tokens are then put in front of it. A text that has no tokens gives nothing.
-/

namespace SchemaDocs.Yaml

inductive Token where
  | versionDirective
  | tagDirective (handle leading : String)
  | documentStart
  | documentEnd
  | blockSequenceStart
  | blockMappingStart
  | blockEnd
  | flowSequenceStart
  | flowSequenceEnd
  | flowMappingStart
  | flowMappingEnd
  | blockEntry
  | flowEntry
  | key
  | value
  | aliasOf (name : String)
  | anchor (name : String)
  | tag (handle ending : String)
  | scalar (style : Style) (text : String)
deriving DecidableEq, Repr

/-- Where a key may have begun: the number of tokens before it, its place, and whether it has to be
one. -/
structure PossibleKey where
  tokens : Nat
  index : Nat
  line : Nat
  column : Nat
  required : Bool

/-- A place in a text with the tokens before it, in reverse. The indentations of open blocks and the
possible keys of open flow collections stand innermost first; the last entry of `keys` belongs to
the block around all flow collections. -/
structure Scanner where
  place : Place
  tokens : List Token := []
  count : Nat := 0
  indents : List Nat := []
  keys : List (Option PossibleKey) := [none]
  keyAllowed : Bool := true

namespace Scanner

def inFlow (s : Scanner) : Bool := 1 < s.keys.length

def indent (s : Scanner) : Int :=
  match s.indents with
  | [] => -1
  | indent :: _ => indent

def emit (s : Scanner) (token : Token) : Scanner := { s with tokens := token :: s.tokens, count := s.count + 1 }

def insert (s : Scanner) (before : Nat) (token : Token) : Scanner :=
  { s with tokens := s.tokens.insertIdx (s.count - before) token, count := s.count + 1 }

/-! ### Keys and indentation -/

/-- Whether a possible key is too far behind the place to be one. -/
def isStale (place : Place) (key : PossibleKey) : Bool := key.line < place.line || key.index + 1024 < place.index

/-- Gives up the possible keys that are too far behind. -/
def dropStaleKeys (s : Scanner) : Option Scanner :=
  if s.keys.any fun key? => key?.any fun key => isStale s.place key && key.required then none
  else some { s with keys := s.keys.map fun key? => key?.filter fun key => !isStale s.place key }

def dropKey (s : Scanner) : Option Scanner :=
  match s.keys with
  | some key :: outer => if key.required then none else some { s with keys := none :: outer }
  | _ => some s

def saveKey (s : Scanner) : Option Scanner :=
  if !s.keyAllowed then some s
  else do
    let s ← s.dropKey
    let required := !s.inFlow && s.indent = s.place.column
    some { s with keys := some ⟨s.count, s.place.index, s.place.line, s.place.column, required⟩ :: s.keys.drop 1 }

/-- Begins a block collection if the column is deeper than the innermost one. Its token goes behind
the first `before` tokens. -/
def beginBlock (s : Scanner) (column before : Nat) (token : Token) : Scanner :=
  if !s.inFlow && s.indent < column then { s.insert before token with indents := column :: s.indents } else s

/-- Ends the block collections that are deeper than a column. -/
def endBlocks (s : Scanner) (column : Int) : Scanner :=
  if s.inFlow then s
  else
    let closed := s.indents.takeWhile fun (indent : Nat) => column < indent
    closed.foldl (fun s _ => { s.emit .blockEnd with indents := s.indents.drop 1 }) s

/-! ### Blanks and comments -/

/-- The place of the next token. A tab is no blank where a key may begin in a block. -/
def passBlanks : (fuel : Nat) → Scanner → Scanner
  | 0, s => s
  | fuel + 1, s =>
    let start := if s.place.index = 0 && s.place.rest.head? = some '\ufeff' then { s.place with rest := s.place.rest.drop 1, index := 1 } else s.place
    let place := (start.span fun c => c = ' ' || (c = '\t' && (s.inFlow || !s.keyAllowed))).2
    let place := if place.rest.head? = some '#' then (place.span fun _ => true).2 else place
    match place.breakLine? with
    | some (_, place) => passBlanks fuel { s with place, keyAllowed := s.keyAllowed || !s.inFlow }
    | none => { s with place }

/-! ### Names -/

def isNameChar (c : Char) : Bool := c.isAlphanum || c = '-' || c = '_'

def readName (place : Place) : Option (String × Place) :=
  let (name, behind) := place.span isNameChar
  let followed := behind.gapAt 0 || behind.rest.head?.any fun c => "?:,]\x7d%@\x60".toList.contains c
  if name.isEmpty || !followed then none else some (String.ofList name, behind)

def isTagChar (c : Char) : Bool := isNameChar c || ";/?:@&=+$.%!~*\x27()".toList.contains c

def decodeTag : List Char → (bytes : List UInt8) → Option (List UInt8)
  | [], bytes => some bytes.reverse
  | '%' :: a :: b :: rest, bytes =>
    match hexNumber? [a, b] with
    | some byte => decodeTag rest (byte.toUInt8 :: bytes)
    | none => none
  | '%' :: _, _ => none
  | c :: rest, bytes => decodeTag rest ((String.singleton c).toUTF8.toList.reverse ++ bytes)

def tagText? (text : List Char) : Option String :=
  (decodeTag text []).bind fun bytes => String.fromUTF8? ⟨bytes.toArray⟩

/-- Reads a tag: its handle and the rest of it. A verbatim tag stands between angle brackets and has
no handle. -/
def readTag (inFlow : Bool) (place : Place) : Option (Token × Place) := do
  let (token, behind) ← match place.rest with
    | '!' :: '<' :: _ =>
      let (text, behind) := (place.skip 2).span fun c => isTagChar c || c = ',' || c = '[' || c = ']'
      if text.isEmpty || behind.rest.head? ≠ some '>' then none
      else some (Token.tag "" (← tagText? text), behind.skip 1)
    | _ =>
      let (name, behind) := (place.skip 1).span isNameChar
      if behind.rest.head? = some '!' then
        let (text, behind) := (behind.skip 1).span isTagChar
        if text.isEmpty then none
        else some (Token.tag (String.ofList ('!' :: name ++ ['!'])) (← tagText? text), behind)
      else
        let (text, behind) := (place.skip 1).span isTagChar
        if text.isEmpty then some (Token.tag "" "!", behind)
        else some (Token.tag "!" (← tagText? text), behind)
  if behind.gapAt 0 || (inFlow && behind.rest.head? = some ',') then some (token, behind) else none

/-- Reads a directive behind its percent sign, up to the end of its line. -/
def readDirective (place : Place) : Option (Token × Place) := do
  let (name, place) := place.span isNameChar
  if !place.gapAt 0 then none
  else
    let place := (place.span isBlank).2
    let (token, place) ← match String.ofList name with
      | "YAML" =>
        let (major, place) := place.span Char.isDigit
        if major.isEmpty || place.rest.head? ≠ some '.' then none
        else
          let (minor, place) := (place.skip 1).span Char.isDigit
          if minor.isEmpty || major ≠ ['1'] then none else some (Token.versionDirective, place)
      | "TAG" =>
        let (handle, place) := place.span fun c => !isBlank c
        let named := handle = ['!'] || (2 ≤ handle.length && handle.head? = some '!' && handle.getLast? = some '!' &&
          ((handle.drop 1).dropLast).all isNameChar)
        if !named || !(place.rest.head?.any isBlank) then none
        else
          let (leading, place) := (place.span isBlank).2.span fun c => isTagChar c || c = ',' || c = '[' || c = ']'
          if leading.isEmpty || !place.gapAt 0 then none
          else some (Token.tagDirective (String.ofList handle) (← tagText? leading), place)
      | _ => none
    let place := (place.span isBlank).2
    let place := if place.rest.head? = some '#' then (place.span fun _ => true).2 else place
    match place.rest with
    | [] => some (token, place)
    | _ => place.breakLine?.map fun (_, place) => (token, place)

/-! ### Tokens -/

/-- Appends a token that is the next `width` characters. -/
def emitMark (s : Scanner) (width : Nat) (token : Token) : Scanner := { s.emit token with place := s.place.skip width }

def emitScalar (s : Scanner) (style : Style) (text : List Char) (place : Place) : Scanner :=
  { s.emit (.scalar style (String.ofList text)) with place }

def leaveBlocks (s : Scanner) : Option Scanner := do
  let s ← (s.endBlocks (-1)).dropKey
  some { s with keyAllowed := false }

def takeValue (s : Scanner) : Option Scanner :=
  match s.keys with
  | some key :: outer =>
    let s := s.insert key.tokens .key
    let s := s.beginBlock key.column key.tokens .blockMappingStart
    some { s.emitMark 1 .value with keys := none :: outer, keyAllowed := false }
  | _ =>
    if s.inFlow then some { s.emitMark 1 .value with keyAllowed := false }
    else if !s.keyAllowed then none
    else some { (s.beginBlock s.place.column s.count .blockMappingStart).emitMark 1 .value with keyAllowed := true }

def takeBlockEntry (s : Scanner) : Option Scanner := do
  if !s.inFlow && !s.keyAllowed then none
  else
    let s ← (s.beginBlock s.place.column s.count .blockSequenceStart).dropKey
    some { s.emitMark 1 .blockEntry with keyAllowed := true }

def takeKey (s : Scanner) : Option Scanner := do
  if !s.inFlow && !s.keyAllowed then none
  else
    let s ← (s.beginBlock s.place.column s.count .blockMappingStart).dropKey
    some { s.emitMark 1 .key with keyAllowed := !s.inFlow }

def openFlow (s : Scanner) (token : Token) : Option Scanner := do
  let s ← s.saveKey
  some { s.emitMark 1 token with keys := none :: s.keys, keyAllowed := true }

def closeFlow (s : Scanner) (token : Token) : Option Scanner := do
  let s ← s.dropKey
  some { s.emitMark 1 token with keys := if s.inFlow then s.keys.drop 1 else s.keys, keyAllowed := false }

def takePlain (s : Scanner) : Option Scanner := do
  let s ← s.saveKey
  let (text, place, broken) ← readPlain s.inFlow (s.indent + 1).toNat (s.place.rest.length + 1) s.place {}
  some { s.emitScalar .plain text place with keyAllowed := broken }

def takeQuoted (s : Scanner) (style : Style) : Option Scanner := do
  let s ← s.saveKey
  let (text, place) ← readQuoted style (s.place.rest.length + 1) (s.place.skip 1)
  some { s.emitScalar style text place with keyAllowed := false }

def takeBlockScalar (s : Scanner) (style : Style) : Option Scanner := do
  let s ← s.dropKey
  let (text, place) ← readBlock (style = .literal) s.indent (s.place.skip 1)
  some { s.emitScalar style text place with keyAllowed := true }

def takeProperty (s : Scanner) (read : Place → Option (Token × Place)) : Option Scanner := do
  let s ← s.saveKey
  let (token, place) ← read s.place
  some { s.emit token with place, keyAllowed := false }

def take (s : Scanner) (c : Char) : Option Scanner :=
  if s.place.column = 0 && c = '%' then do
    let s ← s.leaveBlocks
    let (token, place) ← readDirective (s.place.skip 1)
    some { s.emit token with place }
  else if s.place.atDocumentMark ['-', '-', '-'] then s.leaveBlocks.map (·.emitMark 3 .documentStart)
  else if s.place.atDocumentMark ['.', '.', '.'] then s.leaveBlocks.map (·.emitMark 3 .documentEnd)
  else if c = '[' then s.openFlow .flowSequenceStart
  else if c = '\x7b' then s.openFlow .flowMappingStart
  else if c = ']' then s.closeFlow .flowSequenceEnd
  else if c = '\x7d' then s.closeFlow .flowMappingEnd
  else if c = ',' then s.dropKey.map fun s => { s.emitMark 1 .flowEntry with keyAllowed := true }
  else if c = '-' && s.place.gapAt 1 then s.takeBlockEntry
  else if c = '?' && (s.inFlow || s.place.gapAt 1) then s.takeKey
  else if c = ':' && (s.inFlow || s.place.gapAt 1) then s.takeValue
  else if c = '*' then s.takeProperty fun place => (readName (place.skip 1)).map fun (name, place) => (.aliasOf name, place)
  else if c = '&' then s.takeProperty fun place => (readName (place.skip 1)).map fun (name, place) => (.anchor name, place)
  else if c = '!' then s.takeProperty (readTag s.inFlow)
  else if c = '|' && !s.inFlow then s.takeBlockScalar .literal
  else if c = '>' && !s.inFlow then s.takeBlockScalar .folded
  else if c = '\x27' then s.takeQuoted .singleQuoted
  else if c = '\x22' then s.takeQuoted .doubleQuoted
  else
    let isIndicator := "-?:,[]\x7b\x7d#&*!|>\x27\x22%@\x60".toList.contains c
    let dashed := c = '-' && !(s.place.rest[1]?.any isBlank)
    let marked := !s.inFlow && (c = '?' || c = ':') && !s.place.gapAt 1
    if !isIndicator && !isBlank c || dashed || marked then s.takePlain else none

def run : (fuel : Nat) → Scanner → Option Scanner
  | 0, _ => none
  | fuel + 1, s => do
    let s ← (passBlanks (s.place.rest.length + 1) s).dropStaleKeys
    let s := s.endBlocks s.place.column
    match s.place.rest with
    | [] =>
      let s := if s.place.column = 0 then s else { s with place := { s.place with column := 0, line := s.place.line + 1 } }
      s.leaveBlocks
    | c :: _ => run fuel (← s.take c)

end Scanner

def isPrintable (c : Char) : Bool :=
  c = '\t' || c = '\n' || c = '\r' || (0x20 ≤ c.toNat && c.toNat ≤ 0x7E) || c = '\u0085' ||
    (0xA0 ≤ c.toNat && c.toNat ≤ 0xFFFD) || 0x10000 ≤ c.toNat

def tokens? (text : List Char) : Option (List Token) :=
  if text.all isPrintable then
    (Scanner.run (text.length + 1) { place := { rest := text } }).map fun s => s.tokens.reverse
  else none

end SchemaDocs.Yaml
