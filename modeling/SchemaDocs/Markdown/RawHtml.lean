import SchemaDocs.Markdown.Line

/-!
# Raw HTML and addresses between angle brackets

What may stand between angle brackets within a line, and which lines begin a block of raw HTML.
Functions on text within a line begin behind the opening bracket and return what is left behind the
closing one.
-/

namespace SchemaDocs.Markdown

/-! ### Addresses -/

/-- The text behind an absolute address and its closing bracket: a scheme of two to 32 characters, a
colon, and no blanks or brackets. -/
def addressEnd? (text : List Char) : Option (List Char) :=
  match text with
  | [] => none
  | first :: rest =>
    let scheme := rest.takeWhile fun c => isAsciiAlphanumeric c || c = '.' || c = '-' || c = '+'
    if isAsciiLetter first && 1 ≤ scheme.length && scheme.length ≤ 31 then
      match rest.drop scheme.length with
      | ':' :: rest =>
        match rest.dropWhile fun c => 0x20 < c.toNat && c ≠ '<' && c ≠ '>' with
        | '>' :: rest => some rest
        | _ => none
      | _ => none
    else none

def isMailChar (c : Char) : Bool :=
  isAsciiAlphanumeric c || ".!#$%&\x27*+/=?^_\x60\x7b|\x7d~-".toList.contains c

/-- The text behind the dotted labels of a mail address and its closing bracket. -/
def mailLabelsEnd? : (fuel : Nat) → List Char → Option (List Char)
  | 0, _ => none
  | fuel + 1, text =>
    let label := text.takeWhile fun c => isAsciiAlphanumeric c || c = '-'
    if label.isEmpty || 63 < label.length || label.head? = some '-' || label.getLast? = some '-' then none
    else
      match text.drop label.length with
      | '.' :: rest => mailLabelsEnd? fuel rest
      | '>' :: rest => some rest
      | _ => none

def mailAddressEnd? (text : List Char) : Option (List Char) :=
  match text.takeWhile isMailChar, text.dropWhile isMailChar with
  | [], _ => none
  | _, '@' :: rest => mailLabelsEnd? rest.length rest
  | _, _ => none

/-! ### Tags, comments, instructions and declarations -/

/-- The text behind blanks; line ends are passed only if `acrossLines`. -/
def passHtmlBlanks (acrossLines : Bool) (text : List Char) : List Char :=
  text.dropWhile fun c => isLineBlank c || (acrossLines && isLineEnd c)

def attributeValueEnd? (acrossLines : Bool) (text : List Char) : Option (List Char) :=
  match text with
  | [] => none
  | c :: rest =>
    if c = '\x22' || c = '\x27' then
      match rest.dropWhile fun d => d ≠ c && (acrossLines || !isLineEnd d) with
      | d :: rest => if d = c then some rest else none
      | [] => none
    else
      let isValueChar (d : Char) : Bool := d ≠ ' ' && !isLineEnd d && !"\x22\x27=<>\x60".toList.contains d
      if isValueChar c then some (rest.dropWhile isValueChar) else none

/-- The text behind an attribute. Blanks behind its name belong to it only if a value follows. -/
def attributeEnd? (acrossLines : Bool) (text : List Char) : Option (List Char) :=
  match text with
  | [] => none
  | c :: rest =>
    if isAsciiLetter c || c = '_' || c = ':' then
      let behindName := rest.dropWhile fun d =>
        isAsciiAlphanumeric d || d = '_' || d = '.' || d = ':' || d = '-'
      match passHtmlBlanks acrossLines behindName with
      | '=' :: rest => attributeValueEnd? acrossLines (passHtmlBlanks acrossLines rest)
      | _ => some behindName
    else none

def attributesEnd? (acrossLines : Bool) : (fuel : Nat) → List Char → Option (List Char)
  | 0, _ => none
  | fuel + 1, text =>
    let behind := passHtmlBlanks acrossLines text
    match behind with
    | '>' :: rest => some rest
    | '/' :: '>' :: rest => some rest
    | _ =>
      if behind.length = text.length then none
      else (attributeEnd? acrossLines behind).bind (attributesEnd? acrossLines fuel)

def tagEnd? (acrossLines : Bool) (text : List Char) : Option (List Char) :=
  let isNameChar (c : Char) : Bool := isAsciiAlphanumeric c || c = '-'
  match text with
  | '/' :: c :: rest =>
    if isAsciiLetter c then
      match (rest.dropWhile isNameChar).dropWhile isLineBlank with
      | '>' :: rest => some rest
      | _ => none
    else none
  | c :: rest =>
    if isAsciiLetter c then attributesEnd? acrossLines (rest.length + 1) (rest.dropWhile isNameChar) else none
  | [] => none

/-- The text behind the first occurrence of `mark`. -/
def behindFirst? (mark : List Char) : List Char → Option (List Char)
  | [] => if mark.isEmpty then some [] else none
  | c :: rest =>
    if mark.isPrefixOf (c :: rest) then some ((c :: rest).drop mark.length) else behindFirst? mark rest

/-- The text behind character data: it ends at the first run of closing brackets, if a closing angle
bracket follows that. -/
def characterDataEnd? (text : List Char) : Option (List Char) :=
  match text.dropWhile (· ≠ ']') with
  | ']' :: rest =>
    match rest.dropWhile (· = ']') with
    | '>' :: rest => some rest
    | _ => none
  | _ => none

/-- The text behind a comment, an instruction, character data or a declaration within a line. -/
def markupEnd? (text : List Char) : Option (List Char) :=
  match text with
  | '!' :: '-' :: '-' :: '>' :: rest => some rest
  | '!' :: '-' :: '-' :: '-' :: '>' :: rest => some rest
  | '!' :: '-' :: '-' :: rest => behindFirst? ['-', '-', '>'] rest
  | '!' :: '[' :: 'C' :: 'D' :: 'A' :: 'T' :: 'A' :: '[' :: rest => characterDataEnd? rest
  | '!' :: c :: rest => if isAsciiLetter c then behindFirst? ['>'] rest else none
  | '?' :: rest => behindFirst? ['?', '>'] rest
  | _ => none

/-- The text with margins put back behind its line ends. -/
def restoreMargins : (margins : List (List Char)) → List Char → List Char
  | margin :: margins, '\r' :: '\n' :: rest => '\r' :: '\n' :: (margin ++ restoreMargins margins rest)
  | margin :: margins, c :: rest =>
    if isLineEnd c then c :: (margin ++ restoreMargins margins rest) else c :: restoreMargins (margin :: margins) rest
  | _, rest => rest

/-- Raw HTML behind its opening bracket and the text behind it. A tag is taken without the margins
of its lines, which are given for the last lines of the text, and everything else with them. -/
def readRawHtml? (margins : List (List Char)) (text : List Char) : Option (List Char × List Char) :=
  let breaksIn (text : List Char) : Nat := (splitLines text).length - 1
  let lastMargins (text : List Char) : List (List Char) := margins.drop (margins.length - breaksIn text)
  match tagEnd? true text with
  | some behind => some (text.take (text.length - behind.length), behind)
  | none =>
    let whole := restoreMargins (lastMargins text) text
    (markupEnd? whole).map fun behind =>
      let length := behind.length - (lastMargins behind).flatten.length
      let line := ((splitLines text).drop (breaksIn text - breaksIn behind)).flatMap fun line => line.text ++ line.ending
      (whole.take (whole.length - behind.length), text.drop (text.length - min length line.length))

/-! ### Blocks -/

/-- Elements whose tags begin a block wherever a line may begin with them. -/
def blockElements : List String :=
  ["address", "article", "aside", "base", "basefont", "blockquote", "body", "caption", "center", "col", "colgroup", "dd", "details", "dialog", "dir", "div", "dl", "dt", "fieldset", "figcaption", "figure", "footer", "form", "frame", "frameset", "h1", "h2", "h3", "h4", "h5", "h6", "head", "header", "hr", "html", "iframe", "legend", "li", "link", "main", "menu", "menuitem", "nav", "noframes", "ol", "optgroup", "option", "p", "param", "search", "section", "summary", "table", "tbody", "td", "tfoot", "th", "thead", "title", "tr", "track", "ul"]

/-- Elements whose block ends with their closing tag. -/
def verbatimElements : List String := ["pre", "style", "script", "textarea"]

/-- How a block of raw HTML ends: behind a mark, or before a blank line. -/
inductive HtmlEnd where
  | mark (text : List Char)
  | blankLine
deriving DecidableEq

/-- The mark that ends a block which begins with the text behind an opening bracket. -/
def endMark? (text : List Char) : Option (List Char) :=
  let verbatim? := verbatimElements.find? fun name =>
    (text.take name.length).map Char.toLower = name.toList &&
      (match text.drop name.length with
        | [] => true
        | c :: _ => isAsciiBlank c || c = '>')
  match verbatim? with
  | some name => some ('<' :: '/' :: name.toList ++ ['>'])
  | none =>
    match text with
    | '!' :: '-' :: '-' :: _ => some ['-', '-', '>']
    | '?' :: _ => some ['?', '>']
    | '!' :: '[' :: 'C' :: 'D' :: 'A' :: 'T' :: 'A' :: '[' :: _ => some [']', ']', '>']
    | '!' :: c :: _ => if isAsciiLetter c then some ['>'] else none
    | _ => none

def beginsBlockElement (text : List Char) : Bool :=
  let text := match text with
    | '/' :: rest => rest
    | _ => text
  let name := text.takeWhile isAsciiAlphanumeric
  blockElements.contains (String.ofList (name.map Char.toLower)) &&
    (match text.drop name.length with
      | [] => true
      | '/' :: '>' :: _ => true
      | c :: _ => c = ' ' || c = '\t' || c = '>')

/-- How the block of raw HTML ends that the text of a line begins. `fresh` tells that no paragraph
is interrupted: only then a tag of any element that fills its line begins a block. -/
def htmlBlock? (fresh : Bool) (text : List Char) : Option HtmlEnd :=
  match text with
  | '<' :: rest =>
    match endMark? rest with
    | some mark => some (.mark mark)
    | none =>
      if beginsBlockElement rest then some .blankLine
      else if fresh && ((tagEnd? false rest).any isBlankRest) then some .blankLine
      else none
  | _ => none

end SchemaDocs.Markdown
