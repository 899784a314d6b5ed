import SchemaDocs.Markdown.Event

/-!
# Writing HTML

Events are written one after the other. The writer remembers whether the last line is ended, which
numbers footnotes have got, whether it is in the head of a table, and the image whose content it is
turning into an alternative text.
-/

namespace SchemaDocs.Markdown

def escapeBodyChar (c : Char) : List Char :=
  if c = '&' then "&amp;".toList
  else if c = '<' then "&lt;".toList
  else if c = '>' then "&gt;".toList
  else [c]

def escapeAttributeChar (c : Char) : List Char := if c = '\x22' then "&quot;".toList else escapeBodyChar c

def escapeBody (text : String) : String := String.ofList (text.toList.flatMap escapeBodyChar)

def escapeAttribute (text : String) : String := String.ofList (text.toList.flatMap escapeAttributeChar)

/-- The characters that stand for themselves in an address. -/
def isAddressSafe (c : Char) : Bool := c.isAlphanum || "!#$%()*+,-./:;=?@_~".toList.contains c

def percentByte (byte : UInt8) : List Char :=
  let digit (n : Nat) : Char := if n < 10 then Char.ofNat (48 + n) else Char.ofNat (55 + n)
  ['%', digit (byte.toNat / 16), digit (byte.toNat % 16)]

def escapeAddressChar (c : Char) : List Char :=
  if isAddressSafe c then [c]
  else if c = '&' then "&amp;".toList
  else if c = '\x27' then "&#x27;".toList
  else (String.singleton c).toUTF8.toList.flatMap percentByte

def escapeAddress (address : String) : String := String.ofList (address.toList.flatMap escapeAddressChar)

/-- The state of a writer. `image` holds the depth of elements within an image and its title. -/
structure Writer where
  lineEnded : Bool := true
  footnotes : List String := []
  alignments : List Alignment := []
  inTableHead : Bool := false
  column : Nat := 0
  image : Option (Nat × String) := none

namespace Writer

def put (writer : Writer) (text : String) : Writer × String :=
  (if text.isEmpty then writer else { writer with lineEnded := text.toList.getLast? = some '\n' }, text)

def putLine (writer : Writer) (text : String) : Writer × String :=
  writer.put (if writer.lineEnded then text else "\n" ++ text)

/-- The number of a footnote: the order in which labels are first met. -/
def footnoteNumber (writer : Writer) (label : String) : Writer × Nat :=
  if writer.footnotes.contains label then (writer, writer.footnotes.idxOf label + 1)
  else ({ writer with footnotes := writer.footnotes ++ [label] }, writer.footnotes.length + 1)

/-- A title attribute; an empty title has none. -/
def titleAttribute (title : String) : String :=
  if title.isEmpty then "" else " title=\"" ++ escapeAttribute title ++ "\""

def start (writer : Writer) : Tag → Writer × String
  | .paragraph => writer.putLine "<p>"
  | .heading level anchor =>
    let id := match anchor with
      | some anchor => " id=\"" ++ escapeAttribute anchor ++ "\""
      | none => ""
    writer.putLine ("<h" ++ toString level ++ id ++ ">")
  | .blockQuote => writer.putLine "<blockquote>\n"
  | .codeBlock none => writer.putLine "<pre><code>"
  | .codeBlock (some info) =>
    let language := String.ofList (info.toList.takeWhile (· ≠ ' '))
    if language.isEmpty then writer.putLine "<pre><code>"
    else writer.putLine ("<pre><code class=\"language-" ++ escapeAttribute language ++ "\">")
  | .htmlBlock => (writer, "")
  | .list none => writer.putLine "<ul>\n"
  | .list (some 1) => writer.putLine "<ol>\n"
  | .list (some start) => writer.putLine ("<ol start=\"" ++ toString start ++ "\">\n")
  | .item => writer.putLine "<li>"
  | .footnoteDefinition label =>
    let (writer, number) := writer.footnoteNumber label
    writer.putLine
      ("<div class=\"footnote-definition\" id=\"" ++ escapeAttribute label ++
        "\"><sup class=\"footnote-definition-label\">" ++ toString number ++ "</sup>")
  | .table alignments => { writer with alignments }.put "<table>"
  | .tableHead => { writer with inTableHead := true, column := 0 }.put "<thead><tr>"
  | .tableRow => { writer with column := 0 }.put "<tr>"
  | .tableCell =>
    let name := if writer.inTableHead then "<th" else "<td"
    let style := match writer.alignments[writer.column]? with
      | some .left => " style=\"text-align: left\""
      | some .center => " style=\"text-align: center\""
      | some .right => " style=\"text-align: right\""
      | _ => ""
    writer.put (name ++ style ++ ">")
  | .emphasis => writer.put "<em>"
  | .strong => writer.put "<strong>"
  | .strikethrough => writer.put "<del>"
  | .link mail target title =>
    writer.put ("<a href=\"" ++ (if mail then "mailto:" else "") ++ escapeAddress target ++ "\"" ++ titleAttribute title ++ ">")
  | .image target title =>
    { writer with image := some (0, title) }.put ("<img src=\"" ++ escapeAddress target ++ "\" alt=\"")

def stop (writer : Writer) : TagEnd → Writer × String
  | .paragraph => writer.put "</p>\n"
  | .heading level => writer.put ("</h" ++ toString level ++ ">\n")
  | .blockQuote => writer.put "</blockquote>\n"
  | .codeBlock => writer.put "</code></pre>\n"
  | .htmlBlock => (writer, "")
  | .list numbered => writer.put (if numbered then "</ol>\n" else "</ul>\n")
  | .item => writer.put "</li>\n"
  | .footnoteDefinition => writer.put "</div>\n"
  | .table => writer.put "</tbody></table>\n"
  | .tableHead => { writer with inTableHead := false }.put "</tr></thead><tbody>\n"
  | .tableRow => writer.put "</tr>\n"
  | .tableCell =>
    { writer with column := writer.column + 1 }.put (if writer.inTableHead then "</th>" else "</td>")
  | .emphasis => writer.put "</em>"
  | .strong => writer.put "</strong>"
  | .strikethrough => writer.put "</del>"
  | .link => writer.put "</a>"
  | .image => (writer, "")

/-- Writes an event within an image, of which only the text counts. -/
def stepImage (writer : Writer) (depth : Nat) (title : String) : Event → Writer × String
  | .start _ => ({ writer with image := some (depth + 1, title) }, "")
  | .stop _ =>
    if depth = 0 then { writer with image := none }.put ("\"" ++ titleAttribute title ++ " />")
    else ({ writer with image := some (depth - 1, title) }, "")
  | .html _ => (writer, "")
  | .text text | .code text | .inlineHtml text => writer.put (escapeAttribute text)
  | .softBreak | .hardBreak | .rule => writer.put " "
  | .footnoteReference label =>
    let (writer, number) := writer.footnoteNumber label
    writer.put ("[" ++ toString number ++ "]")
  | .taskMarker checked => writer.put (if checked then "[x]" else "[ ]")

def step (writer : Writer) (event : Event) : Writer × String :=
  match writer.image with
  | some (depth, title) => writer.stepImage depth title event
  | none =>
    match event with
    | .start tag => writer.start tag
    | .stop tag => writer.stop tag
    | .text text => ({ writer with lineEnded := text.toList.getLast? = some '\n' }, escapeBody text)
    | .code text => writer.put ("<code>" ++ escapeBody text ++ "</code>")
    | .html text | .inlineHtml text => writer.put text
    | .softBreak => writer.put "\n"
    | .hardBreak => writer.put "<br />\n"
    | .rule => writer.putLine "<hr />\n"
    | .footnoteReference label =>
      let (writer, number) := writer.footnoteNumber label
      writer.put
        ("<sup class=\"footnote-reference\"><a href=\"#" ++ escapeAttribute label ++ "\">" ++ toString number ++
          "</a></sup>")
    | .taskMarker checked =>
      writer.put
        (if checked then "<input disabled=\"\" type=\"checkbox\" checked=\"\"/>\n"
          else "<input disabled=\"\" type=\"checkbox\"/>\n")

def write : Writer → List Event → List String
  | _, [] => []
  | writer, event :: events =>
    let (writer, text) := writer.step event
    text :: writer.write events

end Writer

def html (events : List Event) : String := String.join (Writer.write {} events)

end SchemaDocs.Markdown
