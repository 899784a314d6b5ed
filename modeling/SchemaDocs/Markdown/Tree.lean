import SchemaDocs.Markdown.Event

/-!
# Document trees

Blocks hold blocks or running content. The type of the running content is a parameter: a document is
first split into blocks around raw text, and the raw text is then read as inline content. A tree is
made into events by `events`, so that beginnings and ends always match.
-/

namespace SchemaDocs.Markdown

inductive Inline where
  | text (text : String)
  | code (text : String)
  | html (text : String)
  | softBreak
  | hardBreak
  | footnoteReference (label : String)
  | taskMarker (checked : Bool)
  | emphasis (content : List Inline)
  | strong (content : List Inline)
  | strikethrough (content : List Inline)
  | link (mail : Bool) (target title : String) (content : List Inline)
  | image (target title : String) (content : List Inline)
deriving Repr, Inhabited

mutual

def Inline.events : Inline → List Event
  | .text raw => [.text raw]
  | .code raw => [.code raw]
  | .html raw => [.inlineHtml raw]
  | .softBreak => [.softBreak]
  | .hardBreak => [.hardBreak]
  | .footnoteReference label => [.footnoteReference label]
  | .taskMarker checked => [.taskMarker checked]
  | .emphasis content => Tag.emphasis.around (Inline.listEvents content)
  | .strong content => Tag.strong.around (Inline.listEvents content)
  | .strikethrough content => Tag.strikethrough.around (Inline.listEvents content)
  | .link mail target title content => (Tag.link mail target title).around (Inline.listEvents content)
  | .image target title content => (Tag.image target title).around (Inline.listEvents content)

def Inline.listEvents : List Inline → List Event
  | [] => []
  | inline :: rest => inline.events ++ Inline.listEvents rest

end

/-- A block around running content of type `ι`. -/
inductive Block (ι : Type) where
  | paragraph (content : ι)
  /-- A paragraph of a tight list, which is not marked as one. -/
  | plain (content : ι)
  | heading (level : Nat) (content : ι)
  | rule
  | code (info : Option String) (lines : List String)
  | html (lines : List String)
  | quote (blocks : List (Block ι))
  | list (start : Option Nat) (items : List (Block ι))
  | item (blocks : List (Block ι))
  | footnote (label : String) (blocks : List (Block ι))
  | table (alignments : List Alignment) (head : List ι) (rows : List (List ι))
deriving Inhabited

def rowEvents (tag : Tag) (cells : List (List Inline)) : List Event :=
  tag.around (cells.flatMap fun cell => Tag.tableCell.around (Inline.listEvents cell))

mutual

def Block.events : Block (List Inline) → List Event
  | .paragraph content => Tag.paragraph.around (Inline.listEvents content)
  | .plain content => Inline.listEvents content
  | .heading level content => (Tag.heading level none).around (Inline.listEvents content)
  | .rule => [.rule]
  | .code info lines => (Tag.codeBlock info).around (lines.map .text)
  | .html lines => Tag.htmlBlock.around (lines.map .html)
  | .quote blocks => Tag.blockQuote.around (Block.listEvents blocks)
  | .list start items => (Tag.list start).around (Block.listEvents items)
  | .item blocks => Tag.item.around (Block.listEvents blocks)
  | .footnote label blocks => (Tag.footnoteDefinition label).around (Block.listEvents blocks)
  | .table alignments head rows =>
    (Tag.table alignments).around (rowEvents .tableHead head ++ rows.flatMap (rowEvents .tableRow))

def Block.listEvents : List (Block (List Inline)) → List Event
  | [] => []
  | block :: blocks => block.events ++ Block.listEvents blocks

end

end SchemaDocs.Markdown
