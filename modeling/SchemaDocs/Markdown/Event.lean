/-!
# Events of a document

A document is a stream of events: elements begin and end, and between stand texts, breaks and marks.
What is done to a document, such as finding its headings or writing it as HTML, is done to its
events.
-/

namespace SchemaDocs.Markdown

inductive Alignment where
  | none
  | left
  | center
  | right
deriving DecidableEq, Repr

inductive Tag where
  | paragraph
  | heading (level : Nat) (anchor : Option String)
  | blockQuote
  /-- A block of code: fenced with an info string, or indented. -/
  | codeBlock (info : Option String)
  | htmlBlock
  /-- A bulleted list, or one numbered from a start. -/
  | list (start : Option Nat)
  | item
  | footnoteDefinition (label : String)
  | table (alignments : List Alignment)
  | tableHead
  | tableRow
  | tableCell
  | emphasis
  | strong
  | strikethrough
  /-- A link; the target of an address for mail lacks its scheme. -/
  | link (mail : Bool) (target title : String)
  | image (target title : String)
deriving DecidableEq, Repr

inductive TagEnd where
  | paragraph
  | heading (level : Nat)
  | blockQuote
  | codeBlock
  | htmlBlock
  | list (numbered : Bool)
  | item
  | footnoteDefinition
  | table
  | tableHead
  | tableRow
  | tableCell
  | emphasis
  | strong
  | strikethrough
  | link
  | image
deriving DecidableEq, Repr

inductive Event where
  | start (tag : Tag)
  | stop (tag : TagEnd)
  | text (text : String)
  | code (text : String)
  /-- A line of a block of raw HTML. -/
  | html (text : String)
  /-- Raw HTML within a line. -/
  | inlineHtml (text : String)
  | softBreak
  | hardBreak
  | rule
  | footnoteReference (label : String)
  | taskMarker (checked : Bool)
deriving DecidableEq, Repr

def Tag.closing : Tag → TagEnd
  | .paragraph => .paragraph
  | .heading level _ => .heading level
  | .blockQuote => .blockQuote
  | .codeBlock _ => .codeBlock
  | .htmlBlock => .htmlBlock
  | .list start => .list start.isSome
  | .item => .item
  | .footnoteDefinition _ => .footnoteDefinition
  | .table _ => .table
  | .tableHead => .tableHead
  | .tableRow => .tableRow
  | .tableCell => .tableCell
  | .emphasis => .emphasis
  | .strong => .strong
  | .strikethrough => .strikethrough
  | .link _ _ _ => .link
  | .image _ _ => .image

def Tag.around (tag : Tag) (content : List Event) : List Event :=
  .start tag :: content ++ [.stop tag.closing]

end SchemaDocs.Markdown
