import SchemaDocs.Markdown.BlockStructure
import SchemaDocs.Markdown.Heading
import SchemaDocs.Markdown.Html
import SchemaDocs.Markdown.PlainText
import SchemaDocs.Markdown.Sanitize

/-!
# Rendering Markdown

A text is rendered to HTML and a summary unless it is too long or holds a control character; a
refused text renders as nothing. The renderer keeps what it has rendered, so that a text that occurs
in several documents is rendered once.
-/

namespace SchemaDocs.Markdown

/-- The greatest number of bytes that is accepted by default. -/
def defaultLimit : Nat := 1048576

inductive RenderError where
  | controlCharacter (offset : Nat)
  | tooLarge (length limit : Nat)
deriving DecidableEq, Repr

def RenderError.message : RenderError → String
  | .controlCharacter offset => "Control character at byte " ++ toString offset
  | .tooLarge length limit => "Input of " ++ toString length ++ " bytes exceeds limit of " ++ toString limit

/-- ASCII control characters other than tabs and line ends. -/
def isRefused (c : Char) : Bool := (c.toNat < 32 || c.toNat = 127) && c ≠ '\t' && c ≠ '\n' && c ≠ '\r'

/-- The byte offset of the first refused character, where the text begins at `offset`. -/
def refusedOffset? (offset : Nat) : List Char → Option Nat
  | [] => none
  | c :: rest => if isRefused c then some offset else refusedOffset? (offset + c.utf8Size) rest

/-- Why a text is refused under a limit, if it is. -/
def refusal? (limit : Nat) (text : String) : Option RenderError :=
  if limit < text.utf8ByteSize then some (.tooLarge text.utf8ByteSize limit)
  else (refusedOffset? 0 text.toList).map .controlCharacter

/-- The HTML of a document: its headings have anchors, and it holds nothing harmful. -/
def renderEvents (events : List Event) : String :=
  html (sanitize (withAnchors ((headings events).map (·.id)) events))

def render? (limit : Nat) (text : String) : Except RenderError String :=
  match refusal? limit text with
  | some error => .error error
  | none => .ok (renderEvents (events text))

structure Rendered where
  html : String := ""
  summary : String := ""
deriving DecidableEq, Repr

/-- The HTML and the summary of a text, both empty if it is refused. -/
def Rendered.ofText (limit : Nat) (text : String) : Rendered :=
  match refusal? limit text with
  | some _ => {}
  | none =>
    let events := events text
    ⟨renderEvents events, String.ofList (firstSentence (plainText events))⟩

/-- A renderer with the texts it has rendered, and the number of renderings it has done. -/
structure Renderer where
  limit : Nat := defaultLimit
  cache : List (String × Rendered) := []
  renders : Nat := 0

namespace Renderer

def cached (renderer : Renderer) : Nat := renderer.cache.length

/-- What is kept of a text, which is rendered if it is new. -/
def rendered (text : String) (renderer : Renderer) : Rendered × Renderer :=
  match renderer.cache.lookup text with
  | some rendered => (rendered, renderer)
  | none =>
    let rendered := Rendered.ofText renderer.limit text
    (rendered, { renderer with cache := (text, rendered) :: renderer.cache, renders := renderer.renders + 1 })

def render (text : String) : StateM Renderer String := fun renderer =>
  let (rendered, renderer) := renderer.rendered text
  (rendered.html, renderer)

def summary (text : String) : StateM Renderer String := fun renderer =>
  let (rendered, renderer) := renderer.rendered text
  (rendered.summary, renderer)

/-- The HTML of a comment; without a comment it is empty. -/
def renderComment (comment : Option String) : StateM Renderer String :=
  match comment with
  | some text => render text
  | none => pure ""

/-- The summary of a comment; without a comment it is empty. -/
def summarizeComment (comment : Option String) : StateM Renderer String :=
  match comment with
  | some text => summary text
  | none => pure ""

end Renderer

end SchemaDocs.Markdown
