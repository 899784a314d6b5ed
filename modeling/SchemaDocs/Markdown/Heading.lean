import SchemaDocs.Markdown.Event
import SchemaDocs.Text.Slug

/-!
# Headings and their anchors

The headings of a document make its table of contents. An anchor is the slug of the heading's text,
`section` where there is none, and gets a number when an earlier heading has it already.
-/

namespace SchemaDocs.Markdown

structure TocEntry where
  title : String
  id : String
  level : Nat
deriving DecidableEq, Repr

/-- The anchor of a heading before it is made unique. -/
def anchorBase (title : String) : String :=
  let slug := Text.slugify title
  if slug.isEmpty then "section" else slug

/-- The anchors tried for a heading: the base, then the base with the numbers from two on. -/
def anchorCandidate (base : String) (attempt : Nat) : String :=
  if attempt = 0 then base else base ++ "-" ++ toString (attempt + 1)

/-- The first candidate from `attempt` on that is not used. -/
def freeAnchor (used : List String) (base : String) : (fuel attempt : Nat) → String
  | 0, attempt => anchorCandidate base attempt
  | fuel + 1, attempt =>
    let candidate := anchorCandidate base attempt
    if used.contains candidate then freeAnchor used base fuel (attempt + 1) else candidate

/-- The anchor of a heading behind those that use the given anchors. One of as many candidates as
there are anchors and one more is free. -/
def uniqueAnchor (used : List String) (title : String) : String :=
  freeAnchor used (anchorBase title) used.length 0

/-- The headings from an event on, given the anchors used before and the heading that the event
stands in. -/
def headingsFrom : (used : List String) → (current : Option (Nat × String)) → List Event → List TocEntry
  | _, _, [] => []
  | used, current, event :: events =>
    match event, current with
    | .start (.heading level _), _ => headingsFrom used (some (level, "")) events
    | .text text, some (level, title) => headingsFrom used (some (level, title ++ text)) events
    | .code text, some (level, title) => headingsFrom used (some (level, title ++ text)) events
    | .stop (.heading _), some (level, title) =>
      let id := uniqueAnchor used title
      ⟨title, id, level⟩ :: headingsFrom (id :: used) none events
    | _, current => headingsFrom used current events

/-- The headings of a document with their anchors, in order. -/
def headings (events : List Event) : List TocEntry := headingsFrom [] none events

/-- Gives the headings of a document the anchors, in order. -/
def withAnchors : (anchors : List String) → List Event → List Event
  | _, [] => []
  | anchors, .start (.heading level _) :: events =>
    .start (.heading level anchors.head?) :: withAnchors anchors.tail events
  | anchors, event :: events => event :: withAnchors anchors events

end SchemaDocs.Markdown
