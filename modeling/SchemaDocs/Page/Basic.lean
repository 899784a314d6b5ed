import SchemaDocs.Markdown.BlockStructure
import SchemaDocs.Markdown.Heading
import SchemaDocs.Page.FrontMatter

/-!
# Authored pages

A page is Markdown with optional front matter. Its headings make its table of contents, with the
anchors that they have when the page is rendered.
-/

namespace SchemaDocs

open Markdown (TocEntry)

structure Page where
  frontMatter : Option FrontMatter
  /-- The Markdown behind the front matter. -/
  content : String
  toc : List TocEntry
deriving DecidableEq, Repr

namespace Page

def parse (source : String) : Except FrontMatterError Page := do
  let (frontMatter, content) ← FrontMatter.extract source
  return { frontMatter, content, toc := Markdown.headings (Markdown.events content) }

/-- The declared title, else that of the first heading. -/
def title (page : Page) : Option String :=
  (page.frontMatter.bind (·.title)).or (page.toc.head?.map (·.title))

def order (page : Page) : Option Int := page.frontMatter.bind (·.order)

def description (page : Page) : Option String := page.frontMatter.bind (·.description)

def declaredParent (page : Page) : Option String := page.frontMatter.bind (·.parent)

def inNav (page : Page) : Bool := page.frontMatter.all (·.nav)

end Page

end SchemaDocs
