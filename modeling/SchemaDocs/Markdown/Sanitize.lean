import SchemaDocs.Markdown.Event
import SchemaDocs.Text.Blank

/-!
# Sanitizing a document

Raw HTML becomes text, and a link or an image whose target would run a script loses the target.
Everything else stays.
-/

namespace SchemaDocs.Markdown

/-- The schemes of addresses that can carry a script. -/
def unsafeSchemes : List String := ["javascript:", "vbscript:", "data:"]

/-- Whether an address begins, after white space and in any case of letters, with a scheme that can
carry a script. -/
def isScriptAddress (address : String) : Bool :=
  let plain := (Text.trimStart address.toList).map Char.toLower
  unsafeSchemes.any fun scheme => scheme.toList.isPrefixOf plain

/-- The address, or a harmless one in its place. -/
def safeAddress (address : String) : String := if isScriptAddress address then "#" else address

def sanitizeEvent : Event → Event
  | .html text => .text text
  | .inlineHtml text => .text text
  | .start (.link mail target title) => .start (.link mail (safeAddress target) title)
  | .start (.image target title) => .start (.image (safeAddress target) title)
  | event => event

def sanitize (events : List Event) : List Event := events.map sanitizeEvent

end SchemaDocs.Markdown
