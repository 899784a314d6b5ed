import SchemaDocs.Proofs.Json.Reading
import SchemaDocs.Schema.Format

/-!
# Presentations of the JSON format

The format declares the members of each kind of object, some of them with a default. A text presents a value
if it is the value's own, up to the members of such objects: those at their defaults may be left out, they may
stand in any order, and members of other names may stand between them. Free values are written as they are,
and blanks may stand between all tokens.
-/

namespace SchemaDocs.Format

open Json (Value Reader Slot IsArray IsObject IsJson memberTexts quote)

/-! ### The declared format -/

/-- The kinds of objects with declared members. -/
inductive Record where
  | option
  | field
  | constant
  | enum
  | message
  | method
  | service
  | file
  | schema
deriving DecidableEq

/-- How a value is written. -/
inductive Shape where
  /-- As it is. -/
  | plain
  | list (item : Shape)
  | record (record : Record)
deriving DecidableEq

/-- A declared member of an object. -/
structure Member where
  key : String
  shape : Shape
  /-- The value that a missing member has; without it the member must be given. -/
  default? : Option Value

namespace Member

def required (key : String) : Member := ⟨key, .plain, none⟩

def optional (key : String) : Member := ⟨key, .plain, some .null⟩

def flag (key : String) : Member := ⟨key, .plain, some (.bool false)⟩

def text (key default : String) : Member := ⟨key, .plain, some (.string default)⟩

def list (key : String) (item : Shape) : Member := ⟨key, .list item, some (.array [])⟩

end Member

namespace Record

open Member (required optional flag text list)

def members : Record → List Member
  | option => [required "name", required "value"]
  | field =>
    [required "name", required "tag", required "type", text "modifier" "none", optional "oneof", optional "map_key",
      optional "comment", list "options" (.record option)]
  | constant => [required "name", required "value", optional "comment", list "options" (.record option)]
  | enum => [required "name", optional "comment", list "constants" (.record constant), list "options" (.record option)]
  | message =>
    [required "name", optional "comment", list "fields" (.record field), list "messages" (.record message),
      list "enums" (.record enum), list "options" (.record option)]
  | method =>
    [required "name", required "input_type", required "output_type", flag "client_streaming", flag "server_streaming",
      optional "comment", list "options" (.record option)]
  | service => [required "name", optional "comment", list "methods" (.record method), list "options" (.record option)]
  | file =>
    [required "name", optional "package", text "syntax" "proto3", optional "comment", list "imports" .plain,
      list "options" (.record option), list "messages" (.record message), list "enums" (.record enum),
      list "services" (.record service)]
  | schema => [text "name" "", list "files" (.record file), text "output" "dist"]

theorem nodup_members (record : Record) : (record.members.map Member.key).Nodup := by
  cases record <;> decide

/-- The declared members with their values in an object. -/
def parts (record : Record) (members : List (String × Value)) : List (Member × Value) :=
  record.members.zip (members.map Prod.snd)

end Record

/-! ### Presentations -/

/-- A text presents a value at a place of some shape. -/
inductive Presents : Shape → Value → List Char → Prop where
  | null : Presents .plain .null ['n', 'u', 'l', 'l']
  | true : Presents .plain (.bool Bool.true) ['t', 'r', 'u', 'e']
  | false : Presents .plain (.bool Bool.false) ['f', 'a', 'l', 's', 'e']
  | integer (n : Int) : Presents .plain (.ofInt n) (toString n).toList
  | string (text : String) : Presents .plain (.string text) (quote text).toList
  | array {items : List Value} {texts : List (List Char)} {text : List Char} (hlength : texts.length = items.length)
      (hitems : ∀ pair ∈ items.zip texts, Presents .plain pair.1 pair.2) (h : IsArray texts text) :
      Presents .plain (.array items) text
  | object {members : List (String × Value)} {texts : List (List Char)} {text : List Char}
      (hlength : texts.length = members.length) (hmembers : ∀ pair ∈ members.zip texts, Presents .plain pair.1.2 pair.2)
      (h : IsObject (memberTexts ((members.map Prod.fst).zip texts)) text) : Presents .plain (.object members) text
  | list {shape : Shape} {items : List Value} {texts : List (List Char)} {text : List Char}
      (hlength : texts.length = items.length) (hitems : ∀ pair ∈ items.zip texts, Presents shape pair.1 pair.2)
      (h : IsArray texts text) : Presents (.list shape) (.array items) text
  /-- Some members are dropped, all of which are at their defaults; each of the others is presented by a text of
  its own. These stand in any order among unknown ones. -/
  | record {record : Record} {members : List (String × Value)} (dropped : String → Bool) (texts : String → List Char)
      {unknown entries : List (String × List Char)} {text : List Char}
      (hkeys : members.map Prod.fst = record.members.map Member.key)
      (hdropped : ∀ part ∈ record.parts members, dropped part.1.key → part.1.default? = some part.2)
      (hkept : ∀ part ∈ record.parts members, ¬ dropped part.1.key → Presents part.1.shape part.2 (texts part.1.key))
      (hunknown : ∀ entry ∈ unknown, entry.1 ∉ record.members.map Member.key ∧ IsJson entry.2)
      (hentries : entries.Perm
        (((record.members.map Member.key).filter (!dropped ·)).map (fun key => (key, texts key)) ++ unknown))
      (h : IsObject (memberTexts entries) text) : Presents (.record record) (.object members) text

end SchemaDocs.Format
