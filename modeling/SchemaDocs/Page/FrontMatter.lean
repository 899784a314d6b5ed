import SchemaDocs.Text.Blank
import SchemaDocs.Yaml.Node

/-!
# Front matter

A page may begin with a YAML block between two marks of three hyphens that says where the page
stands. The block ends at the first line that begins with three hyphens; what follows them is the
content. Keys that mean nothing here are passed over, whatever their values are.
-/

namespace SchemaDocs

open Yaml (Node Style)

/-- What a page declares about itself. -/
structure FrontMatter where
  /-- Title in the navigation. -/
  title : Option String := none
  description : Option String := none
  /-- Order among siblings, the least first. -/
  order : Option Int := none
  /-- Path of the section to stand in. -/
  parent : Option String := none
  /-- Whether the page is in the navigation. -/
  nav : Bool := true
deriving DecidableEq, Repr

inductive FrontMatterError where
  | unclosed
  | invalidYaml
deriving DecidableEq, Repr

def FrontMatterError.message : FrontMatterError → String
  | .unclosed => "Unclosed frontmatter block - missing closing ---"
  | .invalidYaml => "Invalid YAML in frontmatter"

namespace FrontMatter

/-! ### Values -/

def coreTag (name : String) : String := "tag:yaml.org,2002:" ++ name

def isNull (text : String) : Bool := ["null", "Null", "NULL", "~"].contains text

/-- Reads a value that may be left out. Only a plain scalar can say that there is none. -/
def optional? {α : Type} (read : Node → Option α) : Node → Option (Option α)
  | .scalar .plain none text =>
    if text = "" || isNull text then some none else (read (.scalar .plain none text)).map some
  | .scalar .plain (some tag) text =>
    if tag = coreTag "null" then if isNull text then some none else none
    else (read (.scalar .plain (some tag) text)).map some
  | node => (read node).map some

def text? : Node → Option String
  | .scalar _ _ text => some text
  | _ => none

/-- The text of a scalar that stands for a value of a type of the core schema: it is plain, or
literal with that type's tag. -/
def valueText? (type : String) : Node → Option String
  | .scalar .plain _ text => some text
  | .scalar .literal tag text => if tag = some (coreTag type) then some text else none
  | _ => none

def digitValue? (radix : Nat) (c : Char) : Option Nat :=
  let value :=
    if '0' ≤ c ∧ c ≤ '9' then c.toNat - 48
    else if 'a' ≤ c ∧ c ≤ 'z' then c.toNat - 87
    else if 'A' ≤ c ∧ c ≤ 'Z' then c.toNat - 55
    else radix
  if value < radix then some value else none

def magnitude? (radix : Nat) (digits : List Char) : Option Nat :=
  if digits.isEmpty then none
  else digits.foldlM (fun n c => (digitValue? radix c).map (radix * n + ·)) 0

/-- The number that a text denotes: a sign, and digits with or without a mark of their radix. A
decimal number has no leading zeros. -/
def integer? (text : List Char) : Option Int :=
  let (negative, digits) := match text with
    | '-' :: rest => (true, rest)
    | '+' :: rest => (false, rest)
    | _ => (false, text)
  let magnitude := match digits with
    | '0' :: 'x' :: rest => magnitude? 16 rest
    | '0' :: 'o' :: rest => magnitude? 8 rest
    | '0' :: 'b' :: rest => magnitude? 2 rest
    | '0' :: _ :: _ => none
    | _ => magnitude? 10 digits
  magnitude.map fun n => if negative then -(n : Int) else n

/-- An order, which fits 32 bits. -/
def order? (node : Node) : Option Int := do
  let n ← integer? (← valueText? "int" node).toList
  if -2147483648 ≤ n ∧ n ≤ 2147483647 then some n else none

def flag? (node : Node) : Option Bool := do
  let text ← valueText? "bool" node
  if ["true", "True", "TRUE"].contains text then some true
  else if ["false", "False", "FALSE"].contains text then some false
  else none

/-! ### Documents -/

def knownKeys : List String := ["title", "description", "order", "parent", "nav"]

def withEntry? (front : FrontMatter) (key : String) (value : Node) : Option FrontMatter :=
  match key with
  | "title" => (optional? text? value).map fun title => { front with title }
  | "description" => (optional? text? value).map fun description => { front with description }
  | "order" => (optional? order? value).map fun order => { front with order }
  | "parent" => (optional? text? value).map fun parent => { front with parent }
  | "nav" => (flag? value).map fun nav => { front with nav }
  | _ => some front

/-- Takes over the entries of the block in turn. A key with a meaning occurs once. -/
def withEntries? (front : FrontMatter) (seen : List String) : List (Node × Node) → Option FrontMatter
  | [] => some front
  | (key, value) :: entries => do
    let key ← text? key
    if knownKeys.contains key && seen.contains key then none
    else (← front.withEntry? key value).withEntries? (key :: seen) entries

/-- Reads the YAML of a block. A document without content declares nothing. -/
def ofYaml? (yaml : List Char) : Option FrontMatter := do
  match ← Yaml.parse? yaml with
  | .empty | .document (.scalar .plain _ "") => some {}
  | .document (.mapping entries) => withEntries? {} [] entries
  | .document _ => none

end FrontMatter

/-! ### Blocks -/

/-- How the source of a page divides into front matter and content. -/
inductive Division where
  /-- There is no front matter. -/
  | bare
  | unclosed
  | block (yaml rest : List Char)
deriving DecidableEq, Repr

namespace Division

/-- The three hyphens at either end of the block. -/
def mark : List Char := ['-', '-', '-']

/-- The text before the first line that begins with the mark, and the text behind that mark. The
text already passed comes reversed in `before`. -/
def splitAtMark? (before : List Char) : List Char → Option (List Char × List Char)
  | [] => none
  | c :: rest =>
    if c = '\n' && mark.isPrefixOf rest then some (before.reverse, rest.drop 3)
    else splitAtMark? (c :: before) rest

def ofSource (source : List Char) : Division :=
  let text := Text.trimStart source
  if mark.isPrefixOf text then
    match splitAtMark? [] (text.drop 3) with
    | none => .unclosed
    | some (yaml, rest) => .block (Text.trim yaml) (Text.trimStart rest)
  else .bare

end Division

/-- Reads the front matter of a page, if it has any, and returns it with the content. -/
def FrontMatter.extract (source : String) : Except FrontMatterError (Option FrontMatter × String) :=
  match Division.ofSource source.toList with
  | .bare => .ok (none, source)
  | .unclosed => .error .unclosed
  | .block [] rest => .ok (some {}, String.ofList rest)
  | .block yaml rest =>
    match FrontMatter.ofYaml? yaml with
    | none => .error .invalidYaml
    | some front => .ok (some front, String.ofList rest)

end SchemaDocs
