import Mathlib.Data.List.Basic
import Mathlib.Tactic.SplitIfs

/-!
# Reading the tags of HTML

A reader takes HTML character by character and keeps the tags that it has met, with their attributes.
It knows values in double quotes only, and is back in the text once a tag is closed. What is written
as a tag is read as that tag, and text without an opening bracket holds none.
-/

namespace SchemaDocs.Markdown

/-- An attribute of a tag, its value as it stands between the quotes. -/
structure HtmlAttribute where
  name : List Char
  value : List Char
deriving DecidableEq, Repr

/-- A tag as it stands in HTML. The name of a closing tag begins with a slash. -/
structure HtmlTag where
  name : List Char
  attributes : List HtmlAttribute := []
deriving DecidableEq, Repr

/-- What a reader is in the midst of. -/
inductive Place where
  | text
  | name (name : List Char)
  | between (tag : HtmlTag)
  | field (tag : HtmlTag) (name : List Char)
  | equals (tag : HtmlTag) (name : List Char)
  | value (tag : HtmlTag) (name value : List Char)
deriving DecidableEq, Repr

/-- A reader of HTML with the tags that are complete. -/
structure TagReader where
  tags : List HtmlTag := []
  place : Place := .text
deriving DecidableEq, Repr

def HtmlTag.add (tag : HtmlTag) (name value : List Char) : HtmlTag :=
  { tag with attributes := tag.attributes ++ [⟨name, value⟩] }

namespace TagReader

def finish (reader : TagReader) (tag : HtmlTag) : TagReader := ⟨reader.tags ++ [tag], .text⟩

def step (reader : TagReader) (c : Char) : TagReader :=
  match reader.place with
  | .text => if c = '<' then { reader with place := .name [] } else reader
  | .name name =>
    if c = '>' then reader.finish { name }
    else if c = ' ' || (c = '/' && !name.isEmpty) then { reader with place := .between { name } }
    else { reader with place := .name (name ++ [c]) }
  | .between tag =>
    if c = '>' then reader.finish tag
    else if c = ' ' || c = '/' then reader
    else { reader with place := .field tag [c] }
  | .field tag name =>
    if c = '=' then { reader with place := .equals tag name }
    else if c = '>' then reader.finish (tag.add name [])
    else if c = ' ' then { reader with place := .between (tag.add name []) }
    else { reader with place := .field tag (name ++ [c]) }
  | .equals tag name => if c = '\x22' then { reader with place := .value tag name [] } else reader
  | .value tag name value =>
    if c = '\x22' then { reader with place := .between (tag.add name value) }
    else { reader with place := .value tag name (value ++ [c]) }

def read (reader : TagReader) (text : List Char) : TagReader := text.foldl step reader

end TagReader

def readHtml (html : String) : TagReader := TagReader.read {} html.toList

/-! ### Texts of tags -/

/-- The text of an attribute up to its value. -/
def HtmlAttribute.opening (name : List Char) : List Char := ' ' :: name ++ ['=', '\x22']

def HtmlAttribute.text (field : HtmlAttribute) : List Char := opening field.name ++ field.value ++ ['\x22']

/-- The text of a tag up to its ending. -/
def HtmlTag.opening (tag : HtmlTag) : List Char := '<' :: tag.name ++ tag.attributes.flatMap HtmlAttribute.text

/-- The text of a tag, which may have blanks and a slash before the closing bracket. -/
def HtmlTag.text (tag : HtmlTag) (ending : List Char) : List Char := tag.opening ++ ending ++ ['>']

/-- A name that an attribute is read with. -/
structure IsAttributeName (name : List Char) : Prop where
  ne_nil : name ≠ []
  marks : ∀ c ∈ name, c ∉ [' ', '=', '>', '/', '<']

/-- A name that a tag is read with. -/
inductive IsTagName : List Char → Prop where
  | opening {base : List Char} (hne : base ≠ []) (hbase : ∀ c ∈ base, c ∉ [' ', '>', '/', '<']) : IsTagName base
  | closing {base : List Char} (hbase : ∀ c ∈ base, c ∉ [' ', '>', '/', '<']) : IsTagName ('/' :: base)

/-- A value that stands in quotes and shows no bracket. -/
structure IsValue (value : List Char) : Prop where
  quote_not_mem : '\x22' ∉ value
  bracket_not_mem : '<' ∉ value

/-- A tag that is read as it is written. -/
structure HtmlTag.IsReadable (tag : HtmlTag) : Prop where
  name : IsTagName tag.name
  attributes : ∀ field ∈ tag.attributes, IsAttributeName field.name ∧ IsValue field.value

namespace TagReader

variable {tags : List HtmlTag} {tag : HtmlTag} {place : Place} {name value text ending : List Char}

theorem read_append (reader : TagReader) (left right : List Char) :
    reader.read (left ++ right) = (reader.read left).read right := List.foldl_append

theorem read_cons (reader : TagReader) (c : Char) (text : List Char) :
    reader.read (c :: text) = (reader.step c).read text :=
  rfl

theorem read_eq (tags : List HtmlTag) (place : Place) (text : List Char) :
    read ⟨tags, place⟩ text = ⟨tags ++ (read ⟨[], place⟩ text).tags, (read ⟨[], place⟩ text).place⟩ := by
  induction text generalizing tags place with
  | nil => simp [read]
  | cons c text ih =>
    have hstep : step ⟨tags, place⟩ c = ⟨tags ++ (step ⟨[], place⟩ c).tags, (step ⟨[], place⟩ c).place⟩ := by
      cases place <;> simp only [step, finish] <;> split_ifs <;> simp
    rw [read_cons, read_cons, hstep, ih, ih (step ⟨[], place⟩ c).tags, List.append_assoc]

theorem read_text (htext : '<' ∉ text) : read ⟨tags, .text⟩ text = ⟨tags, .text⟩ := by
  induction text with
  | nil => rfl
  | cons c text ih =>
    rw [List.mem_cons, not_or] at htext
    have hstep : step ⟨tags, .text⟩ c = ⟨tags, .text⟩ := by
      simp [step, Ne.symm htext.1]
    rw [read_cons, hstep]
    exact ih htext.2

private theorem read_collected {collected : List Char → Place} {held : List Char}
    (hstep : ∀ held, ∀ c ∈ text, step ⟨tags, collected held⟩ c = ⟨tags, collected (held ++ [c])⟩) :
    read ⟨tags, collected held⟩ text = ⟨tags, collected (held ++ text)⟩ := by
  induction text generalizing held with
  | nil => rw [List.append_nil]; rfl
  | cons c text ih =>
    rw [read_cons, hstep held c List.mem_cons_self, ih fun held c hc => hstep held c (List.mem_cons_of_mem _ hc),
      List.append_assoc, List.singleton_append]

private theorem read_name (hmore : ∀ c ∈ text, c ∉ [' ', '>', '/', '<']) :
    read ⟨tags, .name name⟩ text = ⟨tags, .name (name ++ text)⟩ := by
  refine read_collected fun held c hc => ?_
  have hother := hmore c hc
  simp only [List.mem_cons, List.not_mem_nil, or_false, not_or] at hother
  simp [step, hother]

private theorem read_field (hmore : ∀ c ∈ text, c ∉ [' ', '=', '>', '/', '<']) :
    read ⟨tags, .field tag name⟩ text = ⟨tags, .field tag (name ++ text)⟩ := by
  refine read_collected fun held c hc => ?_
  have hother := hmore c hc
  simp only [List.mem_cons, List.not_mem_nil, or_false, not_or] at hother
  simp [step, hother]

theorem read_value (hmore : '\x22' ∉ text) :
    read ⟨tags, .value tag name value⟩ text = ⟨tags, .value tag name (value ++ text)⟩ := by
  refine read_collected fun held c hc => ?_
  have hother : c ≠ '\x22' := fun hsame => hmore (hsame ▸ hc)
  simp [step, hother]

/-! ### Whole tags -/

/-- A reader has met the name of a tag and the attributes that it has so far. -/
inductive IsWithin (tag : HtmlTag) : Place → Prop where
  | name (hne : tag.name ≠ []) (hnone : tag.attributes = []) : IsWithin tag (.name tag.name)
  | between : IsWithin tag (.between tag)

private theorem IsWithin.eq_mk (hnone : tag.attributes = []) : (⟨tag.name, []⟩ : HtmlTag) = tag := by
  obtain ⟨name, attributes⟩ := tag
  rw [← hnone]

private theorem step_blank (hwithin : IsWithin tag place) : step ⟨tags, place⟩ ' ' = ⟨tags, .between tag⟩ := by
  cases hwithin with
  | name hne hnone => simp [step, IsWithin.eq_mk hnone]
  | between => simp [step]

private theorem step_slash (hwithin : IsWithin tag place) : step ⟨tags, place⟩ '/' = ⟨tags, .between tag⟩ := by
  cases hwithin with
  | name hne hnone => simp [step, IsWithin.eq_mk hnone, hne]
  | between => simp [step]

private theorem step_bracket (hwithin : IsWithin tag place) : step ⟨tags, place⟩ '>' = ⟨tags ++ [tag], .text⟩ := by
  cases hwithin with
  | name hne hnone => simp [step, finish, IsWithin.eq_mk hnone]
  | between => simp [step, finish]

/-- An attribute is read up to its value. -/
theorem read_attributeOpening (hwithin : IsWithin tag place) (hname : IsAttributeName name) :
    read ⟨tags, place⟩ (HtmlAttribute.opening name) = ⟨tags, .value tag name []⟩ := by
  obtain ⟨first, rest, rfl⟩ := List.exists_cons_of_ne_nil hname.ne_nil
  obtain ⟨hfirst, hrest⟩ := List.forall_mem_cons.mp hname.marks
  simp only [List.mem_cons, List.not_mem_nil, or_false, not_or] at hfirst
  have hbegin : step ⟨tags, .between tag⟩ first = ⟨tags, .field tag [first]⟩ := by
    simp [step, hfirst]
  have hopen : read ⟨tags, .field tag (first :: rest)⟩ ['=', '\x22'] = ⟨tags, .value tag (first :: rest) []⟩ := by
    simp [read, step]
  rw [HtmlAttribute.opening, List.cons_append, List.cons_append, read_cons, step_blank hwithin, read_cons, hbegin,
    read_append, read_field hrest, List.singleton_append, hopen]

private theorem read_attribute {field : HtmlAttribute} (hwithin : IsWithin tag place)
    (hname : IsAttributeName field.name) (hvalue : IsValue field.value) :
    read ⟨tags, place⟩ field.text = ⟨tags, .between (tag.add field.name field.value)⟩ := by
  have hclose : read ⟨tags, .value tag field.name field.value⟩ ['\x22'] =
      ⟨tags, .between (tag.add field.name field.value)⟩ := by
    simp [read, step]
  rw [HtmlAttribute.text, read_append, read_append, read_attributeOpening hwithin hname, read_value hvalue.quote_not_mem,
    List.nil_append, hclose]

private theorem read_attributes {fields : List HtmlAttribute} (tags : List HtmlTag) (hwithin : IsWithin tag place)
    (hfields : ∀ field ∈ fields, IsAttributeName field.name ∧ IsValue field.value) :
    ∃ place', read ⟨tags, place⟩ (fields.flatMap HtmlAttribute.text) = ⟨tags, place'⟩ ∧
      IsWithin { tag with attributes := tag.attributes ++ fields } place' := by
  induction fields generalizing tag place with
  | nil =>
    rw [List.append_nil]
    exact ⟨place, rfl, hwithin⟩
  | cons field fields ih =>
    obtain ⟨hfield, hfields⟩ := List.forall_mem_cons.mp hfields
    have hbetween : IsWithin (tag.add field.name field.value) (.between (tag.add field.name field.value)) := .between
    obtain ⟨place', hread, hwithin'⟩ := ih hbetween hfields
    refine ⟨place', ?_, ?_⟩
    · rw [List.flatMap_cons, read_append, read_attribute hwithin hfield.1 hfield.2, hread]
    · rw [HtmlTag.add, List.append_assoc, List.singleton_append] at hwithin'
      exact hwithin'

private theorem read_tagName (tags : List HtmlTag) (hname : IsTagName name) :
    read ⟨tags, .name []⟩ name = ⟨tags, .name name⟩ ∧ name ≠ [] := by
  cases hname with
  | opening hne hbase => exact ⟨read_name hbase, hne⟩
  | closing hbase =>
    have hslash : step ⟨tags, .name []⟩ '/' = ⟨tags, .name ['/']⟩ := by
      simp [step]
    rw [read_cons, hslash, read_name hbase]
    exact ⟨rfl, List.cons_ne_nil _ _⟩

theorem read_opening (tags : List HtmlTag) (htag : tag.IsReadable) :
    ∃ place, read ⟨tags, .text⟩ tag.opening = ⟨tags, place⟩ ∧ IsWithin tag place := by
  obtain ⟨hname, hne⟩ := read_tagName tags htag.name
  have hnamed : IsWithin ⟨tag.name, []⟩ (.name tag.name) := .name hne rfl
  obtain ⟨place, hread, hwithin⟩ := read_attributes tags hnamed htag.attributes
  refine ⟨place, ?_, hwithin⟩
  have hbegin : step ⟨tags, .text⟩ '<' = ⟨tags, .name []⟩ := by
    simp [step]
  rw [HtmlTag.opening, read_append, read_cons, hbegin, hname, hread]

private theorem read_ending (hwithin : IsWithin tag place) (hending : ∀ c ∈ ending, c = ' ' ∨ c = '/') :
    read ⟨tags, place⟩ (ending ++ ['>']) = ⟨tags ++ [tag], .text⟩ := by
  induction ending generalizing place with
  | nil => exact step_bracket hwithin
  | cons c ending ih =>
    obtain ⟨hc, hrest⟩ := List.forall_mem_cons.mp hending
    have hstep : step ⟨tags, place⟩ c = ⟨tags, .between tag⟩ := by
      rcases hc with hc | hc
      · rw [hc, step_blank hwithin]
      · rw [hc, step_slash hwithin]
    rw [List.cons_append, read_cons, hstep]
    exact ih .between hrest

theorem read_tag (htag : tag.IsReadable) (hending : ∀ c ∈ ending, c = ' ' ∨ c = '/') :
    read ⟨tags, .text⟩ (tag.text ending) = ⟨tags ++ [tag], .text⟩ := by
  obtain ⟨place, hopening, hwithin⟩ := read_opening tags htag
  rw [HtmlTag.text, List.append_assoc, read_append, hopening, read_ending hwithin hending]

end TagReader

end SchemaDocs.Markdown
