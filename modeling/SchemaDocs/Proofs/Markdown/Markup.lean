import SchemaDocs.Proofs.Markdown.Addresses
import SchemaDocs.Proofs.Markdown.Tags
import SchemaDocs.Proofs.Sequence

/-!
# Markup of the writer

The writer has tags and attributes of its own. A text is markup if an opening bracket stands in it
only where such a tag begins, and no address in it runs a script. Markup is put together from texts
of tags and from escaped texts.
-/

namespace SchemaDocs.Markdown

def ownNames : List String := [
  "p", "blockquote", "pre", "code", "ul", "ol", "li", "div", "sup", "table", "thead", "tbody", "tr", "th", "td", "em",
  "strong", "del", "a", "img", "br", "hr", "input"]

def ownAttributes : List String :=
  ["id", "class", "start", "style", "href", "title", "src", "alt", "disabled", "type", "checked"]

def addressAttributes : List String := ["href", "src"]

def isHeadingName : List Char → Bool
  | 'h' :: level => !level.isEmpty && level.all Char.isDigit
  | _ => false

/-- A name without the slash of a closing tag. -/
def unslashed : List Char → List Char
  | '/' :: base => base
  | name => name

def HtmlTag.isHeading (tag : HtmlTag) : Bool := isHeadingName tag.name

def HtmlTag.hasId (tag : HtmlTag) : Bool := tag.attributes.any fun field => field.name = "id".toList

/-- Whether a tag is one that links or a table of contents can speak of: it begins a heading, or has an id. -/
def HtmlTag.isMark (tag : HtmlTag) : Bool := tag.isHeading || tag.hasId

/-- An attribute that the writer may write: its value stays within the quotes, and no address runs a
script. -/
structure HtmlAttribute.IsOwn (field : HtmlAttribute) : Prop where
  name : field.name ∈ ownAttributes.map String.toList
  value : IsValue field.value
  address : field.name ∈ addressAttributes.map String.toList → ¬ RunsScript field.value

/-- A tag that the writer may write. -/
structure HtmlTag.IsOwn (tag : HtmlTag) : Prop where
  name : unslashed tag.name ∈ ownNames.map String.toList ∨ isHeadingName (unslashed tag.name)
  attributes : ∀ field ∈ tag.attributes, field.IsOwn

instance (value : List Char) : Decidable (IsValue value) :=
  decidable_of_iff ('\x22' ∉ value ∧ '<' ∉ value) ⟨fun h => ⟨h.1, h.2⟩, fun h => ⟨h.1, h.2⟩⟩

instance (address : List Char) : Decidable (RunsScript address) :=
  decidable_of_iff (isScriptAddress (String.ofList address))
    (by rw [isScriptAddress_iff, String.toList_ofList])

instance (field : HtmlAttribute) : Decidable field.IsOwn :=
  decidable_of_iff
    (field.name ∈ ownAttributes.map String.toList ∧ IsValue field.value ∧
      (field.name ∈ addressAttributes.map String.toList → ¬ RunsScript field.value))
    ⟨fun h => ⟨h.1, h.2.1, h.2.2⟩, fun h => ⟨h.1, h.2, h.3⟩⟩

instance (tag : HtmlTag) : Decidable tag.IsOwn :=
  decidable_of_iff
    ((unslashed tag.name ∈ ownNames.map String.toList ∨ isHeadingName (unslashed tag.name)) ∧
      ∀ field ∈ tag.attributes, field.IsOwn)
    ⟨fun h => ⟨h.1, h.2⟩, fun h => ⟨h.1, h.2⟩⟩

/-! ### Own tags are read as they are written -/

private theorem marks_of_isHeadingName {name : List Char} (h : isHeadingName name) :
    name ≠ [] ∧ ∀ c ∈ name, c ∉ [' ', '>', '/', '<'] := by
  unfold isHeadingName at h
  split at h
  · rename_i level
    rw [Bool.and_eq_true, List.all_eq_true] at h
    refine ⟨List.cons_ne_nil _ _, List.forall_mem_cons.mpr ⟨by decide, fun c hc hmark => ?_⟩⟩
    have hmarks : ∀ mark ∈ [' ', '>', '/', '<'], mark.isDigit = false := by decide
    have hdigit := h.2 c hc
    rw [hmarks c hmark] at hdigit
    cases hdigit
  · cases h

private theorem isTagName_of_own {name : List Char}
    (h : unslashed name ∈ ownNames.map String.toList ∨ isHeadingName (unslashed name)) : IsTagName name := by
  have hnames : ∀ base ∈ ownNames.map String.toList, base ≠ [] ∧ ∀ c ∈ base, c ∉ [' ', '>', '/', '<'] := by decide
  obtain ⟨hne, hmarks⟩ := h.elim (hnames _) marks_of_isHeadingName
  have hcases : (∃ base, name = '/' :: base) ∨ unslashed name = name := by
    unfold unslashed
    split
    · exact .inl ⟨_, rfl⟩
    · exact .inr rfl
  rcases hcases with ⟨base, rfl⟩ | hsame
  · exact .closing hmarks
  · rw [hsame] at hne hmarks
    exact .opening hne hmarks

theorem isAttributeName_of_own {name : List Char} (h : name ∈ ownAttributes.map String.toList) :
    IsAttributeName name := by
  have hnames : ∀ name ∈ ownAttributes.map String.toList, name ≠ [] ∧ ∀ c ∈ name, c ∉ [' ', '=', '>', '/', '<'] := by
    decide
  exact ⟨(hnames name h).1, (hnames name h).2⟩

theorem HtmlTag.IsOwn.isReadable {tag : HtmlTag} (h : tag.IsOwn) : tag.IsReadable :=
  ⟨isTagName_of_own h.name, fun field hfield =>
    ⟨isAttributeName_of_own (h.attributes field hfield).name, (h.attributes field hfield).value⟩⟩

/-! ### Opening brackets -/

private theorem count_bracket_of_isTagName {name : List Char} (h : IsTagName name) : name.count '<' = 0 := by
  rw [List.count_eq_zero]
  cases h with
  | opening _ hbase => exact fun hmem => hbase '<' hmem (by decide)
  | closing hbase =>
    rw [List.mem_cons, not_or]
    exact ⟨by decide, fun hmem => hbase '<' hmem (by decide)⟩

private theorem not_mem_attributeText {field : HtmlAttribute} (hname : IsAttributeName field.name)
    (hvalue : IsValue field.value) :
    '<' ∉ field.text := by
  have hbracket : '<' ∉ field.name := fun hmem => hname.marks '<' hmem (by decide)
  simp [HtmlAttribute.text, HtmlAttribute.opening, hbracket, hvalue.bracket_not_mem]

private theorem HtmlTag.IsReadable.count_opening {tag : HtmlTag} (h : tag.IsReadable) : tag.opening.count '<' = 1 := by
  have hattributes : (tag.attributes.flatMap HtmlAttribute.text).count '<' = 0 := by
    rw [List.count_eq_zero, List.mem_flatMap]
    intro ⟨field, hfield, hmem⟩
    obtain ⟨hname, hvalue⟩ := h.attributes field hfield
    exact not_mem_attributeText hname hvalue hmem
  rw [HtmlTag.opening, List.count_append, List.count_cons_self, hattributes, count_bracket_of_isTagName h.name]

/-! ### Markup -/

/-- A text holds tags of the writer, and opening brackets only where these begin. -/
structure Writes (text : List Char) (tags : List HtmlTag) : Prop where
  read : ∀ before, TagReader.read ⟨before, .text⟩ text = ⟨before ++ tags, .text⟩
  count : text.count '<' = tags.length
  own : ∀ tag ∈ tags, tag.IsOwn

namespace Writes

variable {left right text ending : List Char} {tags more : List HtmlTag} {tag : HtmlTag}

theorem append (hleft : Writes left tags) (hright : Writes right more) : Writes (left ++ right) (tags ++ more) where
  read before := by
    rw [TagReader.read_append, hleft.read, hright.read, List.append_assoc]
  count := by rw [List.count_append, hleft.count, hright.count, List.length_append]
  own tag htag := (List.mem_append.mp htag).elim (hleft.own tag) (hright.own tag)

theorem of_not_mem (h : '<' ∉ text) : Writes text [] where
  read before := by rw [TagReader.read_text h, List.append_nil]
  count := List.count_eq_zero.mpr h
  own _ htag := absurd htag List.not_mem_nil

private theorem of_tag (htag : tag.IsOwn) (hending : ∀ c ∈ ending, c = ' ' ∨ c = '/') :
    Writes (tag.text ending) [tag] where
  read before := TagReader.read_tag htag.isReadable hending
  count := by
    have hnone : '<' ∉ ending := fun hmem => by rcases hending '<' hmem with h | h <;> cases h
    rw [HtmlTag.text, List.count_append, List.count_append, htag.isReadable.count_opening, List.count_eq_zero.mpr hnone]
    rfl
  own other hother := List.mem_singleton.mp hother ▸ htag

end Writes

/-- A text is markup of the writer with some marks. -/
def IsMarkup (text : List Char) (marks : List HtmlTag) : Prop :=
  ∃ tags, Writes text tags ∧ tags.filter HtmlTag.isMark = marks

namespace IsMarkup

variable {left right text ending : List Char} {marks more : List HtmlTag} {tag : HtmlTag}

theorem append (hleft : IsMarkup left marks) (hright : IsMarkup right more) :
    IsMarkup (left ++ right) (marks ++ more) := by
  obtain ⟨leftTags, hleft, rfl⟩ := hleft
  obtain ⟨rightTags, hright, rfl⟩ := hright
  exact ⟨leftTags ++ rightTags, hleft.append hright, List.filter_append ..⟩

theorem append_plain (hleft : IsMarkup left marks) (hright : IsMarkup right []) : IsMarkup (left ++ right) marks := by
  have h := hleft.append hright
  rw [List.append_nil] at h
  exact h

theorem plain_append (hleft : IsMarkup left []) (hright : IsMarkup right marks) : IsMarkup (left ++ right) marks :=
  hleft.append hright

theorem of_not_mem (h : '<' ∉ text) : IsMarkup text [] := ⟨[], .of_not_mem h, rfl⟩

theorem of_tag (htag : tag.IsOwn) (hplain : tag.isMark = false) (hending : ∀ c ∈ ending, c = ' ' ∨ c = '/') :
    IsMarkup (tag.text ending) [] :=
  ⟨[tag], .of_tag htag hending, List.filter_cons_of_neg (Bool.eq_false_iff.mp hplain)⟩

theorem of_closedTag (htag : tag.IsOwn) (hplain : tag.isMark = false) : IsMarkup (tag.text []) [] :=
  of_tag htag hplain fun _ hc => absurd hc List.not_mem_nil

theorem of_mark (htag : tag.IsOwn) (hmark : tag.isMark) : IsMarkup (tag.text []) [tag] :=
  ⟨[tag], .of_tag htag fun _ hc => absurd hc List.not_mem_nil, List.filter_cons_of_pos hmark⟩

/-- What is written word for word is checked by reading it. -/
theorem literal (text : String)
    (h : (readHtml text).place = .text ∧ text.toList.count '<' = (readHtml text).tags.length ∧
      (∀ tag ∈ (readHtml text).tags, tag.IsOwn) ∧ (readHtml text).tags.filter HtmlTag.isMark = []) :
    IsMarkup text.toList [] := by
  obtain ⟨hplace, hcount, hown, hmarks⟩ := h
  refine ⟨(readHtml text).tags, ⟨fun before => ?_, hcount, hown⟩, hmarks⟩
  have hread : TagReader.read ⟨[], .text⟩ text.toList = readHtml text := rfl
  rw [TagReader.read_eq, hread, hplace]

end IsMarkup

end SchemaDocs.Markdown
