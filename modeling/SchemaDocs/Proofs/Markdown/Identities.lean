import Mathlib.Data.List.Count
import SchemaDocs.Proofs.Markdown.Contents

/-!
# Elements with an id

A heading is written with its anchor for an id, and the definition of a footnote with its label; nothing
else has one. Anchors differ from each other, but they are chosen without regard to the labels. So an id
of the table of contents is that of its heading and of every footnote whose label is the same.
-/

namespace SchemaDocs.Markdown

open Text (IsHyphenated)

/-- Whether a tag gives its element this id. Ids that consist of words stand in their attributes as they
are. -/
def HtmlTag.bears (id : String) (tag : HtmlTag) : Bool := tag.attributes.contains ⟨"id".toList, id.toList⟩

/-- The tags in some HTML that give their elements an id. -/
def elementsWithId (output id : String) : List HtmlTag := (readHtml output).tags.filter (HtmlTag.bears id)

/-- A link to an id leads to an element of some HTML, and to one only. -/
def Resolves (output id : String) : Prop := (elementsWithId output id).length = 1

/-- The labels of the footnotes that events define. -/
def definedLabels (events : List Event) : List String := events.filterMap Event.definition?

/-! ### Ids of marks -/

private theorem isMark_of_bears {id : String} {tag : HtmlTag} (h : tag.bears id) : tag.isMark := by
  have hid : tag.hasId := List.any_eq_true.mpr ⟨_, List.contains_iff_mem.mp h, decide_eq_true rfl⟩
  exact Bool.or_eq_true_iff.mpr (.inr hid)

theorem escapeAttributeChar_cases (c : Char) : escapeAttributeChar c = [c] ∨ '&' ∈ escapeAttributeChar c := by
  unfold escapeAttributeChar escapeBodyChar
  split_ifs
  · exact .inr (by decide)
  · exact .inr (by decide)
  · exact .inr (by decide)
  · exact .inr (by decide)
  · exact .inl rfl

/-- Only a text of words is escaped to one, since escaping leaves an ampersand. -/
theorem escapeAttribute_eq_iff {id : String} (hid : IsHyphenated id.toList) (text : String) :
    escapeAttribute text = id ↔ text = id := by
  constructor
  · intro h
    have hplain : ∀ c ∈ text.toList, escapeAttributeChar c = [c] := by
      intro c hc
      refine (escapeAttributeChar_cases c).resolve_right fun hmark => ?_
      have hmem : '&' ∈ id.toList := by
        rw [← h, escapeAttribute, String.toList_ofList]
        exact List.mem_flatMap.mpr ⟨c, hc, hmark⟩
      exact absurd (hid.isAlphanumeric_or _ hmem) (by decide)
    rw [← h, escapeAttribute_of_plain hplain]
  · rintro rfl
    exact escapeAttribute_of_isHyphenated hid

section

variable {id : String}

theorem bears_append_iff {name : List Char} {fields : List HtmlAttribute} {value : String}
    (hfields : (⟨"id".toList, id.toList⟩ : HtmlAttribute) ∉ fields) :
    HtmlTag.bears id ⟨name, fields ++ [⟨"id".toList, value.toList⟩]⟩ ↔ value = id := by
  rw [HtmlTag.bears, List.contains_iff_mem, List.mem_append, List.mem_singleton]
  constructor
  · rintro (h | h)
    · exact absurd h hfields
    · exact (String.toList_injective (HtmlAttribute.mk.inj h).2).symm
  · rintro rfl
    exact .inr rfl

theorem bears_headingTag_iff (hid : IsHyphenated id.toList) (level : Nat) (anchor : Option String) :
    (headingTag level anchor).bears id ↔ anchor = some id := by
  cases anchor with
  | none => exact ⟨nofun, nofun⟩
  | some anchor =>
    rw [Option.some_inj, ← escapeAttribute_eq_iff hid]
    exact bears_append_iff List.not_mem_nil

theorem bears_footnoteTag_iff (hid : IsHyphenated id.toList) (label : String) :
    (footnoteTag label).bears id ↔ label = id := by
  have hclass : (⟨"id".toList, id.toList⟩ : HtmlAttribute) ∉ [⟨"class".toList, "footnote-definition".toList⟩] := by
    rw [List.mem_singleton]
    exact fun h => absurd (HtmlAttribute.mk.inj h).1 (by decide)
  rw [← escapeAttribute_eq_iff hid]
  exact bears_append_iff hclass

theorem marks_eq_nil {event : Event} (h : event.isAnchored = false) : event.marks = [] := by
  cases event with
  | start tag =>
    cases tag with
    | heading level anchor => cases h
    | footnoteDefinition label => cases h
    | _ => rfl
  | _ => rfl

private theorem countP_bears_marks (hid : IsHyphenated id.toList) (event : Event) :
    event.marks.countP (HtmlTag.bears id) =
      (event.heading?.toList.map Prod.snd).count (some id) + event.definition?.toList.count id := by
  cases event with
  | start tag =>
    cases tag with
    | heading level anchor => exact countP_singleton_eq_count (bears_headingTag_iff hid level anchor)
    | footnoteDefinition label =>
      exact (countP_singleton_eq_count (bears_footnoteTag_iff hid label)).trans (Nat.zero_add _).symm
    | _ => rfl
  | _ => rfl

private theorem countP_bears_flatMap (hid : IsHyphenated id.toList) (events : List Event) :
    (events.flatMap Event.marks).countP (HtmlTag.bears id) =
      ((events.filterMap Event.heading?).map Prod.snd).count (some id) + (definedLabels events).count id := by
  induction events with
  | nil => rfl
  | cons event events ih =>
    simp only [definedLabels, List.filterMap_eq_flatMap_toList, List.flatMap_cons, List.map_append, List.countP_append,
      List.count_append, countP_bears_marks hid] at ih ⊢
    omega

end

/-! ### Rendered events -/

private theorem definedLabels_of_replaces {events others : List Event} (h : List.Forall₂ Replaces events others) :
    definedLabels others = definedLabels events := by
  have hsame : events.map Event.definition? = others.map Event.definition? :=
    map_eq_map_of_forall₂ (fun _ _ hreplaces => hreplaces.definition.symm) h
  have hlabels (events : List Event) : definedLabels events = (events.map Event.definition?).filterMap id := by
    rw [List.filterMap_map]
    rfl
  rw [hlabels, hlabels, hsame]

private theorem length_elementsWithId {events : List Event} (halternates : Alternates false events)
    (hanchored : Outside Event.isAnchored none events) {entry : TocEntry} (hentry : entry ∈ headings events) :
    (elementsWithId (renderEvents events) entry.id).length = 1 + (definedLabels events).count entry.id := by
  obtain ⟨hnodup, hhyphenated, -⟩ := hasAnchors_headings events
  let written : List Event := sanitize (withAnchors ((headings events).map (·.id)) events)
  have hreplaces : List.Forall₂ Replaces events written := replaces_sanitize_withAnchors _ _
  have houtside : Outside Event.isAnchored none written :=
    outside_of_replaces hreplaces (fun _ _ => Replaces.anchored) hanchored
  have hmarks : elementsWithId (renderEvents events) entry.id =
      (written.flatMap Event.marks).filter (HtmlTag.bears entry.id) := by
    rw [elementsWithId, renderEvents, filter_html isHarmless_of_mem_sanitize fun _ => isMark_of_bears, List.filter_flatMap]
    exact filter_marksFrom houtside fun _ hplain => by rw [marks_eq_nil hplain, List.filter_nil]
  -- the anchors are given out in turn, and each of them once
  have hheading : ((written.filterMap Event.heading?).map Prod.snd).count (some entry.id) = 1 := by
    have hanchors : Prod.snd ∘ (fun entry : TocEntry => (entry.level, some entry.id)) = some ∘ (·.id) := rfl
    rw [headings_sanitize_withAnchors halternates, List.map_map, hanchors, ← List.map_map,
      List.count_map_of_injective _ _ fun _ _ => Option.some.inj]
    exact List.count_eq_one_of_mem hnodup (List.mem_map_of_mem hentry)
  rw [hmarks, ← List.countP_eq_length_filter, countP_bears_flatMap (hhyphenated entry hentry), hheading,
    definedLabels_of_replaces hreplaces]

/-- A refused text has no elements at all; in any other, an id of the table of contents is that of its
heading and of the footnotes with this label. -/
theorem length_elementsWithId_ofText {limit : Nat} {text : String} {entry : TocEntry}
    (hentry : entry ∈ headings (events text)) :
    (elementsWithId (Rendered.ofText limit text).html entry.id).length =
      if (refusal? limit text).isSome then 0 else 1 + (definedLabels (events text)).count entry.id := by
  rw [Rendered.ofText]
  cases refusal? limit text with
  | some error => rfl
  | none =>
    have hdocument := isDocument_events text
    simp only [Option.isSome_none, Bool.false_eq_true, if_false]
    exact length_elementsWithId hdocument.alternates hdocument.anchored hentry

/-- A link to an id of the table of contents leads to one element and no other, unless the text is
refused or a footnote has this label. -/
theorem resolves_ofText_iff {limit : Nat} {text : String} {entry : TocEntry} (hentry : entry ∈ headings (events text)) :
    Resolves (Rendered.ofText limit text).html entry.id ↔
      refusal? limit text = none ∧ entry.id ∉ definedLabels (events text) := by
  rw [Resolves, length_elementsWithId_ofText hentry, ← List.count_eq_zero]
  cases refusal? limit text with
  | some error => simp
  | none => simp

end SchemaDocs.Markdown
