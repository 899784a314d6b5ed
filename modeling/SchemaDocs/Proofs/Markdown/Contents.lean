import SchemaDocs.Page.Basic
import SchemaDocs.Proofs.Markdown.Anchors
import SchemaDocs.Proofs.Markdown.Safety
import SchemaDocs.Proofs.Sequence

/-!
# Table of contents

The table of contents and the anchors in the HTML are made from the same events, but apart from each
other: anchors are given out by position. They meet because headings begin and end in turn, so that
the heading that begins as the n-th one also ends as the n-th.
-/

namespace SchemaDocs.Markdown

open Text (IsHyphenated)

def TocEntry.tag (entry : TocEntry) : HtmlTag :=
  ⟨'h' :: (toString entry.level).toList, [⟨"id".toList, entry.id.toList⟩]⟩

/-- The headings of some HTML are those of a table of contents, with their levels and anchors. -/
def HasHeadings (output : String) (toc : List TocEntry) : Prop :=
  (readHtml output).tags.filter HtmlTag.isHeading = toc.map TocEntry.tag

/-- Anchors that differ from each other, consist of words, and need no escaping. -/
structure HasAnchors (toc : List TocEntry) : Prop where
  nodup : (toc.map (·.id)).Nodup
  hyphenated : ∀ entry ∈ toc, IsHyphenated entry.id.toList
  plain : ∀ entry ∈ toc, escapeAttribute entry.id = entry.id

/-! ### Anchors -/

theorem escapeAttribute_of_plain {text : String} (h : ∀ c ∈ text.toList, escapeAttributeChar c = [c]) :
    escapeAttribute text = text := by
  rw [escapeAttribute, List.flatMap_congr h, List.flatMap_singleton', String.ofList_toList]

theorem escapeAttribute_of_isHyphenated {anchor : String} (h : IsHyphenated anchor.toList) :
    escapeAttribute anchor = anchor := by
  have hchar : ∀ c ∈ anchor.toList, escapeAttributeChar c = [c] := by
    intro c hc
    have hmarks : ∀ mark ∈ ['\x22', '&', '<', '>'], ¬ (Text.isAlphanumeric mark ∨ mark = '-') := by decide
    have hne : ∀ mark ∈ ['\x22', '&', '<', '>'], c ≠ mark := fun mark hmark hsame =>
      hmarks mark hmark (hsame ▸ h.isAlphanumeric_or c hc)
    simp only [List.forall_mem_cons] at hne
    simp [escapeAttributeChar, escapeBodyChar, hne]
  exact escapeAttribute_of_plain hchar

theorem hasAnchors_headings (events : List Event) : HasAnchors (headings events) := by
  have hids : (headings events).map (·.id) = anchorsFrom [] ((headings events).map (·.title)) := ids_headingsFrom ..
  have hhyphenated : ∀ entry ∈ headings events, IsHyphenated entry.id.toList := by
    intro entry hentry
    have hmem : entry.id ∈ (headings events).map (·.id) := List.mem_map_of_mem hentry
    rw [hids] at hmem
    exact isHyphenated_of_mem_anchorsFrom _ hmem
  refine ⟨?_, hhyphenated, fun entry hentry => escapeAttribute_of_isHyphenated (hhyphenated entry hentry)⟩
  rw [hids]
  exact nodup_anchorsFrom.1

/-! ### Positions -/

/-- The headings of a stream, given the anchors of some entries in turn, are those of the entries. -/
def Carries (events : List Event) (entries : List TocEntry) : Prop :=
  (withAnchors (entries.map (·.id)) events).filterMap Event.heading? = entries.map fun entry => (entry.level, some entry.id)

/-- Entries fit the rest of a stream. In a heading, the first one is that of this heading. -/
def Fits : (level : Option Nat) → List Event → List TocEntry → Prop
  | none, events, entries => Carries events entries
  | some level, events, entries => ∃ entry rest, entries = entry :: rest ∧ entry.level = level ∧ Carries events rest

theorem carries_cons {event : Event} {events : List Event} {entries : List TocEntry} (hevent : event.heading? = none)
    (h : Carries events entries) : Carries (event :: events) entries := by
  rw [Carries, withAnchors_of_apart hevent, List.filterMap_cons_none hevent]
  exact h

theorem carries_cons_start {level : Nat} {anchor : Option String} {events : List Event} {entry : TocEntry}
    {entries : List TocEntry} (hlevel : entry.level = level) (h : Carries events entries) :
    Carries (.start (.heading level anchor) :: events) (entry :: entries) := by
  rw [Carries] at h
  rw [Carries, List.map_cons, withAnchors, List.head?_cons, List.tail_cons,
    List.filterMap_cons_some (show Event.heading? _ = some (level, some entry.id) from rfl), h, List.map_cons, hlevel]

theorem Fits.cons {level : Option Nat} {event : Event} {events : List Event} {entries : List TocEntry}
    (hevent : event.heading? = none) (h : Fits level events entries) : Fits level (event :: events) entries := by
  cases level with
  | none => exact carries_cons hevent h
  | some level =>
    obtain ⟨entry, rest, hentries, hlevel, hrest⟩ := h
    exact ⟨entry, rest, hentries, hlevel, carries_cons hevent hrest⟩

/-- The headings from an event on fit the stream from there, by induction on how they alternate. -/
theorem fits_headingsFrom {used : List String} {current : Option (Nat × String)} {events : List Event}
    (h : Alternates current.isSome events) : Fits (current.map Prod.fst) events (headingsFrom used current events) := by
  generalize hinside : current.isSome = inside at h
  induction h generalizing used current with
  | nil =>
    rw [Option.isSome_eq_false_iff, Option.isNone_iff_eq_none] at hinside
    rw [hinside]
    rfl
  | start h ih =>
    rw [Option.isSome_eq_false_iff, Option.isNone_iff_eq_none] at hinside
    -- the heading that begins here is the next one to end, so that the next anchor is its own
    obtain ⟨entry, rest, hentries, hlevel, hrest⟩ := @ih used (some (_, "")) rfl
    rw [hinside, headingsFrom_start, hentries]
    exact carries_cons_start hlevel hrest
  | stop h ih =>
    obtain ⟨⟨level, title⟩, rfl⟩ := Option.isSome_iff_exists.mp hinside
    have hrest : Carries _ (headingsFrom (uniqueAnchor used title :: used) none _) := @ih _ none rfl
    exact ⟨_, _, headingsFrom_stop level _ title _, rfl, carries_cons rfl hrest⟩
  | other hevent h ih =>
    obtain ⟨next, hlevel, hnext⟩ := exists_headingsFrom_of_apart used current hevent
    have hsame : next.isSome = current.isSome := by
      rw [← Option.isSome_map, hlevel, Option.isSome_map]
    have hfits := @ih used next (hsame.trans hinside)
    rw [hlevel] at hfits
    rw [hnext]
    exact hfits.cons (heading?_eq_none hevent)

/-! ### Headings in HTML -/

private theorem heading?_sanitizeEvent (event : Event) : (sanitizeEvent event).heading? = event.heading? := by
  cases event with
  | start tag => cases tag <;> rfl
  | _ => rfl

/-- What is written has the headings of the table of contents, if they begin and end in turn. -/
theorem headings_sanitize_withAnchors {events : List Event} (h : Alternates false events) :
    (sanitize (withAnchors ((headings events).map (·.id)) events)).filterMap Event.heading? =
      (headings events).map fun entry => (entry.level, some entry.id) := by
  have hcarries : Carries events (headings events) := @fits_headingsFrom [] none events h
  rw [sanitize, List.filterMap_map]
  have hsame : Event.heading? ∘ sanitizeEvent = Event.heading? := funext heading?_sanitizeEvent
  rw [hsame]
  exact hcarries

private theorem filter_isHeading_marks (event : Event) :
    event.marks.filter HtmlTag.isHeading = event.heading?.toList.map fun mark => headingTag mark.1 mark.2 := by
  cases event with
  | start tag =>
    cases tag with
    | heading level anchor => exact List.filter_cons_of_pos (isHeadingName_cons level)
    | _ => rfl
  | _ => rfl

private theorem filter_isHeading_marksFrom {depth : Option Nat} {events : List Event}
    (h : HeadingsOutside depth events) :
    (marksFrom depth events).filter HtmlTag.isHeading =
      (events.filterMap Event.heading?).map fun mark => headingTag mark.1 mark.2 := by
  have hnone (event : Event) (hheading : event.heading?.isSome = false) : event.marks.filter HtmlTag.isHeading = [] := by
    rw [filter_isHeading_marks, Option.isNone_iff_eq_none.mp (Option.isSome_eq_false_iff.mp hheading)]
    rfl
  rw [filter_marksFrom (headingsOutside_iff.mp h) hnone, List.filterMap_eq_flatMap_toList, List.map_flatMap]
  exact List.flatMap_congr fun event _ => filter_isHeading_marks event

theorem TocEntry.tag_eq {entry : TocEntry} (hplain : escapeAttribute entry.id = entry.id) :
    headingTag entry.level (some entry.id) = entry.tag := by
  rw [headingTag, Option.map_some, Option.toList_some, hplain, TocEntry.tag]

private theorem hasHeadings_renderEvents {events : List Event} (halternates : Alternates false events)
    (houtside : HeadingsOutside none events) : HasHeadings (renderEvents events) (headings events) := by
  have hwritten : HeadingsOutside none (sanitize (withAnchors ((headings events).map (·.id)) events)) :=
    headingsOutside_of_replaces (replaces_sanitize_withAnchors _ _) houtside
  have hmark (tag : HtmlTag) (h : tag.isHeading) : tag.isMark := Bool.or_eq_true_iff.mpr (.inl h)
  rw [HasHeadings, renderEvents, filter_html isHarmless_of_mem_sanitize hmark, filter_isHeading_marksFrom hwritten,
    headings_sanitize_withAnchors halternates, List.map_map]
  exact List.map_congr_left fun entry hentry => TocEntry.tag_eq ((hasAnchors_headings events).plain entry hentry)

theorem toc_of_parse {source : String} {page : Page} (h : Page.parse source = .ok page) :
    page.toc = headings (events page.content) := by
  obtain ⟨⟨frontMatter, content⟩, _, hpage⟩ := bind_eq_ok_iff.mp h
  obtain rfl := Except.ok.inj hpage
  rfl

private theorem take_ids_headings {events others : List Event} {count : Nat}
    (h : ((headings events).map (·.title)).take count = ((headings others).map (·.title)).take count) :
    ((headings events).map (·.id)).take count = ((headings others).map (·.id)).take count := by
  rw [headings, headings, ids_headingsFrom, ids_headingsFrom, take_anchorsFrom, take_anchorsFrom]
  exact congrArg (anchorsFrom []) h

/-- The table of contents of a page agrees with the headings in its HTML. So it does for all events in
which headings begin and end in turn, where those within the alternative text of an image are written
as text. Anchors are distinct words joined by hyphens, and depend on the titles up to their own. -/
theorem contents_agree :
    (∀ (source : String) (page : Page) (limit : Nat), Page.parse source = .ok page → refusal? limit page.content = none →
        ∃ output, render? limit page.content = .ok output ∧ HasHeadings output page.toc) ∧
      (∀ events, Alternates false events →
        (sanitize (withAnchors ((headings events).map (·.id)) events)).filterMap Event.heading? =
            ((headings events).map fun entry => (entry.level, some entry.id)) ∧
          (HeadingsOutside none events → HasHeadings (renderEvents events) (headings events))) ∧
      (∀ events, HasAnchors (headings events)) ∧
      (∀ events more, headings events <+: headings (events ++ more)) ∧
      ∀ events others count,
        ((headings events).map (·.title)).take count = ((headings others).map (·.title)).take count →
          ((headings events).map (·.id)).take count = ((headings others).map (·.id)).take count := by
  refine ⟨fun source page limit hpage hrefusal => ?_, fun events halternates => ⟨?_, ?_⟩, hasAnchors_headings,
    headingsFrom_append [] none, fun _ _ _ => take_ids_headings⟩
  · refine ⟨_, render?_eq_ok_iff.mpr ⟨hrefusal, rfl⟩, ?_⟩
    have hdocument := isDocument_events page.content
    rw [toc_of_parse hpage]
    exact hasHeadings_renderEvents hdocument.alternates hdocument.outside
  · exact headings_sanitize_withAnchors halternates
  · exact hasHeadings_renderEvents halternates

/-- A page with one title twice. -/
def repeatedTitle : String := "# A b\n\n## A *b*\n"

def singleTitle : List Event := [.start (.heading 1 none), .text "A b", .stop (.heading 1)]

theorem contents_agree_repeatedTitle :
    (∃ output, render? 100 repeatedTitle = .ok output ∧ HasHeadings output [⟨"A b", "a-b", 1⟩, ⟨"A b", "a-b-2", 2⟩]) ∧
      HasHeadings (renderEvents singleTitle) (headings singleTitle) ∧
      ((headings (events repeatedTitle)).map (·.id)).take 1 = ((headings singleTitle).map (·.id)).take 1 := by
  obtain ⟨hpages, hstreams, -, -, hprefixes⟩ := contents_agree
  have hpage : Page.parse repeatedTitle =
      .ok ⟨none, repeatedTitle, [⟨"A b", "a-b", 1⟩, ⟨"A b", "a-b-2", 2⟩]⟩ := by
    decide +kernel
  have halternates : Alternates false singleTitle := .start (.other rfl (.stop .nil))
  have houtside : HeadingsOutside none singleTitle := by simp [singleTitle, HeadingsOutside, imageDepth, Event.heading?]
  have htitles : ((headings (events repeatedTitle)).map (·.title)).take 1 = ((headings singleTitle).map (·.title)).take 1 := by
    decide +kernel
  exact ⟨hpages repeatedTitle _ 100 hpage (by decide), (hstreams singleTitle halternates).2 houtside,
    hprefixes _ _ 1 htitles⟩

end SchemaDocs.Markdown
