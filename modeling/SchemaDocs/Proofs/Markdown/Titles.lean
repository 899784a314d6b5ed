import SchemaDocs.Proofs.Markdown.Anchors
import SchemaDocs.Proofs.Markdown.Seams

/-!
# Titles of headings

The title of a heading is made of the texts and the pieces of code in it. The plain text of the same heading also
has its raw HTML, which is shown as text, and white space for its breaks. So a title loses what these say, and has
the words of its heading exactly where that is white space and no word goes on without it.
-/

namespace SchemaDocs.Markdown

/-! ### What a title takes over -/

/-- What the title of a heading takes over of an event. -/
def Event.titled : Event → String
  | .text raw | .code raw => raw
  | _ => ""

def titleText (content : List Event) : List Char := content.flatMap fun event => event.titled.toList

/-- A title loses what an event says. -/
def Event.IsLost (event : Event) : Prop := event.titled ≠ event.plain

variable {event : Event} {events content left right : List Event} {text : List Char}

theorem titleText_nil : titleText [] = [] := rfl

theorem titleText_cons (event : Event) (content : List Event) :
    titleText (event :: content) = event.titled.toList ++ titleText content := List.flatMap_cons

theorem titleText_append (content more : List Event) :
    titleText (content ++ more) = titleText content ++ titleText more :=
  List.flatMap_append

private theorem Event.IsLost.titled_eq (h : event.IsLost) : event.titled = "" := by
  unfold titled
  split
  · exact absurd rfl h
  · exact absurd rfl h
  · rfl

theorem Event.IsLost.plain_ne_nil (h : event.IsLost) : event.plain.toList ≠ [] := fun hnil =>
  h (h.titled_eq.trans (String.toList_injective hnil).symm)

private theorem Event.plain_eq_titled (h : ¬ event.IsLost) : event.plain = event.titled := (not_not.mp h).symm

/-- A title keeps the words of a heading: what it loses is white space, and stands where no word of the title goes
on. -/
structure KeepsWords (content : List Event) : Prop where
  blank : ∀ event ∈ content, event.IsLost → ∀ c ∈ event.plain.toList, Text.isWhiteSpace c
  apart : ∀ left event right, content = left ++ event :: right → event.IsLost →
    ¬ MeetInWord (titleText left) (titleText right)

/-! ### The words of a title -/

private theorem words_titleText_of_apart
    (hblank : ∀ event ∈ content, event.IsLost → ∀ c ∈ event.plain.toList, Text.isWhiteSpace c)
    (hapart : ∀ left event right, content = left ++ event :: right → event.IsLost →
      ¬ MeetInWord (text ++ titleText left) (titleText right)) :
    words (text ++ titleText content) = words (text ++ rawText content) := by
  induction content generalizing text with
  | nil => rfl
  | cons event content ih =>
    obtain ⟨hevent, hblank⟩ := List.forall_mem_cons.mp hblank
    rw [titleText_cons, rawText_cons]
    by_cases hlost : event.IsLost
    · have hhere := hapart [] event content rfl hlost
      rw [titleText_nil, List.append_nil] at hhere
      -- the words behind the lost event are a matter of their own
      have hrest : words (titleText content) = words (rawText content) := by
        refine @ih [] hblank fun left other right hcontent hother hmeet => ?_
        refine hapart (event :: left) other right (congrArg (event :: ·) hcontent) hother ?_
        rw [titleText_cons, hlost.titled_eq]
        exact hmeet.of_append text
      rw [words_append_blank hlost.plain_ne_nil (hevent hlost), hlost.titled_eq, String.toList_empty, List.nil_append,
        words_append_of_not_meetInWord hhere, hrest]
    · rw [Event.plain_eq_titled hlost, ← List.append_assoc, ← List.append_assoc]
      refine ih hblank fun left other right hcontent hother => ?_
      have hthere := hapart (event :: left) other right (congrArg (event :: ·) hcontent) hother
      rwa [titleText_cons, ← List.append_assoc] at hthere

def visible (text : List Char) : List Char := text.filter fun c => !Text.isWhiteSpace c

theorem visible_append (front back : List Char) : visible (front ++ back) = visible front ++ visible back :=
  List.filter_append ..

private theorem visible_titled (event : Event) :
    visible event.titled.toList = visible event.plain.toList ∨ event.IsLost ∧ visible event.titled.toList = [] := by
  by_cases hlost : event.IsLost
  · exact .inr ⟨hlost, by rw [hlost.titled_eq]; rfl⟩
  · exact .inl (by rw [Event.plain_eq_titled hlost])

private theorem visible_titleText (content : List Event) :
    (visible (titleText content)).length ≤ (visible (rawText content)).length ∧
      (visible (titleText content) = visible (rawText content) →
        ∀ event ∈ content, event.IsLost → visible event.plain.toList = []) := by
  induction content with
  | nil => exact ⟨Nat.le_refl _, fun _ => List.forall_mem_nil _⟩
  | cons event content ih =>
    obtain ⟨hlength, hrest⟩ := ih
    rw [titleText_cons, rawText_cons, visible_append, visible_append, List.forall_mem_cons]
    rcases visible_titled event with hkept | ⟨hlost, hnone⟩
    · rw [hkept, List.length_append, List.length_append, List.append_cancel_left_eq]
      refine ⟨Nat.add_le_add_left hlength _, fun hsame => ⟨fun hlost => ?_, hrest hsame⟩⟩
      rw [← hkept, hlost.titled_eq]
      rfl
    · rw [hnone, List.nil_append, List.length_append]
      refine ⟨Nat.le_add_left_of_le hlength, fun hsame => ?_⟩
      have hnothing : visible event.plain.toList = [] := by
        have hcount := congrArg List.length hsame
        rw [List.length_append] at hcount
        exact List.eq_nil_of_length_eq_zero (by omega)
      rw [hnothing, List.nil_append] at hsame
      exact ⟨fun _ => hnothing, hrest hsame⟩

theorem visible_eq_nil_iff : visible text = [] ↔ ∀ c ∈ text, Text.isWhiteSpace c := by
  simp [visible, List.filter_eq_nil_iff]

private theorem visible_eq_of_blank (hblank : ∀ event ∈ content, event.IsLost → ∀ c ∈ event.plain.toList, Text.isWhiteSpace c) :
    visible (titleText content) = visible (rawText content) := by
  induction content with
  | nil => rfl
  | cons event content ih =>
    obtain ⟨hevent, hblank⟩ := List.forall_mem_cons.mp hblank
    rw [titleText_cons, rawText_cons, visible_append, visible_append, ih hblank]
    rcases visible_titled event with hkept | ⟨hlost, hnone⟩
    · rw [hkept]
    · rw [hnone, visible_eq_nil_iff.mpr (hevent hlost)]

/-- A title has the words of its heading exactly if it loses nothing but white space where no word goes on. -/
theorem words_titleText_eq_iff : words (titleText content) = words (rawText content) ↔ KeepsWords content := by
  constructor
  · intro hwords
    have hvisible : visible (titleText content) = visible (rawText content) := by
      rw [visible, ← flatten_words, hwords, flatten_words, visible]
    have hblank (event : Event) (hevent : event ∈ content) (hlost : event.IsLost) :
        ∀ c ∈ event.plain.toList, Text.isWhiteSpace c :=
      visible_eq_nil_iff.mp ((visible_titleText content).2 hvisible event hevent hlost)
    refine ⟨hblank, fun left event right hcontent hlost hmeet => ?_⟩
    -- the heading parts its words at the lost event, across which a word of the title goes on
    subst hcontent
    have hevent : event ∈ left ++ event :: right := List.mem_append_right _ List.mem_cons_self
    have hleft : (words (rawText left)).flatten = (words (titleText left)).flatten := by
      rw [flatten_words, flatten_words]
      exact (visible_eq_of_blank fun other hother => hblank other (List.mem_append_left _ hother)).symm
    rw [titleText_append, titleText_cons, hlost.titled_eq, String.toList_empty, List.nil_append, rawText_append,
      rawText_cons, words_append_blank hlost.plain_ne_nil (hblank event hevent hlost)] at hwords
    exact words_append_ne_of_meetInWord hmeet hleft hwords
  · intro h
    exact @words_titleText_of_apart content [] h.blank h.apart

/-! ### The headings of a document -/

/-- The headings of a document have these levels, and between their ends these events. -/
inductive HasContents : List Event → List (Nat × List Event) → Prop where
  | nil : HasContents [] []
  | other {event : Event} {events : List Event} {contents : List (Nat × List Event)} (hevent : event.marksHeading = false)
      (h : HasContents events contents) : HasContents (event :: events) contents
  | heading {level other : Nat} {anchor : Option String} {content events : List Event} {contents : List (Nat × List Event)}
      (hcontent : ∀ event ∈ content, event.marksHeading = false) (h : HasContents events contents) :
      HasContents (.start (.heading level anchor) :: (content ++ .stop (.heading other) :: events))
        ((level, content) :: contents)

private theorem exists_hasContents (h : Alternates false events) : ∃ contents, HasContents events contents := by
  -- inside of a heading, the events up to its end come first
  have hboth {inside : Bool} {events : List Event} (h : Alternates inside events) :
      if inside then ∃ content level rest contents, events = content ++ .stop (.heading level) :: rest ∧
        (∀ event ∈ content, event.marksHeading = false) ∧ HasContents rest contents
      else ∃ contents, HasContents events contents := by
    induction h with
    | nil => exact ⟨[], .nil⟩
    | start _ ih =>
      obtain ⟨content, level, rest, contents, rfl, hcontent, hrest⟩ := ih
      exact ⟨_, .heading hcontent hrest⟩
    | @stop level rest _ ih =>
      obtain ⟨contents, hrest⟩ := ih
      exact ⟨[], level, rest, contents, rfl, List.forall_mem_nil _, hrest⟩
    | @other inside event rest hevent _ ih =>
      cases inside with
      | false =>
        obtain ⟨contents, hrest⟩ := ih
        exact ⟨contents, .other hevent hrest⟩
      | true =>
        obtain ⟨content, level, rest, contents, rfl, hcontent, hrest⟩ := ih
        exact ⟨event :: content, level, rest, contents, rfl, List.forall_mem_cons.mpr ⟨hevent, hcontent⟩, hrest⟩
  exact hboth h

section

variable {used : List String}

theorem headingsFrom_none (hevent : event.marksHeading = false) (events : List Event) :
    headingsFrom used none (event :: events) = headingsFrom used none events := by
  obtain ⟨next, hlevel, hnext⟩ := exists_headingsFrom_of_apart used none hevent
  rw [hnext, Option.map_eq_none_iff.mp hlevel]

theorem headingsFrom_some (hevent : event.marksHeading = false) (level : Nat) (title : String) (events : List Event) :
    headingsFrom used (some (level, title)) (event :: events) =
      headingsFrom used (some (level, title ++ event.titled)) events := by
  have hsame : title ++ "" = title := String.append_empty
  cases event with
  | text raw => rfl
  | code raw => rfl
  | start tag =>
    show _ = headingsFrom used (some (level, title ++ "")) events
    rw [hsame]
    cases tag with
    | heading level anchor => cases hevent
    | _ => rfl
  | stop tag =>
    show _ = headingsFrom used (some (level, title ++ "")) events
    rw [hsame]
    cases tag with
    | heading level => cases hevent
    | _ => rfl
  | _ =>
    show _ = headingsFrom used (some (level, title ++ "")) events
    rw [hsame]
    rfl

private theorem headingsFrom_content (hcontent : ∀ event ∈ content, event.marksHeading = false)
    (level other : Nat) (title : String) (events : List Event) :
    ∃ whole, whole.toList = title.toList ++ titleText content ∧
      headingsFrom used (some (level, title)) (content ++ .stop (.heading other) :: events) =
        ⟨whole, uniqueAnchor used whole, level⟩ :: headingsFrom (uniqueAnchor used whole :: used) none events := by
  induction content generalizing title with
  | nil => exact ⟨title, (List.append_nil _).symm, headingsFrom_stop level other title events⟩
  | cons event content ih =>
    obtain ⟨hevent, hcontent⟩ := List.forall_mem_cons.mp hcontent
    obtain ⟨whole, hwhole, hheadings⟩ := ih hcontent (title ++ event.titled)
    refine ⟨whole, ?_, ?_⟩
    · rw [hwhole, titleText_cons, String.toList_append, List.append_assoc]
    · rw [List.cons_append, headingsFrom_some hevent, hheadings]

/-- An entry of the table of contents has the level of its heading, and the title that the events of it make. -/
structure TocEntry.IsFor (entry : TocEntry) (heading : Nat × List Event) : Prop where
  level : entry.level = heading.1
  title : entry.title.toList = titleText heading.2

private theorem isFor_headingsFrom {contents : List (Nat × List Event)} (h : HasContents events contents) :
    List.Forall₂ TocEntry.IsFor (headingsFrom used none events) contents := by
  induction h generalizing used with
  | nil => exact .nil
  | other hevent _ ih =>
    rw [headingsFrom_none hevent]
    exact ih
  | @heading level other anchor content events contents hcontent _ ih =>
    obtain ⟨whole, hwhole, hheadings⟩ := @headingsFrom_content _ used hcontent level other "" events
    rw [headingsFrom_start, hheadings]
    exact .cons ⟨rfl, hwhole⟩ ih

end

/-- Where headings begin and end in turn, the table of contents has one entry for each of them, whose title is the
text and the code in it. It has the words that the plain text of the heading has exactly if the title keeps them. -/
theorem titles_keep_words_iff (h : Alternates false events) :
    ∃ contents, HasContents events contents ∧
      List.Forall₂ (fun entry heading => entry.IsFor heading ∧
        (words entry.title.toList = words (rawText heading.2) ↔ KeepsWords heading.2)) (headings events) contents := by
  obtain ⟨contents, hcontents⟩ := exists_hasContents h
  refine ⟨contents, hcontents, (isFor_headingsFrom hcontents).imp fun entry heading hentry => ⟨hentry, ?_⟩⟩
  rw [hentry.title]
  exact words_titleText_eq_iff

/-- A heading of two lines, and one that ends behind its line. -/
def wrappedTitle : String := "Foo\nbar\n===\n\n# A `b`\n"

theorem titles_keep_words_iff_wrapped :
    Alternates false (Markdown.events wrappedTitle) ∧ ∃ contents, HasContents (Markdown.events wrappedTitle) contents ∧
      List.Forall₂ (fun entry heading => entry.IsFor heading ∧
        (words entry.title.toList = words (rawText heading.2) ↔ KeepsWords heading.2)) (headings (Markdown.events wrappedTitle))
        contents := by
  have halternates : Alternates false (Markdown.events wrappedTitle) := (isDocument_events wrappedTitle).alternates
  exact ⟨halternates, titles_keep_words_iff halternates⟩

/-- The lines of a heading are one word in its title, and two in its plain text. -/
theorem title_joins_lines :
    ∃ content, HasContents (Markdown.events "Foo\nbar\n===\n") [(1, content)] ∧
      (headings (Markdown.events "Foo\nbar\n===\n")).map (·.title) = ["Foobar"] ∧
      words (rawText content) = ["Foo".toList, "bar".toList] := by
  have hevents : Markdown.events "Foo\nbar\n===\n" =
      [.start (.heading 1 none), .text "Foo", .softBreak, .text "bar", .stop (.heading 1)] := by
    decide +kernel
  have hcontent : ∀ event ∈ [Event.text "Foo", .softBreak, .text "bar"], event.marksHeading = false := by decide
  refine ⟨[.text "Foo", .softBreak, .text "bar"], ?_, ?_, ?_⟩
  · rw [hevents]
    exact .heading hcontent .nil
  · rw [hevents]
    decide +kernel
  · decide +kernel

end SchemaDocs.Markdown
