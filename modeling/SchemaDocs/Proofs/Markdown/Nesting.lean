import SchemaDocs.Markdown.BlockStructure
import SchemaDocs.Markdown.Heading
import SchemaDocs.Markdown.Sanitize
import Mathlib.Data.List.Forall2

/-!
# Nesting of a document's events

A document is a tree, so that its events nest: an image that begins also ends, headings begin and
end in turn, and none begins within an image. The events of running content hold no heading at all.
-/

namespace SchemaDocs.Markdown

/-- How deep an event leaves its image, given how deep it stands in it. -/
def imageDepth : (depth : Option Nat) → Event → Option Nat
  | none, .start (.image _ _) => some 0
  | none, _ => none
  | some depth, .start _ => some (depth + 1)
  | some 0, .stop _ => none
  | some (depth + 1), .stop _ => some depth
  | some depth, _ => some depth

def Event.heading? : Event → Option (Nat × Option String)
  | .start (.heading level anchor) => some (level, anchor)
  | _ => none

def Event.definition? : Event → Option String
  | .start (.footnoteDefinition label) => some label
  | _ => none

/-- Whether an event begins an element that has an anchor: a heading, or the definition of a footnote. -/
def Event.isAnchored (event : Event) : Bool := event.heading?.isSome || event.definition?.isSome

def Event.marksHeading : Event → Bool
  | .start (.heading _ _) | .stop (.heading _) => true
  | _ => false

/-- Headings begin and end in turn, from inside or outside one on, and the last one ends. -/
inductive Alternates : (inside : Bool) → List Event → Prop where
  | nil : Alternates false []
  | start {level : Nat} {anchor : Option String} {events : List Event} (h : Alternates true events) :
      Alternates false (.start (.heading level anchor) :: events)
  | stop {level : Nat} {events : List Event} (h : Alternates false events) :
      Alternates true (.stop (.heading level) :: events)
  | other {inside : Bool} {event : Event} {events : List Event} (hevent : event.marksHeading = false)
      (h : Alternates inside events) : Alternates inside (event :: events)

/-- None of the events that a condition picks stands in an image, from an event at some depth of an image on. -/
def Outside (picks : Event → Bool) : (depth : Option Nat) → List Event → Prop
  | _, [] => True
  | depth, event :: events => (picks event → depth = none) ∧ Outside picks (imageDepth depth event) events

/-- No heading begins in an image, from an event at some depth of an image on. -/
def HeadingsOutside : (depth : Option Nat) → List Event → Prop
  | _, [] => True
  | depth, event :: events => (event.heading?.isSome → depth = none) ∧ HeadingsOutside (imageDepth depth event) events

section

variable {picks others : Event → Bool} {inside : Bool} {depth : Option Nat} {event : Event} {events left right content : List Event}
  {tag : Tag}

theorem imageDepth_none (hstart : ∀ target title, event ≠ .start (.image target title)) :
    imageDepth none event = none := by
  unfold imageDepth
  split
  · exact absurd rfl (hstart _ _)
  all_goals simp_all

theorem imageDepth_eq (hinner : ∀ tag, event ≠ .start tag) (houter : ∀ tag, event ≠ .stop tag) (depth : Option Nat) :
    imageDepth depth event = depth := by
  unfold imageDepth
  split <;> simp_all

private theorem eq_start_of_heading? {mark : Nat × Option String} (h : event.heading? = some mark) :
    event = .start (.heading mark.1 mark.2) := by
  unfold Event.heading? at h
  split at h
  · obtain rfl := Option.some.inj h
    rfl
  · cases h

theorem heading?_eq_none (h : event.marksHeading = false) : event.heading? = none := by
  unfold Event.heading?
  split
  · cases h
  · rfl

theorem Alternates.append (hleft : Alternates inside left) (hright : Alternates false right) :
    Alternates inside (left ++ right) := by
  induction hleft with
  | nil => exact hright
  | start _ ih => exact .start ih
  | stop _ ih => exact .stop ih
  | other hevent _ ih => exact .other hevent ih

private theorem Alternates.apart_append (hleft : ∀ event ∈ left, event.marksHeading = false)
    (hright : Alternates inside right) :
    Alternates inside (left ++ right) := by
  induction left with
  | nil => exact hright
  | cons event left ih =>
    obtain ⟨hevent, hleft⟩ := List.forall_mem_cons.mp hleft
    exact .other hevent (ih hleft)

theorem headingsOutside_iff :
    HeadingsOutside depth events ↔ Outside (fun event => event.heading?.isSome) depth events := by
  induction events generalizing depth with
  | nil => exact .rfl
  | cons event events ih => exact and_congr .rfl ih

theorem Outside.imp (h : Outside others depth events) (himp : ∀ event, picks event → others event) :
    Outside picks depth events := by
  induction events generalizing depth with
  | nil => trivial
  | cons event events ih => exact ⟨fun hpicked => h.1 (himp event hpicked), ih h.2⟩

theorem outside_append :
    Outside picks depth (left ++ right) ↔
      Outside picks depth left ∧ Outside picks (left.foldl imageDepth depth) right := by
  induction left generalizing depth with
  | nil => simp [Outside]
  | cons event left ih => simp [Outside, ih, and_assoc]

private theorem isAnchored_eq_false (hheading : event.marksHeading = false) (hdefinition : event.definition? = none) :
    event.isAnchored = false := by
  rw [Event.isAnchored, heading?_eq_none hheading, hdefinition]
  rfl

private theorem outside_of_unpicked (h : ∀ event ∈ events, picks event = false) : Outside picks depth events := by
  induction events generalizing depth with
  | nil => trivial
  | cons event events ih =>
    obtain ⟨hevent, hevents⟩ := List.forall_mem_cons.mp h
    exact ⟨fun hpicked => absurd hpicked (Bool.eq_false_iff.mp hevent), ih hevents⟩

/-! ### Elements -/

private theorem foldl_imageDepth_around (hcontent : ∀ depth, content.foldl imageDepth depth = depth) (tag : Tag)
    (depth : Option Nat) : (tag.around content).foldl imageDepth depth = depth := by
  rw [Tag.around, List.cons_append, List.foldl_cons, List.foldl_append, hcontent]
  cases depth with
  | none => cases tag <;> rfl
  | some depth => rfl

private theorem mem_around :
    event ∈ tag.around content ↔ event = .start tag ∨ event ∈ content ∨ event = .stop tag.closing := by
  rw [Tag.around, List.cons_append, List.mem_cons, List.mem_append, List.mem_singleton]

/-- Events as those of running content: images end where they should, and there are no headings and no
definitions of footnotes. -/
structure IsRunning (events : List Event) : Prop where
  images : ∀ depth, events.foldl imageDepth depth = depth
  apart : ∀ event ∈ events, event.marksHeading = false
  undefining : ∀ event ∈ events, event.definition? = none

namespace IsRunning

theorem append (hleft : IsRunning left) (hright : IsRunning right) : IsRunning (left ++ right) where
  images depth := by rw [List.foldl_append, hleft.images, hright.images]
  apart event hevent := (List.mem_append.mp hevent).elim (hleft.apart event) (hright.apart event)
  undefining event hevent := (List.mem_append.mp hevent).elim (hleft.undefining event) (hright.undefining event)

theorem nil : IsRunning [] := ⟨fun _ => rfl, List.forall_mem_nil _, List.forall_mem_nil _⟩

theorem singleton (hinner : ∀ tag, event ≠ .start tag) (houter : ∀ tag, event ≠ .stop tag) : IsRunning [event] where
  images := imageDepth_eq hinner houter
  apart other hother := by
    rw [List.mem_singleton.mp hother]
    cases event with
    | start tag => exact absurd rfl (hinner tag)
    | stop tag => exact absurd rfl (houter tag)
    | _ => rfl
  undefining other hother := by
    rw [List.mem_singleton.mp hother]
    cases event with
    | start tag => exact absurd rfl (hinner tag)
    | _ => rfl

private theorem flatMap {α : Type} {items : List α} {f : α → List Event} (h : ∀ item ∈ items, IsRunning (f item)) :
    IsRunning (items.flatMap f) := by
  induction items with
  | nil => exact nil
  | cons item items ih =>
    obtain ⟨hitem, hitems⟩ := List.forall_mem_cons.mp h
    rw [List.flatMap_cons]
    exact hitem.append (ih hitems)

private theorem around (hcontent : IsRunning content) (htag : (Event.start tag).marksHeading = false)
    (hdefinition : (Event.start tag).definition? = none) : IsRunning (tag.around content) where
  images := foldl_imageDepth_around hcontent.images tag
  undefining event hevent := by
    rcases mem_around.mp hevent with rfl | hevent | rfl
    · exact hdefinition
    · exact hcontent.undefining event hevent
    · rfl
  apart event hevent := by
    rcases mem_around.mp hevent with rfl | hevent | rfl
    · exact htag
    · exact hcontent.apart event hevent
    · cases tag with
      | heading level anchor => cases htag
      | _ => rfl

end IsRunning

private theorem IsRunning.unanchored (h : IsRunning events) : ∀ event ∈ events, event.isAnchored = false :=
  fun event hevent => isAnchored_eq_false (h.apart event hevent) (h.undefining event hevent)

/-- Events as those of blocks: headings begin and end in turn, and nothing with an anchor begins in an
image. -/
structure IsDocument (events : List Event) : Prop where
  images : ∀ depth, events.foldl imageDepth depth = depth
  alternates : Alternates false events
  anchored : Outside Event.isAnchored none events

namespace IsDocument

theorem outside (h : IsDocument events) : HeadingsOutside none events :=
  headingsOutside_iff.mpr (h.anchored.imp fun _ hheading => Bool.or_eq_true_iff.mpr (.inl hheading))

private theorem of_running (h : IsRunning events) : IsDocument events where
  images := h.images
  alternates := List.append_nil events ▸ Alternates.apart_append h.apart .nil
  anchored := outside_of_unpicked h.unanchored

theorem append (hleft : IsDocument left) (hright : IsDocument right) : IsDocument (left ++ right) where
  images depth := by rw [List.foldl_append, hleft.images, hright.images]
  alternates := hleft.alternates.append hright.alternates
  anchored := by
    rw [outside_append, hleft.images]
    exact ⟨hleft.anchored, hright.anchored⟩

private theorem around (hcontent : IsDocument content) (hheading : (Event.start tag).marksHeading = false)
    (himage : ∀ target title, tag ≠ .image target title) : IsDocument (tag.around content) where
  images := foldl_imageDepth_around hcontent.images tag
  alternates := by
    have hstop : (Event.stop tag.closing).marksHeading = false := by
      cases tag with
      | heading level anchor => cases hheading
      | _ => rfl
    exact (Alternates.other hheading hcontent.alternates).append (.other hstop .nil)
  anchored := by
    have hstart : imageDepth none (.start tag) = none := imageDepth_none fun target title hsame =>
      himage target title (Event.start.inj hsame)
    rw [Tag.around, outside_append, Outside, hstart]
    exact ⟨⟨fun _ => rfl, hcontent.anchored⟩, nofun, trivial⟩

private theorem heading (level : Nat) (anchor : Option String) (hcontent : IsRunning content) :
    IsDocument ((Tag.heading level anchor).around content) where
  images := foldl_imageDepth_around hcontent.images _
  alternates := .start (Alternates.apart_append hcontent.apart (.stop .nil))
  anchored := by
    rw [Tag.around, outside_append]
    exact ⟨⟨fun _ => rfl, outside_of_unpicked hcontent.unanchored⟩, nofun, trivial⟩

end IsDocument

end

/-! ### Trees -/

mutual

theorem Inline.isRunning_events : (inline : Inline) → IsRunning inline.events
  | .text _ | .code _ | .html _ | .softBreak | .hardBreak | .footnoteReference _ | .taskMarker _ =>
    .singleton nofun nofun
  | .emphasis content => (Inline.isRunning_listEvents content).around rfl rfl
  | .strong content => (Inline.isRunning_listEvents content).around rfl rfl
  | .strikethrough content => (Inline.isRunning_listEvents content).around rfl rfl
  | .link _ _ _ content => (Inline.isRunning_listEvents content).around rfl rfl
  | .image _ _ content => (Inline.isRunning_listEvents content).around rfl rfl

private theorem Inline.isRunning_listEvents : (content : List Inline) → IsRunning (Inline.listEvents content)
  | [] => .nil
  | inline :: content => inline.isRunning_events.append (Inline.isRunning_listEvents content)

end

private theorem isRunning_lines (event : String → Event) (lines : List String)
    (hinner : ∀ line tag, event line ≠ .start tag)
    (houter : ∀ line tag, event line ≠ .stop tag) : IsRunning (lines.map event) := by
  rw [List.map_eq_flatMap]
  exact .flatMap fun line _ => .singleton (hinner line) (houter line)

private theorem isRunning_rowEvents {tag : Tag} (htag : (Event.start tag).marksHeading = false)
    (hdefinition : (Event.start tag).definition? = none) (cells : List (List Inline)) :
    IsRunning (rowEvents tag cells) :=
  .around (.flatMap fun cell _ => (Inline.isRunning_listEvents cell).around rfl rfl) htag hdefinition

mutual

theorem Block.isDocument_events : (block : Block (List Inline)) → IsDocument block.events
  | .paragraph content => .of_running ((Inline.isRunning_listEvents content).around rfl rfl)
  | .plain content => .of_running (Inline.isRunning_listEvents content)
  | .heading level content => .heading level none (Inline.isRunning_listEvents content)
  | .rule => .of_running (.singleton nofun nofun)
  | .code _ lines => .of_running ((isRunning_lines .text lines (fun _ => nofun) fun _ => nofun).around rfl rfl)
  | .html lines => .of_running ((isRunning_lines .html lines (fun _ => nofun) fun _ => nofun).around rfl rfl)
  | .quote blocks => (Block.isDocument_listEvents blocks).around rfl nofun
  | .list _ items => (Block.isDocument_listEvents items).around rfl nofun
  | .item blocks => (Block.isDocument_listEvents blocks).around rfl nofun
  | .footnote _ blocks => (Block.isDocument_listEvents blocks).around rfl nofun
  | .table _ head _ =>
    .of_running (.around ((isRunning_rowEvents rfl rfl head).append (.flatMap fun row _ => isRunning_rowEvents rfl rfl row)) rfl rfl)

private theorem Block.isDocument_listEvents :
    (blocks : List (Block (List Inline))) → IsDocument (Block.listEvents blocks)
  | [] => .of_running .nil
  | block :: blocks => block.isDocument_events.append (Block.isDocument_listEvents blocks)

end

/-- The events of a text nest. -/
theorem isDocument_events (text : String) : IsDocument (events text) := Block.isDocument_listEvents (blocks text)

/-! ### Streams that nest alike -/

/-- An event in another one's place nests as that one does. -/
structure Replaces (event other : Event) : Prop where
  images : ∀ depth, imageDepth depth other = imageDepth depth event
  heading : other.heading?.isSome = event.heading?.isSome
  definition : other.definition? = event.definition?

theorem Replaces.refl (event : Event) : Replaces event event := ⟨fun _ => rfl, rfl, rfl⟩

theorem Replaces.trans {first second third : Event} (hfirst : Replaces first second) (hsecond : Replaces second third) :
    Replaces first third where
  images depth := (hsecond.images depth).trans (hfirst.images depth)
  heading := hsecond.heading.trans hfirst.heading
  definition := hsecond.definition.trans hfirst.definition

theorem Replaces.anchored {event other : Event} (h : Replaces event other) : other.isAnchored = event.isAnchored := by
  rw [Event.isAnchored, Event.isAnchored, h.heading, h.definition]

private theorem replaces_sanitizeEvent (event : Event) : Replaces event (sanitizeEvent event) := by
  cases event with
  | start tag => cases tag <;> exact ⟨fun depth => by cases depth <;> rfl, rfl, rfl⟩
  | html text => exact ⟨fun depth => by rcases depth with _ | _ | depth <;> rfl, rfl, rfl⟩
  | inlineHtml text => exact ⟨fun depth => by rcases depth with _ | _ | depth <;> rfl, rfl, rfl⟩
  | _ => exact .refl _

theorem withAnchors_of_apart {anchors : List String} {event : Event} (h : event.heading? = none) (events : List Event) :
    withAnchors anchors (event :: events) = event :: withAnchors anchors events := by
  rw [withAnchors]
  intro level anchor hsame
  rw [hsame] at h
  cases h

private theorem replaces_withAnchors (anchors : List String) (events : List Event) :
    List.Forall₂ Replaces events (withAnchors anchors events) := by
  induction events generalizing anchors with
  | nil => exact .nil
  | cons event events ih =>
    cases hheading : event.heading? with
    | none =>
      rw [withAnchors_of_apart hheading]
      exact .cons (.refl event) (ih anchors)
    | some mark =>
      rw [eq_start_of_heading? hheading, withAnchors]
      exact .cons ⟨fun depth => by cases depth <;> rfl, rfl, rfl⟩ (ih anchors.tail)

/-- What is written of events nests as they do. -/
theorem replaces_sanitize_withAnchors (anchors : List String) (events : List Event) :
    List.Forall₂ Replaces events (sanitize (withAnchors anchors events)) := by
  rw [sanitize, List.forall₂_map_right_iff]
  exact (replaces_withAnchors anchors events).imp fun _ other hreplaces => hreplaces.trans (replaces_sanitizeEvent other)

section

variable {picks : Event → Bool} {depth : Option Nat} {events others : List Event}

theorem foldl_imageDepth_of_replaces (h : List.Forall₂ Replaces events others) (depth : Option Nat) :
    others.foldl imageDepth depth = events.foldl imageDepth depth := by
  induction h generalizing depth with
  | nil => rfl
  | cons hfirst _ ih => rw [List.foldl_cons, List.foldl_cons, hfirst.images, ih]

theorem outside_of_replaces (h : List.Forall₂ Replaces events others)
    (hpicks : ∀ event other, Replaces event other → picks other = picks event) (houtside : Outside picks depth events) :
    Outside picks depth others := by
  induction h generalizing depth with
  | nil => trivial
  | cons hfirst _ ih =>
    refine ⟨?_, ?_⟩
    · rw [hpicks _ _ hfirst]
      exact houtside.1
    · rw [hfirst.images]
      exact ih houtside.2

theorem headingsOutside_of_replaces (h : List.Forall₂ Replaces events others)
    (houtside : HeadingsOutside depth events) :
    HeadingsOutside depth others :=
  headingsOutside_iff.mpr (outside_of_replaces h (fun _ _ hreplaces => hreplaces.heading) (headingsOutside_iff.mp houtside))

end

end SchemaDocs.Markdown
