import SchemaDocs.Proofs.Markdown.Elements

/-!
# What the writer writes

Events are written in turn, each as markup behind the markup before it, if they hold no raw HTML and no
address that runs a script. Within an image they go into its alternative text. `Written` says what has
been written in either case, and every event keeps it.
-/

namespace SchemaDocs.Markdown

/-- What has been written by a writer at some depth of an image: markup, and in an image the
beginning of its tag. -/
inductive Written (writer : Writer) (text : List Char) (marks : List HtmlTag) : Option Nat → Prop where
  | outside (himage : writer.image = none) (hmarkup : IsMarkup text marks) : Written writer text marks none
  | inside {depth : Nat} {title : String} {front source alt : List Char} (himage : writer.image = some (depth, title))
      (hmarkup : IsMarkup front marks) (hsource : IsValue source) (hsafe : ¬ RunsScript source) (halt : IsValue alt)
      (htext : text = front ++ (imageOpening source ++ alt)) : Written writer text marks (some depth)

private theorem image_put (writer : Writer) (text : String) : (writer.put text).1.image = writer.image := by
  rw [Writer.put]
  split <;> rfl

private theorem image_footnoteNumber (writer : Writer) (label : String) :
    (writer.footnoteNumber label).1.image = writer.image := by
  rw [Writer.footnoteNumber]
  split <;> rfl

private theorem image_putLine (writer : Writer) (text : String) :
    (writer.putLine text).1.image = writer.image := image_put ..

private theorem image_start {writer : Writer} {tag : Tag} (himage : ∀ target title, tag ≠ .image target title) :
    (writer.start tag).1.image = writer.image := by
  cases tag with
  | codeBlock info =>
    cases info with
    | none => exact image_putLine ..
    | some info =>
      simp only [Writer.start]
      split <;> exact image_putLine ..
  | list start => rcases start with _ | _ | _ | start <;> exact image_putLine ..
  | footnoteDefinition label => exact (image_putLine ..).trans (image_footnoteNumber ..)
  | image target title => exact absurd rfl (himage target title)
  | htmlBlock => rfl
  | paragraph | heading | blockQuote | item => exact image_putLine ..
  | table | tableHead | tableRow | tableCell | emphasis | strong | strikethrough | link => exact image_put ..

private theorem image_stop (writer : Writer) (tag : TagEnd) : (writer.stop tag).1.image = writer.image := by
  cases tag <;> first | rfl | exact image_put ..

private theorem step_outside {writer : Writer} (himage : writer.image = none) :
    (∀ tag, writer.step (.start tag) = writer.start tag) ∧ ∀ tag, writer.step (.stop tag) = writer.stop tag := by
  constructor <;> intro tag <;> rw [Writer.step, himage]

private theorem isMarkup_step {writer : Writer} {event : Event} (himage : writer.image = none)
    (hharmless : event.IsHarmless) (hstart : ∀ target title, event ≠ .start (.image target title)) :
    IsMarkup (writer.step event).2.toList event.marks ∧ (writer.step event).1.image = none := by
  cases event with
  | start tag =>
    have htag : ∀ target title, tag ≠ .image target title := fun target title hsame =>
      hstart target title (congrArg Event.start hsame)
    rw [(step_outside himage).1]
    exact ⟨isMarkup_start hharmless htag, (image_start htag).trans himage⟩
  | stop tag =>
    rw [(step_outside himage).2]
    exact ⟨isMarkup_stop writer tag, (image_stop writer tag).trans himage⟩
  | text text =>
    rw [Writer.step, himage]
    exact ⟨.of_not_mem (bracket_not_mem_escapeBody text), rfl⟩
  | code text =>
    rw [Writer.step, himage]
    refine ⟨?_, (image_put ..).trans himage⟩
    have hmarkup := ((IsMarkup.literal "<code>" (by decide)).append_plain
      (.of_not_mem (bracket_not_mem_escapeBody text))).append_plain (.literal "</code>" (by decide))
    simpa [Writer.put, Event.marks] using hmarkup
  | html text => exact hharmless.elim
  | inlineHtml text => exact hharmless.elim
  | softBreak =>
    rw [Writer.step, himage]
    exact ⟨.literal "\n" (by decide), (image_put ..).trans himage⟩
  | hardBreak =>
    rw [Writer.step, himage]
    exact ⟨.literal "<br />\n" (by decide), (image_put ..).trans himage⟩
  | rule =>
    rw [Writer.step, himage]
    exact ⟨isMarkup_putLine (.literal "<hr />\n" (by decide)), (image_putLine ..).trans himage⟩
  | footnoteReference label =>
    rw [Writer.step, himage]
    exact ⟨isMarkup_footnoteReference label (writer.footnoteNumber label).2,
      ((image_put ..).trans (image_footnoteNumber ..)).trans himage⟩
  | taskMarker checked =>
    rw [Writer.step, himage]
    refine ⟨?_, (image_put ..).trans himage⟩
    cases checked with
    | false => exact .literal "<input disabled=\"\" type=\"checkbox\"/>\n" (by decide)
    | true => exact .literal "<input disabled=\"\" type=\"checkbox\" checked=\"\"/>\n" (by decide)

private theorem isValue_stepImage (writer : Writer) (depth : Nat) (title : String) {event : Event}
    (hinner : ∀ tag, event ≠ .start tag) (houter : ∀ tag, event ≠ .stop tag) :
    IsValue (writer.stepImage depth title event).2.toList ∧
      (writer.stepImage depth title event).1.image = writer.image := by
  cases event with
  | start tag => exact absurd rfl (hinner tag)
  | stop tag => exact absurd rfl (houter tag)
  | html text => exact ⟨show IsValue "".toList by decide, rfl⟩
  | text text => exact ⟨isValue_escapeAttribute text, image_put ..⟩
  | code text => exact ⟨isValue_escapeAttribute text, image_put ..⟩
  | inlineHtml text => exact ⟨isValue_escapeAttribute text, image_put ..⟩
  | softBreak => exact ⟨show IsValue " ".toList by decide, image_put ..⟩
  | hardBreak => exact ⟨show IsValue " ".toList by decide, image_put ..⟩
  | rule => exact ⟨show IsValue " ".toList by decide, image_put ..⟩
  | footnoteReference label =>
    refine ⟨?_, (image_put ..).trans (image_footnoteNumber ..)⟩
    have hvalue : IsValue ("[".toList ++ (toString (writer.footnoteNumber label).2).toList ++ "]".toList) :=
      isValue_append (isValue_append (by decide) (isValue_toString _)) (by decide)
    rw [← String.toList_append, ← String.toList_append] at hvalue
    exact hvalue
  | taskMarker checked =>
    refine ⟨?_, image_put ..⟩
    cases checked with
    | false => exact show IsValue "[ ]".toList by decide
    | true => exact show IsValue "[x]".toList by decide

namespace Written

variable {writer : Writer} {text : List Char} {marks : List HtmlTag} {depth : Option Nat} {event : Event}

private theorem step_none (h : Written writer text marks none) (hharmless : event.IsHarmless) :
    Written (writer.step event).1 (text ++ (writer.step event).2.toList) (marks ++ event.marks)
      (imageDepth none event) := by
  cases h with
  | outside himage hmarkup =>
    by_cases hstart : ∃ target title, event = .start (.image target title)
    · obtain ⟨target, title, rfl⟩ := hstart
      rw [(step_outside himage).1, toList_start_image]
      refine .inside (image_put ..) (hmarkup.append (.of_not_mem List.not_mem_nil))
        (isValue_escapeAddress target) (not_runsScript_escapeAddress hharmless) (show IsValue [] by decide) ?_
      simp
    · have hother : ∀ target title, event ≠ .start (.image target title) := fun target title hsame =>
        hstart ⟨target, title, hsame⟩
      obtain ⟨hout, hnone⟩ := isMarkup_step himage hharmless hother
      rw [imageDepth_none hother]
      exact .outside hnone (hmarkup.append hout)

private theorem step_some {depth : Nat} (h : Written writer text marks (some depth)) :
    Written (writer.step event).1 (text ++ (writer.step event).2.toList) marks (imageDepth (some depth) event) := by
  cases h with
  | @inside _ title front source alt himage hmarkup hsource hsafe halt htext =>
    have hstep : writer.step event = writer.stepImage depth title event := by
      unfold Writer.step
      rw [himage]
    rw [hstep]
    by_cases hinner : ∃ tag, event = .start tag
    · obtain ⟨tag, rfl⟩ := hinner
      refine .inside rfl hmarkup hsource hsafe halt ?_
      rw [htext]
      exact List.append_nil _
    · by_cases houter : ∃ tag, event = .stop tag
      · obtain ⟨tag, rfl⟩ := houter
        cases depth with
        | zero =>
          rw [Writer.stepImage, if_pos rfl, htext, List.append_assoc]
          exact .outside (image_put ..) (hmarkup.append_plain (isMarkup_image title hsource hsafe halt))
        | succ depth =>
          rw [Writer.stepImage, if_neg (Nat.succ_ne_zero depth), htext]
          exact .inside rfl hmarkup hsource hsafe halt (List.append_nil _)
      · have hnotInner : ∀ tag, event ≠ .start tag := fun tag hsame => hinner ⟨tag, hsame⟩
        have hnotOuter : ∀ tag, event ≠ .stop tag := fun tag hsame => houter ⟨tag, hsame⟩
        obtain ⟨hvalue, hsame⟩ := isValue_stepImage writer depth title hnotInner hnotOuter
        rw [imageDepth_eq hnotInner hnotOuter]
        refine .inside (hsame.trans himage) hmarkup hsource hsafe (isValue_append halt hvalue) ?_
        rw [htext, List.append_assoc, List.append_assoc]

private theorem step (h : Written writer text marks depth) (hharmless : event.IsHarmless) :
    Written (writer.step event).1 (text ++ (writer.step event).2.toList)
      (marks ++ if depth.isNone then event.marks else []) (imageDepth depth event) := by
  cases depth with
  | none => exact h.step_none hharmless
  | some depth =>
    rw [Option.isNone_some, if_neg Bool.false_ne_true, List.append_nil]
    exact h.step_some

end Written

/-- The marks outside images, from an event at some depth of an image on. -/
def marksFrom : (depth : Option Nat) → List Event → List HtmlTag
  | _, [] => []
  | depth, event :: events =>
    (if depth.isNone then event.marks else []) ++ marksFrom (imageDepth depth event) events

theorem filter_marksFrom {keep : HtmlTag → Bool} {picks : Event → Bool} {depth : Option Nat} {events : List Event}
    (h : Outside picks depth events) (hpicks : ∀ event, picks event = false → event.marks.filter keep = []) :
    (marksFrom depth events).filter keep = events.flatMap fun event => event.marks.filter keep := by
  induction events generalizing depth with
  | nil => rfl
  | cons event events ih =>
    obtain ⟨hdepth, houtside⟩ := h
    rw [marksFrom, List.filter_append, ih houtside, List.flatMap_cons]
    cases hpicked : picks event with
    | true =>
      obtain rfl := hdepth hpicked
      rfl
    | false =>
      rw [hpicks event hpicked]
      split
      · rw [hpicks event hpicked]
      · rfl

private theorem Written.run {writer : Writer} {text : List Char} {marks : List HtmlTag} {depth : Option Nat}
    {events : List Event} (h : Written writer text marks depth) (hharmless : ∀ event ∈ events, event.IsHarmless) :
    ∃ final, Written final (text ++ (String.join (writer.write events)).toList) (marks ++ marksFrom depth events)
      (events.foldl imageDepth depth) := by
  induction events generalizing writer text marks depth with
  | nil => exact ⟨writer, by simpa [Writer.write, marksFrom] using h⟩
  | cons event events ih =>
    obtain ⟨hevent, hevents⟩ := List.forall_mem_cons.mp hharmless
    obtain ⟨final, hfinal⟩ := ih (h.step hevent) hevents
    refine ⟨final, ?_⟩
    rw [marksFrom, ← List.append_assoc, List.foldl_cons, Writer.write]
    simpa [String.join_cons] using hfinal

private theorem Written.read_marks {writer : Writer} {text : List Char} {marks : List HtmlTag} {depth : Option Nat}
    (h : Written writer text marks depth) : (TagReader.read {} text).tags.filter HtmlTag.isMark = marks := by
  cases h with
  | outside _ hmarkup =>
    obtain ⟨tags, hwrites, hmarks⟩ := hmarkup
    rw [hwrites.read, List.nil_append, hmarks]
  | inside _ hmarkup hsource hsafe halt htext =>
    obtain ⟨tags, hwrites, hmarks⟩ := hmarkup
    rw [htext, TagReader.read_append, hwrites.read, List.nil_append, read_imageOpening tags hsource hsafe halt, hmarks]

private theorem written_html {events : List Event} (hharmless : ∀ event ∈ events, event.IsHarmless) :
    ∃ writer, Written writer (html events).toList (marksFrom none events) (events.foldl imageDepth none) :=
  (Written.outside rfl (.of_not_mem List.not_mem_nil) : Written {} [] [] none).run hharmless

/-- Marks of any kind in the HTML of harmless events are those of the events outside images. -/
theorem filter_html {events : List Event} (hharmless : ∀ event ∈ events, event.IsHarmless) {keep : HtmlTag → Bool}
    (hkeep : ∀ tag, keep tag → tag.isMark) :
    (readHtml (html events)).tags.filter keep = (marksFrom none events).filter keep := by
  obtain ⟨writer, hwritten⟩ := written_html hharmless
  have hboth (tag : HtmlTag) : (keep tag && tag.isMark) = keep tag :=
    Bool.and_eq_left_iff_imp.mpr (hkeep tag)
  rw [← hwritten.read_marks, List.filter_filter]
  exact List.filter_congr fun tag _ => (hboth tag).symm

/-- The HTML of harmless events is markup, if no image is left open. -/
theorem isMarkup_html {events : List Event} (hharmless : ∀ event ∈ events, event.IsHarmless)
    (hclosed : events.foldl imageDepth none = none) : IsMarkup (html events).toList (marksFrom none events) := by
  obtain ⟨writer, hwritten⟩ := written_html hharmless
  rw [hclosed] at hwritten
  cases hwritten with
  | outside _ hmarkup => exact hmarkup

end SchemaDocs.Markdown
