import SchemaDocs.Markdown.Renderer
import SchemaDocs.Proofs.Markdown.Writing

/-!
# Safe output

Sanitizing goes through a document event by event. Raw HTML becomes text and an address that runs a
script is replaced, whatever surrounds the event, so that only harmless events are written. What is
written is then markup of the writer.
-/

namespace SchemaDocs.Markdown

/-- What becomes of an event when its document is sanitized. -/
inductive Sanitizes : Event → Event → Prop where
  | block (text : String) : Sanitizes (.html text) (.text text)
  | inline (text : String) : Sanitizes (.inlineHtml text) (.text text)
  | link (mail : Bool) {target : String} (title : String) (htarget : RunsScript target.toList) :
      Sanitizes (.start (.link mail target title)) (.start (.link mail "#" title))
  | image {target : String} (title : String) (htarget : RunsScript target.toList) :
      Sanitizes (.start (.image target title)) (.start (.image "#" title))
  | harmless {event : Event} (h : event.IsHarmless) : Sanitizes event event

/-- HTML in which every opening bracket begins a tag of the writer, and no address runs a script. -/
structure IsSafe (html : String) : Prop where
  ended : (readHtml html).place = .text
  brackets : html.toList.count '<' = (readHtml html).tags.length
  own : ∀ tag ∈ (readHtml html).tags, tag.IsOwn

/-! ### Events -/

theorem safeAddress_cases (address : String) :
    RunsScript address.toList ∧ safeAddress address = "#" ∨ ¬ RunsScript address.toList ∧ safeAddress address = address := by
  rw [safeAddress, ← isScriptAddress_iff]
  split
  · rename_i hscript
    exact .inl ⟨hscript, rfl⟩
  · rename_i hsafe
    exact .inr ⟨hsafe, rfl⟩

private theorem sanitizes_sanitizeEvent (event : Event) : Sanitizes event (sanitizeEvent event) := by
  cases event with
  | html text => exact .block text
  | inlineHtml text => exact .inline text
  | start tag =>
    cases tag with
    | link mail target title =>
      rw [sanitizeEvent]
      rcases safeAddress_cases target with ⟨hscript, hclean⟩ | ⟨hsafe, hclean⟩
      · rw [hclean]
        exact .link mail title hscript
      · rw [hclean]
        exact .harmless hsafe
    | image target title =>
      rw [sanitizeEvent]
      rcases safeAddress_cases target with ⟨hscript, hclean⟩ | ⟨hsafe, hclean⟩
      · rw [hclean]
        exact .image title hscript
      · rw [hclean]
        exact .harmless hsafe
    | _ => exact .harmless trivial
  | _ => exact .harmless trivial

private theorem isHarmless_of_sanitizes {event clean : Event} (h : Sanitizes event clean) : clean.IsHarmless := by
  have hmark : ¬ RunsScript "#".toList := by decide
  cases h with
  | block text => trivial
  | inline text => trivial
  | link mail title htarget => exact hmark
  | image title htarget => exact hmark
  | harmless h => exact h

theorem isHarmless_of_mem_sanitize {events : List Event} : ∀ event ∈ sanitize events, event.IsHarmless := by
  intro clean hclean
  obtain ⟨event, _, rfl⟩ := List.mem_map.mp hclean
  exact isHarmless_of_sanitizes (sanitizes_sanitizeEvent event)

/-! ### Output -/

/-- Rendering leaves no image open, if the events have none. -/
theorem isSafe_renderEvents {events : List Event} (hclosed : events.foldl imageDepth none = none) :
    IsSafe (renderEvents events) := by
  have hrendered (anchors : List String) : (sanitize (withAnchors anchors events)).foldl imageDepth none = none := by
    rw [foldl_imageDepth_of_replaces (replaces_sanitize_withAnchors _ _), hclosed]
  obtain ⟨tags, hwrites, -⟩ := isMarkup_html isHarmless_of_mem_sanitize (hrendered _)
  have hread : readHtml (renderEvents events) = ⟨tags, .text⟩ := hwrites.read []
  refine ⟨?_, ?_, ?_⟩
  · rw [hread]
  · rw [hread]
    exact hwrites.count
  · rw [hread]
    exact hwrites.own

theorem render?_eq_ok_iff {limit : Nat} {text output : String} :
    render? limit text = .ok output ↔ refusal? limit text = none ∧ output = renderEvents (events text) := by
  rw [render?]
  split
  · rename_i hrefusal
    simp [hrefusal]
  · rename_i hrefusal
    simp [hrefusal, eq_comm]

/-- Sanitizing replaces raw HTML and addresses that run scripts in any stream of events, and changes
nothing else. What is rendered of a text is therefore safe. -/
theorem sanitizes_and_isSafe :
    (∀ events : List Event, List.Forall₂ Sanitizes events (sanitize events) ∧ ∀ event ∈ sanitize events, event.IsHarmless) ∧
      ∀ (limit : Nat) (text output : String), render? limit text = .ok output → IsSafe output := by
  refine ⟨fun events => ⟨?_, isHarmless_of_mem_sanitize⟩, fun limit text output h => ?_⟩
  · rw [sanitize, List.forall₂_map_right_iff, List.forall₂_same]
    exact fun event _ => sanitizes_sanitizeEvent event
  · obtain ⟨-, houtput⟩ := render?_eq_ok_iff.mp h
    rw [houtput]
    exact isSafe_renderEvents ((isDocument_events text).images none)

/-- A text with raw HTML and with links to scripts. -/
def scriptedText : String := "a <b> [c](javascript:d)\n\n<p>\n\n![e](data:f)\n"

theorem sanitizes_and_isSafe_scripted :
    render? 100 scriptedText = .ok "<p>a &lt;b&gt; <a href=\"#\">c</a></p>\n&lt;p&gt;\n<p><img src=\"#\" alt=\"e\" /></p>\n" ∧
      IsSafe "<p>a &lt;b&gt; <a href=\"#\">c</a></p>\n&lt;p&gt;\n<p><img src=\"#\" alt=\"e\" /></p>\n" := by
  have hrender : render? 100 scriptedText =
      .ok "<p>a &lt;b&gt; <a href=\"#\">c</a></p>\n&lt;p&gt;\n<p><img src=\"#\" alt=\"e\" /></p>\n" := by
    decide +kernel
  exact ⟨hrender, sanitizes_and_isSafe.2 100 scriptedText _ hrender⟩

end SchemaDocs.Markdown
