import SchemaDocs.Proofs.Markdown.Safety
import SchemaDocs.Proofs.Markdown.Sentences
import SchemaDocs.Proofs.Reference.Calls

/-!
# Summaries

The summary of a text is the first sentence of its plain text, and empty for a text that is refused. It is so
whatever the renderer was called for before.
-/

namespace SchemaDocs.Markdown

section Rendered

variable {limit : Nat} {text : String}

private theorem Rendered.ofText_of_ok {html : String} (h : render? limit text = .ok html) :
    Rendered.ofText limit text = ⟨html, String.ofList (firstSentence (plainText (events text)))⟩ := by
  obtain ⟨haccepted, rfl⟩ := render?_eq_ok_iff.mp h
  rw [Rendered.ofText, haccepted]

private theorem Rendered.ofText_of_error {error : RenderError} (h : render? limit text = .error error) :
    Rendered.ofText limit text = {} := by
  rw [render?] at h
  rw [Rendered.ofText]
  cases hrefusal : refusal? limit text with
  | some _ => rfl
  | none =>
    rw [hrefusal] at h
    cases h

end Rendered

namespace Renderer

variable {limit : Nat} {renderer : Renderer}

private theorem IsFaithful.of_serve (h : renderer.IsFaithful limit) (calls : List Call) :
    (Renderer.serve calls renderer).2.IsFaithful limit := by
  have hserve : IsDetermined limit (Renderer.serve calls) := IsDetermined.mapM Call.isDetermined calls
  obtain ⟨_, hanswers⟩ := hserve
  exact (hanswers renderer h).2

private theorem IsFaithful.summary (h : renderer.IsFaithful limit) (text : String) :
    (Renderer.summary text renderer).1 = (Rendered.ofText limit text).summary :=
  congrArg Rendered.summary (h.rendered text).1

/-- After any calls, the summary of a text that can be rendered is the first sentence of its plain text, whose
white space is single spaces between words; that of a refused text is empty. -/
theorem summary_isFirstSentence (limit : Nat) (calls : List Call) (text : String) :
    (∀ html, render? limit text = .ok html →
      IsCollapsed (plainText (events text)) ∧
        IsFirstSentence (plainText (events text)) (summary text (serve calls { limit }).2).1.toList) ∧
      ∀ error, render? limit text = .error error → (summary text (serve calls { limit }).2).1 = "" := by
  have hfaithful : (serve calls { limit }).2.IsFaithful limit := (isFaithful_new limit).of_serve calls
  rw [hfaithful.summary text]
  refine ⟨fun html hok => ?_, fun error herror => ?_⟩
  · have hcollapsed := isCollapsed_plainText (events text)
    rw [Rendered.ofText_of_ok hok, String.toList_ofList]
    exact ⟨hcollapsed, hcollapsed.isFirstSentence⟩
  · rw [Rendered.ofText_of_error herror]

/-- A number within a word ends no sentence, and the limit applies to the summary as it does to the text. -/
theorem summary_isFirstSentence_dotted :
    ∃ html, render? 40 "A *user*\n account. Holds v1.2 keys." = .ok html ∧
      IsFirstSentence "A user account. Holds v1.2 keys.".toList "A user account.".toList ∧
      (summary "Too long." (serve [.render "A"] { limit := 4 }).2).1 = "" := by
  have hplain : plainText (events "A *user*\n account. Holds v1.2 keys.") = "A user account. Holds v1.2 keys.".toList := by
    decide +kernel
  have hsummary : (summary "A *user*\n account. Holds v1.2 keys." (serve [] { limit := 40 }).2).1 = "A user account." := by
    decide +kernel
  have hfirst := (summary_isFirstSentence 40 [] "A *user*\n account. Holds v1.2 keys.").1 _ rfl
  rw [hplain, hsummary] at hfirst
  exact ⟨_, rfl, hfirst.2, (summary_isFirstSentence 4 [.render "A"] "Too long.").2 (.tooLarge 9 4) (by decide)⟩

end Renderer

end SchemaDocs.Markdown
