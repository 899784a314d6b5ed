import SchemaDocs.Proofs.Markdown.Words
import SchemaDocs.Proofs.Reference.Asked

/-!
# Calls of a renderer

A renderer is called for HTML, for summaries and for attempts at rendering, by several callers and in any
order. What it has kept cannot be told from its answers, which are those of a new renderer of its limit. It
can be told from its counts alone: both are the number of different texts that were to be kept.
-/

namespace SchemaDocs.Markdown

/-! ### Plain text -/

/-- There is more than white space in what a text says. -/
def HasPlainText (text : String) : Prop := ∃ event ∈ events text, ∃ c ∈ event.plain.toList, Text.isWhiteSpace c = false

private theorem plainText_eq_nil_iff {text : String} : plainText (events text) = [] ↔ ¬ HasPlainText text := by
  rw [plainText_eq, words, joinWords_eq_nil_iff fun part => ne_nil_of_mem_wordsFrom, wordsFrom_eq_nil_iff, rawText,
    HasPlainText]
  simp only [true_and, List.mem_flatMap]
  grind

theorem firstSentence_eq_nil_iff {text : List Char} : firstSentence text = [] ↔ text = [] := by
  cases text with
  | nil => exact iff_of_true rfl rfl
  | cons c rest =>
    simp only [firstSentence, sentence?]
    split_ifs
    · simp
    · cases sentence? rest <;> simp

namespace Renderer

/-! ### Calls -/

/-- A call of a renderer. -/
inductive Call where
  | render (text : String)
  | summary (text : String)
  | renderComment (comment : Option String)
  | summarizeComment (comment : Option String)
  /-- A rendering that says why a text is refused, and is not kept. -/
  | attempt (text : String)

/-- What a call gives. -/
inductive Answer where
  | text (text : String)
  | attempted (outcome : Except RenderError String)

namespace Call

variable {limit : Nat}

def apply : Call → StateM Renderer Answer
  | .render text => .text <$> Renderer.render text
  | .summary text => .text <$> Renderer.summary text
  | .renderComment comment => .text <$> Renderer.renderComment comment
  | .summarizeComment comment => .text <$> Renderer.summarizeComment comment
  | .attempt text => fun renderer => (.attempted (render? renderer.limit text), renderer)

/-- The text that is kept behind a call. -/
def text? : Call → Option String
  | .render text | .summary text => some text
  | .renderComment comment | .summarizeComment comment => comment
  | .attempt _ => none

def alone (limit : Nat) (call : Call) : Answer := (call.apply { limit }).1

theorem isDetermined (call : Call) : IsDetermined limit call.apply := by
  cases call with
  | render text => exact (IsDetermined.render text).map _
  | summary text => exact (IsDetermined.summarizeComment (some text)).map _
  | renderComment comment => exact (IsDetermined.renderComment comment).map _
  | summarizeComment comment => exact (IsDetermined.summarizeComment comment).map _
  | attempt text => exact ⟨_, fun _ h => ⟨congrArg (Answer.attempted <| render? · text) h.limit_eq, h⟩⟩

private theorem asks (call : Call) : Asks call.apply call.text?.toList := by
  cases call with
  | render text => exact (Asks.render text).map _
  | summary text => exact (Asks.summarizeComment (some text)).map _
  | renderComment comment => exact (Asks.renderComment comment).map _
  | summarizeComment comment => exact (Asks.summarizeComment comment).map _
  | attempt text => exact fun _ => rfl

private theorem alone_render (text : String) :
    alone limit (.render text) = .text ((render? limit text).toOption.getD "") := by
  have hfresh : alone limit (.render text) = .text (Rendered.ofText limit text).html := rfl
  rw [hfresh, Rendered.ofText, render?]
  cases refusal? limit text <;> rfl

private theorem alone_summary_eq_empty_iff (text : String) :
    alone limit (.summary text) = .text "" ↔ (∃ error, render? limit text = .error error) ∨ ¬ HasPlainText text := by
  have hfresh : alone limit (.summary text) = .text (Rendered.ofText limit text).summary := rfl
  rw [hfresh, Answer.text.injEq, Rendered.ofText, render?]
  cases refusal? limit text with
  | some error => simp
  | none =>
    rw [← plainText_eq_nil_iff]
    simp [String.ofList_eq_empty_iff, firstSentence_eq_nil_iff]

end Call

/-! ### Runs -/

def serve (calls : List Call) : StateM Renderer (List Answer) := calls.mapM Call.apply

variable {limit : Nat} {renderer : Renderer}

private theorem IsFaithful.serve (h : renderer.IsFaithful limit) (calls : List Call) :
    (Renderer.serve calls renderer).1 = calls.map (Call.alone limit) := by
  induction calls generalizing renderer with
  | nil => rfl
  | cons call calls ih =>
    obtain ⟨_, hcall⟩ := call.isDetermined
    have hstep : (Renderer.serve (call :: calls) renderer).1 =
        (call.apply renderer).1 :: (Renderer.serve calls (call.apply renderer).2).1 := by
      rw [Renderer.serve, List.mapM_cons]
      rfl
    rw [hstep, ih (hcall renderer h).2, call.isDetermined.eq_new h, List.map_cons, Call.alone]

private theorem asks_serve (calls : List Call) : Asks (serve calls) (calls.filterMap Call.text?) := by
  rw [List.filterMap_eq_flatMap_toList]
  exact Asks.mapM Call.asks calls

/-- What a renderer has kept cannot be told from its answers: each call is answered as if it were the first.
Rendering gives the HTML of an attempt, or nothing if that fails, and a summary is empty if the text is
refused or says nothing. Each text that is to be kept is rendered and kept once, a refused one like any other. -/
theorem serve_new (limit : Nat) (calls : List Call) :
    (serve calls { limit }).1 = calls.map (Call.alone limit) ∧
      (serve calls { limit }).2.cached = (calls.filterMap Call.text?).toFinset.card ∧
      (serve calls { limit }).2.renders = (calls.filterMap Call.text?).toFinset.card ∧
      ∀ text, ∃ outcome, Call.alone limit (.attempt text) = .attempted outcome ∧
        Call.alone limit (.render text) = .text (outcome.toOption.getD "") ∧
        (Call.alone limit (.summary text) = .text "" ↔ (∃ error, outcome = .error error) ∨ ¬ HasPlainText text) := by
  obtain ⟨hcached, hrenders⟩ := counts_asked { limit } (calls.filterMap Call.text?)
  rw [← asks_serve calls { limit }] at hcached hrenders
  refine ⟨(isFaithful_new limit).serve calls, ?_, ?_, fun text => ?_⟩
  · simpa [cached, kept] using hcached
  · simpa [kept] using hrenders
  · exact ⟨render? limit text, rfl, Call.alone_render text, Call.alone_summary_eq_empty_iff text⟩

end Renderer

end SchemaDocs.Markdown
