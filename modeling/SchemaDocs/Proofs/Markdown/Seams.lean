import SchemaDocs.Markdown.BlockStructure
import SchemaDocs.Proofs.Markdown.Words

/-!
# Seams of plain text

Where two texts of a document meet in its plain text, there is a seam. A break, and the end of a paragraph, of a
heading and of an item put white space there. All other events leave the seam closed, which is right for running
content; but blocks begin silently, and most of them end so, and the texts on the two sides of such a boundary
become one.
-/

namespace SchemaDocs.Markdown

/-! ### Kinds of events -/

/-- An event carries text. -/
inductive Event.IsTextual : Event → Prop where
  | text (raw : String) : IsTextual (.text raw)
  | code (raw : String) : IsTextual (.code raw)
  | html (raw : String) : IsTextual (.html raw)
  | inlineHtml (raw : String) : IsTextual (.inlineHtml raw)

/-- Whether an element is a block that is set apart from what stands beside it. -/
def TagEnd.isBlock : TagEnd → Bool
  | .paragraph | .heading _ | .list _ | .item | .tableCell | .tableRow | .blockQuote | .codeBlock | .footnoteDefinition => true
  | _ => false

/-- Whether an event begins or ends a block, or is a break. -/
def Event.isBoundary : Event → Bool
  | .start tag => tag.closing.isBlock
  | .stop tag => tag.isBlock
  | .softBreak | .hardBreak => true
  | _ => false

/-- An event puts white space between the texts beside it. -/
inductive Event.IsParting : Event → Prop where
  | softBreak : IsParting .softBreak
  | hardBreak : IsParting .hardBreak
  | paragraph : IsParting (.stop .paragraph)
  | heading (level : Nat) : IsParting (.stop (.heading level))
  | item : IsParting (.stop .item)

variable {event : Event} {events front between back : List Event}

private theorem Event.IsParting.isBoundary (h : event.IsParting) : event.isBoundary := by cases h <;> rfl

theorem Event.IsParting.plain_eq (h : event.IsParting) : event.plain = " " := by cases h <;> rfl

/-- An event is silent if it carries no text and parts none. -/
structure Event.IsSilent (event : Event) : Prop where
  carriesNone : ¬ event.IsTextual
  partsNone : ¬ event.IsParting

theorem Event.IsSilent.plain_eq (h : event.IsSilent) : event.plain = "" := by
  unfold Event.plain
  split
  · exact absurd (.text _) h.carriesNone
  · exact absurd (.code _) h.carriesNone
  · exact absurd (.html _) h.carriesNone
  · exact absurd (.inlineHtml _) h.carriesNone
  · exact absurd .softBreak h.partsNone
  · exact absurd .hardBreak h.partsNone
  · exact absurd .paragraph h.partsNone
  · exact absurd (.heading _) h.partsNone
  · exact absurd .item h.partsNone
  · rfl

private theorem Event.isSilent_of_inner (htextual : ¬ event.IsTextual)
    (hinner : event.isBoundary = false) : event.IsSilent :=
  ⟨htextual, fun hparting => Bool.false_ne_true (hinner.symm.trans hparting.isBoundary)⟩

/-! ### Seams -/

theorem rawText_append (events more : List Event) : rawText (events ++ more) = rawText events ++ rawText more :=
  List.flatMap_append

theorem rawText_cons (event : Event) (events : List Event) :
    rawText (event :: events) = event.plain.toList ++ rawText events := List.flatMap_cons

private theorem rawText_of_isSilent (h : ∀ event ∈ events, event.IsSilent) : rawText events = [] :=
  List.flatMap_eq_nil_iff.mpr fun event hevent => by rw [(h event hevent).plain_eq, String.toList_empty]

private theorem plainText_append_of_isParting (h : event.IsParting) (left right : List Event) :
    plainText (left ++ event :: right) = spaced (plainText left) (plainText right) := by
  have hspace : rawText (left ++ event :: right) = rawText left ++ ' ' :: rawText right := by
    rw [rawText_append, rawText_cons, h.plain_eq]
    rfl
  rw [plainText_eq, hspace, words_append_space (by decide)]
  exact joinWords_append (fun _ => ne_nil_of_mem_wordsFrom) fun _ => ne_nil_of_mem_wordsFrom

private theorem plainText_of_isSilent (h : ∀ event ∈ between, event.IsSilent) (front back : List Event)
    (first last : Event) :
    plainText (front ++ first :: between ++ last :: back) =
      plainText (front ++ .text (first.plain ++ last.plain) :: back) := by
  have hraw : rawText (front ++ first :: between ++ last :: back) =
      rawText (front ++ .text (first.plain ++ last.plain) :: back) := by
    simp only [rawText_append, rawText_cons, rawText_of_isSilent h, Event.plain, String.toList_append, List.append_nil,
      List.append_assoc]
  rw [plainText_eq, hraw, plainText_eq]

/-- Between two texts, each break and each end of a paragraph, a heading or an item is a place where the plain text
has white space. Without one of these, and without another text, the two are joined as they are: so always within
running content, and also across the other boundaries of blocks. -/
theorem plainText_apart_or_joined (front between back : List Event) (first last : Event) :
    (∀ event ∈ between, event.IsParting → event.isBoundary ∧ ∃ left right, between = left ++ event :: right ∧
      plainText (front ++ first :: between ++ last :: back) =
        spaced (plainText (front ++ first :: left)) (plainText (right ++ last :: back))) ∧
      ((∀ event ∈ between, ¬ event.IsTextual ∧ ¬ event.IsParting) →
        plainText (front ++ first :: between ++ last :: back) =
          plainText (front ++ .text (first.plain ++ last.plain) :: back)) ∧
      ((∀ event ∈ between, ¬ event.IsTextual ∧ event.isBoundary = false) →
        plainText (front ++ first :: between ++ last :: back) =
          plainText (front ++ .text (first.plain ++ last.plain) :: back)) := by
  refine ⟨fun event hevent hparting => ⟨hparting.isBoundary, ?_⟩, fun h => ?_, fun h => ?_⟩
  · obtain ⟨left, right, rfl⟩ := List.append_of_mem hevent
    refine ⟨left, right, rfl, ?_⟩
    have hseam := plainText_append_of_isParting hparting (front ++ first :: left) (right ++ last :: back)
    simpa only [List.append_assoc, List.cons_append] using hseam
  · exact plainText_of_isSilent (fun event hevent => ⟨(h event hevent).1, (h event hevent).2⟩) front back first last
  · exact plainText_of_isSilent (fun event hevent => Event.isSilent_of_inner (h event hevent).1 (h event hevent).2)
      front back first last

/-- A line that goes on behind a break, a word with a part that is stressed, and two cells of a table. -/
theorem plainText_apart_or_joined_wrapped :
    (∃ left right, [Event.stop .strong, .softBreak] = left ++ .softBreak :: right ∧
      plainText ([.start .strong] ++ .text "un" :: [.stop .strong, .softBreak] ++ .text "done" :: []) =
        spaced (plainText ([.start .strong] ++ .text "un" :: left)) (plainText (right ++ .text "done" :: []))) ∧
      plainText ([.start .strong] ++ .text "un" :: [.stop .strong] ++ .text "done" :: []) =
        plainText ([.start .strong] ++ .text ("un" ++ "done") :: []) ∧
      plainText ([] ++ .text "un" :: [.stop .tableCell, .start .tableCell] ++ .text "done" :: []) =
        plainText ([] ++ .text ("un" ++ "done") :: []) := by
  obtain ⟨happart, -, -⟩ := plainText_apart_or_joined [.start .strong] [.stop .strong, .softBreak] [] (.text "un") (.text "done")
  obtain ⟨-, -, hinner⟩ := plainText_apart_or_joined [.start .strong] [.stop .strong] [] (.text "un") (.text "done")
  obtain ⟨-, hcells, -⟩ := plainText_apart_or_joined [] [.stop .tableCell, .start .tableCell] [] (.text "un") (.text "done")
  have hsilent : ∀ event ∈ [Event.stop .tableCell, .start .tableCell], ¬ event.IsTextual ∧ ¬ event.IsParting :=
    List.forall_mem_cons.mpr ⟨⟨nofun, nofun⟩, List.forall_mem_singleton.mpr ⟨nofun, nofun⟩⟩
  exact ⟨(happart .softBreak (List.mem_cons_of_mem _ List.mem_cons_self) .softBreak).2,
    hinner (List.forall_mem_singleton.mpr ⟨nofun, rfl⟩), hcells hsilent⟩

/-- A table with a head and a row. -/
def smallTable : String := "| a | b |\n|---|---|\n| c | d |\n"

/-- The cells of a table are parted by boundaries, and their words are one word. -/
theorem plainText_cells :
    ∃ front between back, Markdown.events smallTable = front ++ Event.text "a" :: between ++ Event.text "b" :: back ∧
      (∃ event ∈ between, Event.isBoundary event) ∧ plainText (Markdown.events smallTable) = "abcd".toList := by
  refine ⟨[.start (.table [.none, .none]), .start .tableHead, .start .tableCell], [.stop .tableCell, .start .tableCell],
    [.stop .tableCell, .stop .tableHead, .start .tableRow, .start .tableCell, .text "c", .stop .tableCell,
      .start .tableCell, .text "d", .stop .tableCell, .stop .tableRow, .stop .table], ?_, ?_, ?_⟩
  · decide +kernel
  · exact ⟨.stop .tableCell, List.mem_cons_self, rfl⟩
  · decide +kernel

end SchemaDocs.Markdown
