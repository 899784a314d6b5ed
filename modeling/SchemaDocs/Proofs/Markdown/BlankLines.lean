import SchemaDocs.Markdown.BlockStructure
import SchemaDocs.Text.Blank

/-!
# Blank lines before a document

A document means the same with blank lines in front of it. As long as nothing is open, a blank line leaves no trace
but the note that it was there, and whatever begins behind it outside all lists takes the note back.
-/

namespace SchemaDocs.Markdown

variable {text rest : List Char} {line : Line} {lines later : List Line}

private theorem isWhiteSpace_of_isLineBlank {c : Char} (h : isLineBlank c) : Text.isWhiteSpace c := by
  simp only [isLineBlank, Bool.or_eq_true, decide_eq_true_eq] at h
  rcases h with ((rfl | rfl) | rfl) | rfl <;> decide

private theorem isWhiteSpace_of_isLineEnd {c : Char} (h : isLineEnd c) : Text.isWhiteSpace c := by
  simp only [isLineEnd, Bool.or_eq_true, decide_eq_true_eq] at h
  rcases h with rfl | rfl <;> decide

/-! ### Lines of a text -/

theorem splitLines_eq_nil_iff : splitLines text = [] ↔ text = [] := by
  refine ⟨fun h => ?_, fun h => h ▸ rfl⟩
  induction text using splitLines.induct with
  | case1 => rfl
  | case2 rest _ => cases h
  | case3 c rest hnot hend _ =>
    rw [splitLines, if_pos hend] at h
    · cases h
    · exact hnot
  | case4 c rest hnot hend _ =>
    rw [splitLines, if_neg hend] at h
    · cases hrest : splitLines rest <;> rw [hrest] at h <;> cases h
    · exact hnot

private theorem exists_of_splitLines (h : splitLines text = line :: later) :
    ∃ rest, text = line.text ++ line.ending ++ rest ∧ splitLines rest = later ∧ ∀ c ∈ line.ending, isLineEnd c := by
  induction text using splitLines.induct generalizing line later with
  | case1 => cases h
  | case2 rest _ =>
    obtain ⟨rfl, rfl⟩ := List.cons.inj h
    exact ⟨rest, rfl, rfl, by decide⟩
  | case3 c rest hnot hend _ =>
    rw [splitLines, if_pos hend] at h
    · obtain ⟨rfl, rfl⟩ := List.cons.inj h
      exact ⟨rest, rfl, rfl, List.forall_mem_singleton.mpr hend⟩
    · exact hnot
  | case4 c rest hnot hend ih =>
    rw [splitLines, if_neg hend] at h
    · cases hrest : splitLines rest with
      | nil =>
        rw [hrest] at h
        obtain ⟨rfl, rfl⟩ := List.cons.inj h
        exact ⟨rest, rfl, hrest, nofun⟩
      | cons next others =>
        rw [hrest] at h
        obtain ⟨rfl, rfl⟩ := List.cons.inj h
        obtain ⟨behind, rfl, hbehind⟩ := ih hrest
        exact ⟨behind, rfl, hbehind⟩
    · exact hnot

def Line.isBlank (line : Line) : Bool := isBlankRest line.text

def Line.written (line : Line) : List Char := line.text ++ line.ending

private theorem flatMap_splitLines (text : List Char) : (splitLines text).flatMap Line.written = text := by
  generalize hlines : splitLines text = lines
  induction lines generalizing text with
  | nil => exact (splitLines_eq_nil_iff.mp hlines).symm
  | cons line later ih =>
    obtain ⟨rest, rfl, hrest, -⟩ := exists_of_splitLines hlines
    rw [List.flatMap_cons, ih rest hrest]
    rfl

/-- The text without its leading blank lines. -/
def dropBlankLines (text : List Char) : List Char := ((splitLines text).dropWhile Line.isBlank).flatMap Line.written

private theorem splitLines_dropBlankLines (text : List Char) :
    splitLines (dropBlankLines text) = (splitLines text).dropWhile Line.isBlank := by
  rw [dropBlankLines]
  generalize hlines : splitLines text = lines
  induction lines generalizing text with
  | nil => rfl
  | cons line later ih =>
    obtain ⟨rest, -, hrest, -⟩ := exists_of_splitLines hlines
    by_cases hline : line.isBlank
    · rw [List.dropWhile_cons_of_pos hline]
      exact ih rest hrest
    · rw [List.dropWhile_cons_of_neg hline, ← hlines, flatMap_splitLines]

/-- The blank lines in front of a text are white space. -/
theorem exists_blank_append (text : List Char) :
    ∃ front, text = front ++ dropBlankLines text ∧ ∀ c ∈ front, Text.isWhiteSpace c := by
  rw [dropBlankLines]
  generalize hlines : splitLines text = lines
  induction lines generalizing text with
  | nil => exact ⟨[], splitLines_eq_nil_iff.mp hlines, nofun⟩
  | cons line later ih =>
    by_cases hline : line.isBlank
    · obtain ⟨rest, rfl, hrest, hending⟩ := exists_of_splitLines hlines
      obtain ⟨front, hfront, hspace⟩ := ih rest hrest
      rw [List.dropWhile_cons_of_pos hline]
      refine ⟨line.text ++ line.ending ++ front, ?_, List.forall_mem_append.mpr ⟨List.forall_mem_append.mpr ⟨?_, ?_⟩, hspace⟩⟩
      · rw [List.append_assoc _ front, ← hfront]
      · exact fun c hc => isWhiteSpace_of_isLineBlank (List.all_eq_true.mp hline c hc)
      · exact fun c hc => isWhiteSpace_of_isLineEnd (hending c hc)
    · rw [List.dropWhile_cons_of_neg hline, ← hlines, flatMap_splitLines]
      exact ⟨[], rfl, nofun⟩

/-! ### Passing blank lines -/

namespace Cursor

private theorem passBlanks_suffix (column : Nat) (rest : List Char) (wanted : Nat) :
    (passBlanks column rest wanted).1.rest <:+ rest := by
  fun_induction passBlanks column rest wanted with
  | case1 column rest wanted ih => exact ih.trans (List.suffix_cons _ _)
  | case2 column rest wanted width hwidth => exact List.suffix_cons _ _
  | case3 column rest wanted width hwidth ih => exact ih.trans (List.suffix_cons _ _)
  | case4 column rest wanted => exact List.suffix_rfl

private theorem passUpTo_suffix (cursor : Cursor) (wanted : Nat) : (cursor.passUpTo wanted).1.rest <:+ cursor.rest := by
  have hpass : (cursor.passUpTo wanted).1 = (cursor.pass wanted).1 := rfl
  rw [hpass, pass]
  split
  · exact List.suffix_rfl
  · exact passBlanks_suffix _ _ _

end Cursor

private theorem isBlankRest_of_suffix (h : rest <:+ text) (hblank : isBlankRest text) : isBlankRest rest :=
  List.all_eq_true.mpr fun c hc => List.all_eq_true.mp hblank c (h.subset hc)

private theorem begins_none_of_isBlankRest (h : isBlankRest text) :
    footnoteLabel? text = none ∧ isThematicBreak text = false ∧ marker? text = none ∧
      ∀ column spare, Cursor.passQuoteMark? ⟨text, column, spare⟩ = none := by
  cases text with
  | nil => exact ⟨rfl, rfl, rfl, fun _ _ => rfl⟩
  | cons c rest =>
    have hc : isLineBlank c := List.all_eq_true.mp h c List.mem_cons_self
    simp only [isLineBlank, Bool.or_eq_true, decide_eq_true_eq] at hc
    rcases hc with ((rfl | rfl) | rfl) | rfl <;> exact ⟨rfl, rfl, rfl, fun _ _ => rfl⟩

namespace Structure

/-- Nothing is open and nothing is read, but there may have been a blank line. -/
def awaiting (blankBefore : Bool) : Structure := { blankBefore }

private theorem finishList_awaiting (blankBefore : Bool) : (awaiting blankBefore).finishList = awaiting false := by
  cases blankBefore <;> rfl

private theorem continueList_awaiting (blankBefore : Bool) (delimiter : Char) (number : Nat) :
    (awaiting blankBefore).continueList delimiter number = (awaiting false).continueList delimiter number := by
  cases blankBefore <;> rfl

private theorem beginLeaf_awaiting (blankBefore : Bool) (line : Line) (cursor : Cursor) (later : List Line) :
    (awaiting blankBefore).beginLeaf line cursor later = (awaiting false).beginLeaf line cursor later := by
  simp only [beginLeaf, finishList_awaiting]

/-- What a line with text begins does not depend on a blank line before it. -/
theorem openContainers_awaiting (blankBefore : Bool) (line : Line) (later : List Line) (fuel : Nat) (cursor : Cursor)
    (htext : isBlankRest cursor.rest = false) :
    openContainers line later (fuel + 1) (awaiting blankBefore) cursor =
      openContainers line later (fuel + 1) (awaiting false) cursor := by
  -- each branch for text takes the note back, as it ends the lists or goes on with one
  have hfootnotes : (awaiting blankBefore).footnotes = (awaiting false).footnotes := rfl
  simp only [openContainers, beginLeaf_awaiting blankBefore, finishList_awaiting,
    continueList_awaiting blankBefore, hfootnotes, htext, Bool.false_eq_true, if_false]

private theorem openContainers_of_isBlankRest (s : Structure) (line : Line) (later : List Line) (fuel : Nat)
    (cursor : Cursor)
    (hblank : isBlankRest cursor.rest) : openContainers line later (fuel + 1) s cursor = s.blankLine := by
  obtain ⟨hfootnote, hbreak, hmarker, hquote⟩ :=
    begins_none_of_isBlankRest (isBlankRest_of_suffix (cursor.passUpTo_suffix 4) hblank)
  rw [openContainers]
  simp only [hblank, if_true, hfootnote, hbreak, hmarker, Bool.false_eq_true, hquote _ _, ite_self]

/-! ### Taking lines -/

private theorem continueLeaf_awaiting (blankBefore : Bool) (line : Line) (later : List Line) :
    (awaiting blankBefore).continueLeaf line later =
      openContainers line later (line.text.length + 1) (awaiting blankBefore) (.ofText line.text) := rfl

theorem takeLines_awaiting_cons (blankBefore : Bool) (line : Line) (later : List Line) :
    takeLines (awaiting blankBefore) (line :: later) =
      takeLines (openContainers line later (line.text.length + 1) (awaiting blankBefore) (.ofText line.text)) later := by
  rw [takeLines, ← continueLeaf_awaiting]
  rfl

private theorem takeLines_of_isBlank (hline : line.isBlank) (blankBefore : Bool) (later : List Line) :
    takeLines (awaiting blankBefore) (line :: later) = takeLines (awaiting true) later := by
  rw [takeLines_awaiting_cons, openContainers_of_isBlankRest _ _ _ _ (.ofText line.text) hline]
  rfl

private theorem takeLines_of_not_isBlank (hline : line.isBlank = false) (blankBefore : Bool) (later : List Line) :
    takeLines (awaiting blankBefore) (line :: later) = takeLines (awaiting false) (line :: later) := by
  rw [takeLines_awaiting_cons, openContainers_awaiting _ _ _ _ (.ofText line.text) hline,
    ← takeLines_awaiting_cons]

private theorem exists_takeLines_dropWhile (blankBefore : Bool) (lines : List Line) :
    ∃ noted, takeLines (awaiting blankBefore) lines = takeLines (awaiting noted) (lines.dropWhile Line.isBlank) := by
  induction lines generalizing blankBefore with
  | nil => exact ⟨blankBefore, rfl⟩
  | cons line later ih =>
    by_cases hline : line.isBlank
    · rw [takeLines_of_isBlank hline, List.dropWhile_cons_of_pos hline]
      exact ih true
    · rw [List.dropWhile_cons_of_neg hline]
      exact ⟨blankBefore, rfl⟩

end Structure

private theorem blocks_dropBlankLines (text : String) :
    blocks (String.ofList (dropBlankLines text.toList)) = blocks text := by
  obtain ⟨noted, htaken⟩ := Structure.exists_takeLines_dropWhile false (splitLines text.toList)
  have hstart : Structure.takeLines {} (splitLines text.toList) =
      Structure.takeLines (.awaiting noted) ((splitLines text.toList).dropWhile Line.isBlank) := htaken
  rw [blocks, blocks, String.toList_ofList, Structure.ofText, Structure.ofText, splitLines_dropBlankLines, hstart]
  cases hlines : (splitLines text.toList).dropWhile Line.isBlank with
  | nil => rfl
  | cons line later =>
    have hline : line.isBlank = false := by
      have hhead := List.head?_dropWhile_not Line.isBlank (splitLines text.toList)
      rw [hlines] at hhead
      exact hhead
    rw [Structure.takeLines_of_not_isBlank hline]
    rfl

theorem events_dropBlankLines (text : String) : events (String.ofList (dropBlankLines text.toList)) = events text := by
  rw [events, events, blocks_dropBlankLines]

end SchemaDocs.Markdown
