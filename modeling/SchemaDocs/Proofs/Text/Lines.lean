import SchemaDocs.Proofs.Text.Pieces
import SchemaDocs.Text.Blank
import Mathlib.Data.List.TakeWhile

/-!
# Lines of a text

A text is its lines joined by line feeds. Leaving out the white space in front of it leaves out its leading blank
lines and the indentation of the line that follows them.
-/

namespace SchemaDocs.Text

variable {text front back line first : List Char} {lines later : List (List Char)} {c : Char}

/-! ### White space in front -/

theorem trimStart_append_of_space (h : ∀ c ∈ front, isWhiteSpace c) (back : List Char) :
    trimStart (front ++ back) = trimStart back := List.dropWhile_append_of_pos h

theorem trimStart_suffix (text : List Char) : trimStart text <:+ text := List.dropWhile_suffix _

theorem trimStart_eq_nil_iff : trimStart text = [] ↔ ∀ c ∈ text, isWhiteSpace c := List.dropWhile_eq_nil_iff

theorem trimStart_append_of_ne_nil (h : trimStart front ≠ []) (back : List Char) :
    trimStart (front ++ back) = trimStart front ++ back := by
  rw [trimStart, List.dropWhile_append, ← trimStart, if_neg (by simpa using h)]

theorem trimStart_eq_self_iff : trimStart text = text ↔ ∀ c ∈ text.head?, isWhiteSpace c = false := by
  rw [trimStart, List.dropWhile_eq_self_iff]
  cases text <;> simp

theorem trimStart_trimStart (text : List Char) : trimStart (trimStart text) = trimStart text := by
  rw [trimStart_eq_self_iff]
  intro c hc
  have hhead := List.head?_dropWhile_not isWhiteSpace text
  rw [← trimStart, Option.mem_def.mp hc] at hhead
  exact hhead

theorem cons_suffix_trimStart (hc : isWhiteSpace c = false) (front back : List Char) :
    c :: back <:+ trimStart (front ++ c :: back) := by
  by_cases hfront : trimStart front = []
  · have hkept : trimStart (c :: back) = c :: back := trimStart_eq_self_iff.mpr fun d hd => Option.some.inj hd ▸ hc
    exact ⟨[], by rw [trimStart_append_of_space (trimStart_eq_nil_iff.mp hfront), hkept, List.nil_append]⟩
  · rw [trimStart_append_of_ne_nil hfront]
    exact List.suffix_append _ _

theorem trimEnd_prefix (text : List Char) : trimEnd text <+: text := by
  rw [trimEnd, ← List.reverse_suffix, List.reverse_reverse]
  exact trimStart_suffix _

/-! ### Lines -/

/-- What begins a text and does not hold the end of its first line begins that line. -/
theorem prefix_of_prefix_append_cons (hc : c ∉ front) (h : front <+: line ++ c :: back) : front <+: line := by
  rcases List.prefix_or_prefix_of_prefix h (List.prefix_append line _) with hline | ⟨tail, rfl⟩
  · exact hline
  · cases tail with
    | nil => exact ⟨[], by rw [List.append_nil, List.append_nil]⟩
    | cons d tail =>
      have hd : d = c := (List.cons_prefix_cons.mp ((List.prefix_append_right_inj line).mp h)).1
      exact absurd (List.mem_append_right line (hd ▸ List.mem_cons_self)) hc

def joinLines (lines : List (List Char)) : List Char := ['\n'].intercalate lines

theorem joinLines_cons (line : List Char) (later : List (List Char)) :
    joinLines (line :: later) = line ++ later.flatMap ('\n' :: ·) := by
  induction later generalizing line with
  | nil => rw [joinLines, List.intercalate_singleton, List.flatMap_nil, List.append_nil]
  | cons next later ih =>
    rw [joinLines, List.intercalate_cons_cons, ← joinLines, ih, List.flatMap_cons, List.append_assoc]
    rfl

private theorem joinLines_splitChars (text : List Char) :
    joinLines (splitChars '\n' text) = text := intercalate_splitChars '\n' text

def isBlank (line : List Char) : Bool := line.all isWhiteSpace

theorem isBlank_iff : isBlank line ↔ trimStart line = [] := by
  rw [isBlank, List.all_eq_true, trimStart_eq_nil_iff]

theorem trimStart_joinLines_cons (hfirst : isBlank first = false) (later : List (List Char)) :
    trimStart (joinLines (first :: later)) = joinLines (trimStart first :: later) := by
  have hne : trimStart first ≠ [] := fun hnil => Bool.false_ne_true (hfirst.symm.trans (isBlank_iff.mpr hnil))
  rw [joinLines_cons, trimStart_append_of_ne_nil hne, joinLines_cons]

private theorem trimStart_joinLines (lines : List (List Char)) :
    trimStart (joinLines lines) = trimStart (joinLines (lines.dropWhile isBlank)) := by
  induction lines with
  | nil => rfl
  | cons line later ih =>
    by_cases hline : isBlank line
    · have hspace : ∀ c ∈ line, isWhiteSpace c := List.all_eq_true.mp hline
      rw [List.dropWhile_cons_of_pos hline, ← ih]
      cases later with
      | nil =>
        have hnone := trimStart_append_of_space hspace []
        rw [List.append_nil] at hnone
        rw [joinLines, List.intercalate_singleton, hnone]
        rfl
      | cons next later =>
        have hend : ∀ c ∈ line ++ ['\n'], isWhiteSpace c :=
          List.forall_mem_append.mpr ⟨hspace, List.forall_mem_singleton.mpr (by decide)⟩
        rw [joinLines, List.intercalate_cons_cons, trimStart_append_of_space hend]
        rfl
    · rw [List.dropWhile_cons_of_neg hline]

/-- The lines of a text from the first one on that is not blank. -/
def textLines (text : List Char) : List (List Char) := (splitChars '\n' text).dropWhile isBlank

theorem trimStart_of_textLines (h : textLines text = first :: later) :
    trimStart text = joinLines (trimStart first :: later) := by
  have hfirst : isBlank first = false := by
    have hhead := List.head?_dropWhile_not isBlank (splitChars '\n' text)
    rw [← textLines, h] at hhead
    exact hhead
  rw [← trimStart_joinLines_cons hfirst, ← h, textLines, ← trimStart_joinLines, joinLines_splitChars]

theorem trimStart_of_textLines_nil (h : textLines text = []) : trimStart text = [] := by
  rw [← joinLines_splitChars text, trimStart_joinLines, ← textLines, h]
  rfl

theorem not_mem_of_mem_textLines (h : line ∈ textLines text) : '\n' ∉ line :=
  not_mem_of_mem_splitChars ((List.dropWhile_suffix _).subset h)

end SchemaDocs.Text
