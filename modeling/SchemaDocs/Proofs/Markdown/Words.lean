import SchemaDocs.Markdown.PlainText
import SchemaDocs.Proofs.Text.Pieces
import Mathlib.Data.List.Chain
import Mathlib.Tactic.SplitIfs

/-!
# Words

The words of a text are what stands between its white space. White space parts the words before it from those
behind it, and nothing else does. Plain text is words with single spaces between them, so that it has white space
nowhere else.
-/

namespace SchemaDocs.Markdown

variable {word text part left right : List Char} {parts front back : List (List Char)} {c : Char}

/-! ### Dividing a text into words -/

theorem wordsFrom_eq_nil_iff : wordsFrom word text = [] ↔ word = [] ∧ ∀ c ∈ text, Text.isWhiteSpace c := by
  induction text generalizing word with
  | nil => cases word <;> simp [wordsFrom]
  | cons c rest ih =>
    rw [wordsFrom, List.forall_mem_cons]
    by_cases hspace : Text.isWhiteSpace c
    · cases word with
      | nil => simp [hspace, ih]
      | cons d word => simp [hspace]
    · simp [hspace, ih]

theorem ne_nil_of_mem_wordsFrom (h : part ∈ wordsFrom word text) : part ≠ [] := by
  induction text generalizing word with
  | nil =>
    cases word with
    | nil => cases h
    | cons c word =>
      rw [List.mem_singleton.mp h]
      exact List.reverse_ne_nil_iff.mpr (List.cons_ne_nil _ _)
  | cons c rest ih =>
    rw [wordsFrom] at h
    split at h
    · cases word with
      | nil => exact ih h
      | cons d word =>
        rcases List.mem_cons.mp h with rfl | h
        · exact List.reverse_ne_nil_iff.mpr (List.cons_ne_nil _ _)
        · exact ih h
    · exact ih h

/-- A text of other characters than white space, of which a word consists. -/
def IsUnspaced (text : List Char) : Prop := ∀ c ∈ text, Text.isWhiteSpace c = false

theorem isUnspaced_nil : IsUnspaced [] := fun _ hc => absurd hc List.not_mem_nil

private theorem isUnspaced_of_mem_wordsFrom (hword : IsUnspaced word) (h : part ∈ wordsFrom word text) :
    IsUnspaced part := by
  have hreverse : IsUnspaced word.reverse := fun c hc => hword c (List.mem_reverse.mp hc)
  induction text generalizing word with
  | nil =>
    cases word with
    | nil => cases h
    | cons c word => exact List.mem_singleton.mp h ▸ hreverse
  | cons c rest ih =>
    rw [wordsFrom] at h
    split at h
    · cases word with
      | nil => exact ih isUnspaced_nil h isUnspaced_nil
      | cons d word =>
        rcases List.mem_cons.mp h with rfl | h
        · exact hreverse
        · exact ih isUnspaced_nil h isUnspaced_nil
    · rename_i hc
      have hlonger : IsUnspaced (c :: word) := List.forall_mem_cons.mpr ⟨Bool.not_eq_true _ ▸ hc, hword⟩
      exact ih hlonger h fun d hd => hlonger d (List.mem_reverse.mp hd)

private theorem wordsFrom_append_space (hc : Text.isWhiteSpace c) (word left right : List Char) :
    wordsFrom word (left ++ c :: right) = wordsFrom word left ++ words right := by
  induction left generalizing word with
  | nil => cases word <;> simp [wordsFrom, words, hc]
  | cons d left ih =>
    rw [List.cons_append, wordsFrom, wordsFrom]
    by_cases hd : Text.isWhiteSpace d
    · cases word with
      | nil => simp only [hd, if_true, List.isEmpty_nil, ih]
      | cons e word => simp only [hd, if_true, List.isEmpty_cons, Bool.false_eq_true, if_false, ih, List.cons_append]
    · simp only [hd, Bool.false_eq_true, if_false, ih]

theorem words_append_space (hc : Text.isWhiteSpace c) (left right : List Char) :
    words (left ++ c :: right) = words left ++ words right := wordsFrom_append_space hc [] left right

theorem words_nil : words [] = [] := rfl

theorem words_blank_append (hblank : ∀ c ∈ left, Text.isWhiteSpace c) : words (left ++ right) = words right := by
  induction left with
  | nil => rw [List.nil_append]
  | cons c left ih =>
    obtain ⟨hc, hblank⟩ := List.forall_mem_cons.mp hblank
    rw [List.cons_append, ← ih hblank]
    exact words_append_space hc [] (left ++ right)

/-- White space of any length sets the words on its two sides apart. -/
theorem words_append_blank {blank : List Char} (hne : blank ≠ []) (hblank : ∀ c ∈ blank, Text.isWhiteSpace c)
    (left right : List Char) : words (left ++ (blank ++ right)) = words left ++ words right := by
  obtain ⟨c, rest, rfl⟩ := List.exists_cons_of_ne_nil hne
  obtain ⟨hc, hrest⟩ := List.forall_mem_cons.mp hblank
  rw [List.cons_append, words_append_space hc, words_blank_append hrest]

private theorem flatten_wordsFrom (word text : List Char) :
    (wordsFrom word text).flatten = word.reverse ++ text.filter fun c => !Text.isWhiteSpace c := by
  induction text generalizing word with
  | nil => cases word <;> simp [wordsFrom]
  | cons c rest ih =>
    rw [wordsFrom]
    by_cases hspace : Text.isWhiteSpace c
    · cases word <;> simp [hspace, ih]
    · simp [hspace, ih]

theorem flatten_words (text : List Char) : (words text).flatten = text.filter fun c => !Text.isWhiteSpace c :=
  flatten_wordsFrom [] text

/-! ### Where texts meet -/

/-- Two texts meet within a word: neither has white space where the one ends and the other begins. -/
def MeetInWord (left right : List Char) : Prop :=
  ∃ front c d back, left = front ++ [c] ∧ right = d :: back ∧ Text.isWhiteSpace c = false ∧ Text.isWhiteSpace d = false

theorem MeetInWord.of_append (h : MeetInWord left right) (front : List Char) : MeetInWord (front ++ left) right := by
  obtain ⟨kept, c, d, back, rfl, hright, hspaces⟩ := h
  exact ⟨front ++ kept, c, d, back, (List.append_assoc _ _ _).symm, hright, hspaces⟩

/-- Texts that do not meet within a word have their words one behind the other. -/
theorem words_append_of_not_meetInWord (h : ¬ MeetInWord left right) :
    words (left ++ right) = words left ++ words right := by
  rcases left.eq_nil_or_concat' with rfl | ⟨front, c, rfl⟩
  · rfl
  cases right with
  | nil => rw [List.append_nil, words_nil, List.append_nil]
  | cons d back =>
    by_cases hc : Text.isWhiteSpace c
    · have hfront : words (front ++ [c]) = words front := by
        rw [words_append_space hc, words_nil, List.append_nil]
      rw [hfront, List.append_assoc, List.singleton_append, words_append_space hc]
    · have hd : Text.isWhiteSpace d := by
        by_contra hd
        exact h ⟨front, c, d, back, rfl, rfl, Bool.not_eq_true _ ▸ hc, Bool.not_eq_true _ ▸ hd⟩
      have hback : words (d :: back) = words back := words_append_space hd [] back
      rw [words_append_space hd, hback]

private theorem exists_wordsFrom (right : List Char) :
    ∃ tail back, ∀ word, word ≠ [] → wordsFrom word right = (word.reverse ++ tail) :: back := by
  induction right with
  | nil =>
    refine ⟨[], [], fun word hne => ?_⟩
    rw [wordsFrom, if_neg (List.isEmpty_iff.not.mpr hne), List.append_nil]
  | cons c right ih =>
    by_cases hc : Text.isWhiteSpace c
    · refine ⟨[], words right, fun word hne => ?_⟩
      rw [wordsFrom, if_pos hc, if_neg (List.isEmpty_iff.not.mpr hne), List.append_nil]
      rfl
    · obtain ⟨tail, back, hright⟩ := ih
      refine ⟨c :: tail, back, fun word _ => ?_⟩
      rw [wordsFrom, if_neg hc, hright (c :: word) (List.cons_ne_nil _ _), List.reverse_cons, List.append_assoc]
      rfl

private theorem exists_wordsFrom_append (hc : Text.isWhiteSpace c = false) (word left : List Char) :
    ∃ front progress, progress ≠ [] ∧ ∀ right, wordsFrom word (left ++ c :: right) = front ++ wordsFrom progress right := by
  induction left generalizing word with
  | nil =>
    refine ⟨[], c :: word, List.cons_ne_nil _ _, fun right => ?_⟩
    rw [List.nil_append, wordsFrom, hc, if_neg Bool.false_ne_true, List.nil_append]
  | cons d left ih =>
    by_cases hd : Text.isWhiteSpace d
    · obtain ⟨front, progress, hne, hleft⟩ := ih []
      cases word with
      | nil =>
        refine ⟨front, progress, hne, fun right => ?_⟩
        rw [List.cons_append, wordsFrom, if_pos hd, if_pos List.isEmpty_nil, hleft]
      | cons e word =>
        refine ⟨(e :: word).reverse :: front, progress, hne, fun right => ?_⟩
        rw [List.cons_append, wordsFrom, if_pos hd, List.isEmpty_cons, if_neg Bool.false_ne_true, hleft, List.cons_append]
    · obtain ⟨front, progress, hne, hleft⟩ := ih (d :: word)
      refine ⟨front, progress, hne, fun right => ?_⟩
      rw [List.cons_append, wordsFrom, if_neg hd, hleft]

/-- Where two texts meet within a word, the last word of the one and the first of the other are one word. -/
theorem words_append_of_meetInWord (h : MeetInWord left right) :
    ∃ front last first back, words left = front ++ [last] ∧ words right = first :: back ∧ first ≠ [] ∧
      words (left ++ right) = front ++ (last ++ first) :: back := by
  obtain ⟨kept, c, d, rest, rfl, rfl, hc, hd⟩ := h
  obtain ⟨front, progress, hne, hleft⟩ := exists_wordsFrom_append hc [] kept
  obtain ⟨tail, back, hright⟩ := exists_wordsFrom rest
  have hstep (word : List Char) : wordsFrom word (d :: rest) = (word.reverse ++ d :: tail) :: back := by
    rw [wordsFrom, hd, if_neg Bool.false_ne_true, hright _ (List.cons_ne_nil _ _), List.reverse_cons, List.append_assoc]
    rfl
  refine ⟨front, progress.reverse, d :: tail, back, ?_, hstep [], List.cons_ne_nil _ _, ?_⟩
  · rw [words, hleft, wordsFrom, if_neg (List.isEmpty_iff.not.mpr hne)]
  · rw [List.append_assoc, List.singleton_append, words, hleft, hstep]

/-- Words that say what the first text says are not the first ones of two texts that meet within a word: the word
that goes on stands across their end. -/
theorem words_append_ne_of_meetInWord (h : MeetInWord left right) (hfront : front.flatten = (words left).flatten) :
    words (left ++ right) ≠ front ++ back := by
  obtain ⟨before, last, first, after, hleft, -, hfirst, hwords⟩ := words_append_of_meetInWord h
  have hlast : last ≠ [] := ne_nil_of_mem_wordsFrom (hleft ▸ List.mem_append_right _ List.mem_cons_self)
  rw [hleft, List.flatten_append, List.flatten_singleton] at hfront
  rw [hwords]
  intro hsame
  rcases List.append_eq_append_iff.mp hsame with ⟨more, rfl, hmore⟩ | ⟨more, rfl, -⟩
  · rw [List.flatten_append, List.append_cancel_left_eq] at hfront
    cases more with
    | nil => exact hlast hfront.symm
    | cons word more =>
      obtain ⟨rfl, -⟩ := List.cons.inj hmore
      rw [List.flatten_cons, List.append_assoc, List.append_right_eq_self, List.append_eq_nil_iff] at hfront
      exact hfirst hfront.1
  · rw [List.flatten_append, List.append_assoc, List.self_eq_append_right, List.append_eq_nil_iff] at hfront
    exact hlast hfront.2

/-! ### Joining words -/

def joinWords (parts : List (List Char)) : List Char := [' '].intercalate parts

theorem joinWords_eq_nil_iff (hparts : ∀ part ∈ parts, part ≠ []) : joinWords parts = [] ↔ parts = [] := by
  cases parts with
  | nil => simp [joinWords]
  | cons part parts => cases parts <;> simp [joinWords, List.intercalate, hparts part List.mem_cons_self]

def spaced (left right : List Char) : List Char :=
  if left = [] then right else if right = [] then left else left ++ ' ' :: right

theorem joinWords_append (hfront : ∀ part ∈ front, part ≠ []) (hback : ∀ part ∈ back, part ≠ []) :
    joinWords (front ++ back) = spaced (joinWords front) (joinWords back) := by
  simp only [spaced, joinWords_eq_nil_iff hfront, joinWords_eq_nil_iff hback]
  split_ifs with hno hnone
  · rw [hno, List.nil_append]
  · rw [hnone, List.append_nil]
  · rw [joinWords, Text.intercalate_append hno hnone, List.append_assoc]
    rfl

/-! ### Collapsed text -/

/-- The white space of a text is single spaces between other characters. -/
structure IsCollapsed (text : List Char) : Prop where
  space : ∀ c ∈ text, Text.isWhiteSpace c → c = ' '
  single : text.IsChain fun c next => c = ' ' → next ≠ ' '
  start : text.head? ≠ some ' '
  last : text.getLast? ≠ some ' '

theorem IsUnspaced.not_mem (h : IsUnspaced text) : ' ' ∉ text := fun hmem => absurd (h ' ' hmem) (by decide)

private theorem IsUnspaced.isCollapsed (h : IsUnspaced text) : IsCollapsed text where
  space c hc hspace := absurd hspace (Bool.not_eq_true _ ▸ h c hc)
  single := by
    refine List.isChain_iff_forall_rel_of_append_cons_cons.mpr fun c next front back htext hc => ?_
    exact absurd (htext ▸ List.mem_append_right front List.mem_cons_self) (hc ▸ h.not_mem)
  start hstart := h.not_mem (List.mem_of_mem_head? hstart)
  last hlast := h.not_mem (List.mem_of_mem_getLast? hlast)

private theorem IsCollapsed.cons (hword : IsUnspaced word) (hne : word ≠ []) (h : IsCollapsed text)
    (htext : text ≠ []) :
    IsCollapsed (word ++ ' ' :: text) := by
  have hcollapsed := hword.isCollapsed
  refine ⟨fun c hc hspace => ?_, List.isChain_append.mpr ⟨hcollapsed.single, ?_, ?_⟩, ?_, ?_⟩
  · rcases List.mem_append.mp hc with hc | hc
    · exact hcollapsed.space c hc hspace
    · rcases List.mem_cons.mp hc with hc | hc
      · exact hc
      · exact h.space c hc hspace
  · refine List.isChain_cons.mpr ⟨fun next hnext _ heq => h.start (heq ▸ hnext), h.single⟩
  · exact fun c hc _ _ heq => absurd (List.mem_of_mem_getLast? hc) (heq ▸ hword.not_mem)
  · rw [List.head?_append_of_ne_nil word hne]
    exact hcollapsed.start
  · rw [List.getLast?_append_of_ne_nil word (List.cons_ne_nil _ _), List.getLast?_cons_of_ne_nil htext]
    exact h.last

private theorem isCollapsed_joinWords (hparts : ∀ part ∈ parts, part ≠ [] ∧ IsUnspaced part) :
    IsCollapsed (joinWords parts) := by
  induction parts with
  | nil => exact isUnspaced_nil.isCollapsed
  | cons part parts ih =>
    obtain ⟨⟨hne, hpart⟩, hparts⟩ := List.forall_mem_cons.mp hparts
    cases parts with
    | nil =>
      rw [joinWords, List.intercalate_singleton]
      exact hpart.isCollapsed
    | cons next parts =>
      rw [joinWords, List.intercalate_cons_cons, List.append_assoc]
      refine .cons hpart hne (ih hparts) fun hnil => ?_
      exact List.cons_ne_nil _ _ ((joinWords_eq_nil_iff fun part hmem => (hparts part hmem).1).mp hnil)

/-! ### Plain text -/

/-- What the events say, as it is written. -/
def rawText (events : List Event) : List Char := events.flatMap fun event => event.plain.toList

theorem plainText_eq (events : List Event) : plainText events = joinWords (words (rawText events)) := rfl

theorem isCollapsed_plainText (events : List Event) : IsCollapsed (plainText events) :=
  isCollapsed_joinWords fun _ hpart => ⟨ne_nil_of_mem_wordsFrom hpart, isUnspaced_of_mem_wordsFrom isUnspaced_nil hpart⟩

end SchemaDocs.Markdown
