import SchemaDocs.Proofs.Markdown.Words

/-!
# First sentences

A sentence ends at the first terminator with a gap behind it: white space, or the end of the text. A terminator
within a word ends nothing. In collapsed text the gap is a single space, so that the first sentence and what is
left of the text meet at one, and the first sentence is its own first sentence.
-/

namespace SchemaDocs.Markdown

variable {text sentence rest : List Char} {c : Char}

/-! ### Where a sentence ends -/

/-- A sentence ends at a character with the rest of the text behind it. -/
structure Ends (c : Char) (rest : List Char) : Prop where
  terminator : endsSentence c
  gap : ∀ next ∈ rest.head?, Text.isWhiteSpace next

theorem ends_nil (h : endsSentence c) : Ends c [] := ⟨h, nofun⟩

private theorem ends_space (h : endsSentence c) (rest : List Char) : Ends c (' ' :: rest) :=
  ⟨h, fun _ hnext => Option.some.inj hnext ▸ by decide⟩

theorem ends_iff :
    (endsSentence c && (match rest with
      | [] => true
      | next :: _ => Text.isWhiteSpace next)) = true ↔ Ends c rest := by
  rw [Bool.and_eq_true]
  cases rest with
  | nil => exact ⟨fun h => ends_nil h.1, fun h => ⟨h.terminator, rfl⟩⟩
  | cons next rest =>
    exact ⟨fun h => ⟨h.1, fun _ hnext => Option.some.inj hnext ▸ h.2⟩, fun h => ⟨h.terminator, h.gap next rfl⟩⟩

private theorem sentence?_cons_of_ends (h : Ends c rest) : sentence? (c :: rest) = some [c] := by
  rw [sentence?.eq_def]
  exact if_pos (ends_iff.mpr h)

private theorem sentence?_cons_of_not_ends (h : ¬ Ends c rest) :
    sentence? (c :: rest) = (sentence? rest).map (c :: ·) := by
  rw [sentence?.eq_def]
  exact if_neg (mt ends_iff.mp h)

private theorem sentence?_cons_eq_some_iff :
    sentence? (c :: rest) = some sentence ↔
      Ends c rest ∧ sentence = [c] ∨ ¬ Ends c rest ∧ ∃ found, sentence? rest = some found ∧ sentence = c :: found := by
  by_cases hends : Ends c rest
  · rw [sentence?_cons_of_ends hends, Option.some.injEq, eq_comm]
    simp [hends]
  · rw [sentence?_cons_of_not_ends hends, Option.map_eq_some_iff]
    simp [hends, eq_comm]

/-- A sentence that is found is the part of the text up to the first place where one ends. -/
structure IsFound (text sentence rest : List Char) : Prop where
  text_eq : text = sentence ++ rest
  ended : ∃ front c, sentence = front ++ [c] ∧ Ends c rest
  first : ∀ before c behind, text = before ++ c :: behind → Ends c behind → sentence.length ≤ before.length + 1

private theorem IsFound.here (h : Ends c rest) : IsFound (c :: rest) [c] rest :=
  ⟨rfl, ⟨[], c, rfl, h⟩, fun _ _ _ _ _ => Nat.le_add_left _ _⟩

theorem IsFound.cons (h : IsFound text sentence rest) (hnot : ¬ Ends c text) :
    IsFound (c :: text) (c :: sentence) rest := by
  obtain ⟨front, d, hsentence, hends⟩ := h.ended
  refine ⟨congrArg (c :: ·) h.text_eq, ⟨c :: front, d, congrArg (c :: ·) hsentence, hends⟩, fun before e behind htext he => ?_⟩
  cases before with
  | nil =>
    obtain ⟨rfl, rfl⟩ := List.cons.inj htext
    exact absurd he hnot
  | cons b before => exact Nat.succ_le_succ (h.first before e behind (List.cons.inj htext).2 he)

theorem sentence?_eq_none_iff : sentence? text = none ↔ ∀ front c rest, text = front ++ c :: rest → ¬ Ends c rest := by
  induction text with
  | nil => exact iff_of_true rfl fun _ _ _ h => absurd h.symm (List.append_ne_nil_of_right_ne_nil _ (List.cons_ne_nil _ _))
  | cons c text ih =>
    by_cases hends : Ends c text
    · rw [sentence?_cons_of_ends hends]
      exact iff_of_false (Option.some_ne_none _) fun h => h [] c text rfl hends
    · rw [sentence?_cons_of_not_ends hends, Option.map_eq_none_iff, ih]
      refine ⟨fun h front d rest htext => ?_, fun h front d rest htext => h (c :: front) d rest (congrArg (c :: ·) htext)⟩
      cases front with
      | nil =>
        obtain ⟨rfl, rfl⟩ := List.cons.inj htext
        exact hends
      | cons b front => exact h front d rest (List.cons.inj htext).2

private theorem exists_isFound_of_sentence? (h : sentence? text = some sentence) :
    ∃ rest, IsFound text sentence rest := by
  induction text generalizing sentence with
  | nil => cases h
  | cons c text ih =>
    rcases sentence?_cons_eq_some_iff.mp h with ⟨hends, rfl⟩ | ⟨hends, found, hfound, rfl⟩
    · exact ⟨text, .here hends⟩
    · obtain ⟨rest, hrest⟩ := ih hfound
      exact ⟨rest, hrest.cons hends⟩

/-- A sentence that is found is found again by itself: no terminator within it gets a gap. -/
theorem sentence?_of_sentence? (h : sentence? text = some sentence) : sentence? sentence = some sentence := by
  induction text generalizing sentence with
  | nil => cases h
  | cons c text ih =>
    rcases sentence?_cons_eq_some_iff.mp h with ⟨hends, rfl⟩ | ⟨hends, found, hfound, rfl⟩
    · exact sentence?_cons_of_ends (ends_nil hends.terminator)
    · obtain ⟨rest, hrest⟩ := exists_isFound_of_sentence? hfound
      obtain ⟨front, d, hsentence, -⟩ := hrest.ended
      -- what is found is not empty, so that the same character follows with the rest and without it
      have hnot : ¬ Ends c found := fun hfoundEnds => by
        refine hends ⟨hfoundEnds.terminator, ?_⟩
        rw [hrest.text_eq, List.head?_append_of_ne_nil found (by simp [hsentence])]
        exact hfoundEnds.gap
      rw [sentence?_cons_of_not_ends hnot, ih hfound]
      rfl

/-! ### The first sentence of a text -/

private theorem firstSentence_firstSentence (text : List Char) :
    firstSentence (firstSentence text) = firstSentence text := by
  cases h : sentence? text with
  | none => rw [firstSentence, firstSentence, h, Option.getD_none, h, Option.getD_none]
  | some sentence =>
    rw [firstSentence, firstSentence, h, Option.getD_some, sentence?_of_sentence? h, Option.getD_some]

/-- What the first sentence of a text is that has no white space but single spaces. -/
structure IsFirstSentence (text sentence : List Char) : Prop where
  /-- The text goes on behind it with a space, and then it ends with a terminator. -/
  start : ∃ rest, text = sentence ++ rest ∧ (rest = [] ∨ ∃ more, rest = ' ' :: more) ∧
    (rest ≠ [] → ∃ c, sentence.getLast? = some c ∧ endsSentence c)
  first : ∀ before c behind, text = before ++ c :: ' ' :: behind → endsSentence c → sentence.length ≤ before.length + 1
  /-- It is the whole text if no terminator stands before a space or at the end. -/
  whole : (∀ before c behind, text = before ++ c :: behind → endsSentence c → ∃ next ∈ behind.head?, next ≠ ' ') →
    sentence = text
  again : firstSentence sentence = sentence

theorem IsCollapsed.isFirstSentence (h : IsCollapsed text) : IsFirstSentence text (firstSentence text) := by
  have hagain := firstSentence_firstSentence text
  cases hfound : sentence? text with
  | none =>
    have hnowhere := sentence?_eq_none_iff.mp hfound
    have hfirst : firstSentence text = text := by rw [firstSentence, hfound, Option.getD_none]
    rw [hfirst] at hagain ⊢
    refine ⟨⟨[], (List.append_nil text).symm, .inl rfl, fun hrest => absurd rfl hrest⟩, ?_, fun _ => rfl, hagain⟩
    exact fun before c behind htext hc => absurd (ends_space hc behind) (hnowhere before c _ htext)
  | some sentence =>
    have hfirst : firstSentence text = sentence := by rw [firstSentence, hfound, Option.getD_some]
    rw [hfirst] at hagain ⊢
    obtain ⟨rest, hrest⟩ := exists_isFound_of_sentence? hfound
    obtain ⟨front, c, hsentence, hends⟩ := hrest.ended
    have hspace : ∀ next ∈ rest.head?, next = ' ' := fun next hnext => by
      refine h.space next ?_ (hends.gap next hnext)
      rw [hrest.text_eq]
      exact List.mem_append_right sentence (List.mem_of_mem_head? hnext)
    refine ⟨⟨rest, hrest.text_eq, ?_, fun _ => ⟨c, ?_, hends.terminator⟩⟩, ?_, fun hnowhere => ?_, hagain⟩
    · cases rest with
      | nil => exact .inl rfl
      | cons next rest => exact .inr ⟨rest, by rw [hspace next rfl]⟩
    · rw [hsentence, List.getLast?_concat]
    · exact fun before d behind htext hd => hrest.first before d _ htext (ends_space hd behind)
    · have htext : text = front ++ c :: rest := by
        rw [hrest.text_eq, hsentence, List.append_assoc, List.singleton_append]
      obtain ⟨next, hnext, hother⟩ := hnowhere front c rest htext hends.terminator
      exact absurd (hspace next hnext) hother

end SchemaDocs.Markdown
