import SchemaDocs.Text.Split

/-!
# The pieces of a text

The pieces of a text hold no separator and give the text back when they are joined by it, so that a
text is known by its pieces. Splitting turns a separator between two texts into a seam between their
pieces.
-/

namespace SchemaDocs.Text

@[simp] theorem splitChars_nil (separator : Char) : splitChars separator [] = [[]] := rfl

theorem splitChars_cons_self (separator : Char) (rest : List Char) :
    splitChars separator (separator :: rest) = [] :: splitChars separator rest :=
  if_pos rfl

theorem splitChars_cons_of_ne {separator c : Char} {rest piece : List Char} {pieces : List (List Char)}
    (hne : c ≠ separator) (hrest : splitChars separator rest = piece :: pieces) :
    splitChars separator (c :: rest) = (c :: piece) :: pieces := by
  rw [splitChars, if_neg hne, hrest]

theorem splitChars_ne_nil (separator : Char) (text : List Char) : splitChars separator text ≠ [] := by
  induction text with
  | nil => exact List.cons_ne_nil _ _
  | cons c rest ih =>
    obtain rfl | hc := Decidable.em (c = separator)
    · rw [splitChars_cons_self]
      exact List.cons_ne_nil _ _
    · obtain ⟨piece, pieces, hpieces⟩ := List.exists_cons_of_ne_nil ih
      rw [splitChars_cons_of_ne hc hpieces]
      exact List.cons_ne_nil _ _

theorem splitChars_of_not_mem {separator : Char} {text : List Char} (htext : separator ∉ text) :
    splitChars separator text = [text] := by
  induction text with
  | nil => rw [splitChars_nil]
  | cons c rest ih =>
    rw [List.mem_cons, not_or] at htext
    exact splitChars_cons_of_ne (Ne.symm htext.1) (ih htext.2)

theorem splitChars_append_separator (separator : Char) (left right : List Char) :
    splitChars separator (left ++ separator :: right) = splitChars separator left ++ splitChars separator right := by
  induction left with
  | nil => rw [List.nil_append, splitChars_cons_self, splitChars_nil, List.singleton_append]
  | cons c rest ih =>
    rw [List.cons_append]
    obtain rfl | hc := Decidable.em (c = separator)
    · rw [splitChars_cons_self, splitChars_cons_self, ih, List.cons_append]
    · obtain ⟨piece, pieces, hpieces⟩ := List.exists_cons_of_ne_nil (splitChars_ne_nil separator rest)
      rw [splitChars_cons_of_ne hc hpieces, List.cons_append]
      apply splitChars_cons_of_ne hc
      rw [ih, hpieces, List.cons_append]

private theorem splitChars_append_of_not_mem {separator : Char} {ending : List Char} (hending : separator ∉ ending)
    (text : List Char) :
    ∃ front last, splitChars separator text = front ++ [last] ∧
      splitChars separator (text ++ ending) = front ++ [last ++ ending] := by
  induction text with
  | nil => exact ⟨[], [], rfl, splitChars_of_not_mem hending⟩
  | cons c rest ih =>
    obtain ⟨front, last, hrest, hmore⟩ := ih
    rw [List.cons_append]
    obtain rfl | hc := Decidable.em (c = separator)
    · refine ⟨[] :: front, last, ?_, ?_⟩
      · rw [splitChars_cons_self, hrest, List.cons_append]
      · rw [splitChars_cons_self, hmore, List.cons_append]
    · cases front with
      | nil => exact ⟨[], c :: last, splitChars_cons_of_ne hc hrest, splitChars_cons_of_ne hc hmore⟩
      | cons first front =>
        exact ⟨(c :: first) :: front, last, splitChars_cons_of_ne hc hrest, splitChars_cons_of_ne hc hmore⟩

theorem not_mem_of_mem_splitChars {separator : Char} {text piece : List Char}
    (hpiece : piece ∈ splitChars separator text) : separator ∉ piece := by
  induction text generalizing piece with
  | nil =>
    obtain rfl := List.mem_singleton.mp hpiece
    exact List.not_mem_nil
  | cons c rest ih =>
    obtain rfl | hc := Decidable.em (c = separator)
    · rw [splitChars_cons_self, List.mem_cons] at hpiece
      rcases hpiece with rfl | hpiece
      · exact List.not_mem_nil
      · exact ih hpiece
    · obtain ⟨first, pieces, hpieces⟩ := List.exists_cons_of_ne_nil (splitChars_ne_nil separator rest)
      rw [splitChars_cons_of_ne hc hpieces, List.mem_cons] at hpiece
      rw [hpieces] at ih
      rcases hpiece with rfl | hpiece
      · rw [List.mem_cons, not_or]
        exact ⟨Ne.symm hc, ih List.mem_cons_self⟩
      · exact ih (List.mem_cons_of_mem _ hpiece)

/-- Joining the pieces gives the text back. -/
theorem intercalate_splitChars (separator : Char) (text : List Char) :
    [separator].intercalate (splitChars separator text) = text := by
  induction text with
  | nil => rfl
  | cons c rest ih =>
    obtain ⟨piece, pieces, hpieces⟩ := List.exists_cons_of_ne_nil (splitChars_ne_nil separator rest)
    rw [hpieces] at ih
    obtain rfl | hc := Decidable.em (c = separator)
    · rw [splitChars_cons_self, hpieces, List.intercalate_cons_cons, ih]
      rfl
    · rw [splitChars_cons_of_ne hc hpieces]
      cases pieces with
      | nil =>
        rw [List.intercalate_singleton] at ih ⊢
        rw [ih]
      | cons next pieces =>
        rw [List.intercalate_cons_cons] at ih ⊢
        rw [← ih]
        rfl

/-- Texts without a separator are what they part to when they are joined by it. -/
theorem splitChars_intercalate {separator : Char} {parts : List (List Char)} (hne : parts ≠ [])
    (hparts : ∀ part ∈ parts, separator ∉ part) : splitChars separator ([separator].intercalate parts) = parts := by
  induction parts with
  | nil => exact absurd rfl hne
  | cons part parts ih =>
    obtain ⟨hpart, hparts⟩ := List.forall_mem_cons.mp hparts
    cases parts with
    | nil => rw [List.intercalate_singleton, splitChars_of_not_mem hpart]
    | cons next parts =>
      rw [List.intercalate_cons_cons, List.append_assoc, List.singleton_append, splitChars_append_separator,
        splitChars_of_not_mem hpart, ih (List.cons_ne_nil _ _) hparts, List.singleton_append]

theorem intercalate_append {separator : List Char} {front back : List (List Char)} (hfront : front ≠ [])
    (hback : back ≠ []) :
    separator.intercalate (front ++ back) = separator.intercalate front ++ separator ++ separator.intercalate back := by
  induction front with
  | nil => exact absurd rfl hfront
  | cons part front ih =>
    cases front with
    | nil => rw [List.singleton_append, List.intercalate_cons_of_ne_nil hback, List.intercalate_singleton]
    | cons next front =>
      have hrest := ih (List.cons_ne_nil _ _)
      rw [List.cons_append] at hrest
      rw [List.cons_append, List.cons_append, List.intercalate_cons_cons, hrest, List.intercalate_cons_cons]
      simp only [List.append_assoc]

theorem splitChars_append_replicate (separator : Char) (text : List Char) (count : Nat) :
    splitChars separator (text ++ List.replicate count separator) = splitChars separator text ++ List.replicate count [] := by
  induction count with
  | zero => simp
  | succ count ih =>
    rw [List.replicate_succ', ← List.append_assoc, splitChars_append_separator, ih, List.replicate_succ',
      ← List.append_assoc]
    rfl

private theorem splitChars_injective (separator : Char) {left right : List Char}
    (h : splitChars separator left = splitChars separator right) : left = right := by
  rw [← intercalate_splitChars separator left, h, intercalate_splitChars]

/-! ### The pieces of a string -/

theorem pieces_injective (separator : Char) {left right : String}
    (h : pieces separator left = pieces separator right) : left = right := by
  apply String.toList_injective
  apply splitChars_injective separator
  exact (List.map_inj_right fun _ _ => String.ofList_injective).mp h

theorem pieces_ne_nil (separator : Char) (text : String) : pieces separator text ≠ [] := by
  simp [pieces, splitChars_ne_nil]

theorem not_mem_of_mem_pieces {separator : Char} {text piece : String} (hpiece : piece ∈ pieces separator text) :
    separator ∉ piece.toList := by
  obtain ⟨letters, hletters, rfl⟩ := List.mem_map.mp hpiece
  rw [String.toList_ofList]
  exact not_mem_of_mem_splitChars hletters

theorem pieces_of_not_mem {separator : Char} {text : String} (htext : separator ∉ text.toList) :
    pieces separator text = [text] := by
  rw [pieces, splitChars_of_not_mem htext, List.map_singleton, String.ofList_toList]

theorem pieces_append_separator {separator : Char} {between : String} (hbetween : between.toList = [separator])
    (left right : String) :
    pieces separator (left ++ between ++ right) = pieces separator left ++ pieces separator right := by
  have htext : (left ++ between ++ right).toList = left.toList ++ separator :: right.toList := by
    rw [String.toList_append, String.toList_append, hbetween, List.append_assoc, List.singleton_append]
  rw [pieces, htext, splitChars_append_separator, List.map_append]
  rfl

/-- A text without a separator prolongs the last piece of a string. -/
theorem pieces_append_of_not_mem {separator : Char} {ending : String} (hending : separator ∉ ending.toList)
    (text : String) :
    ∃ front last, pieces separator text = front ++ [last] ∧
      pieces separator (text ++ ending) = front ++ [last ++ ending] := by
  obtain ⟨front, last, htext, hmore⟩ := splitChars_append_of_not_mem hending text.toList
  refine ⟨front.map String.ofList, String.ofList last, ?_, ?_⟩
  · rw [pieces, htext, List.map_append, List.map_singleton]
  · rw [pieces, String.toList_append, hmore, List.map_append, List.map_singleton, String.ofList_append,
      String.ofList_toList]

theorem pieces_intercalate {separator : Char} {between : String} (hbetween : between.toList = [separator])
    {texts : List String} (hne : texts ≠ []) (htexts : ∀ text ∈ texts, separator ∉ text.toList) :
    pieces separator (between.intercalate texts) = texts := by
  induction texts with
  | nil => exact absurd rfl hne
  | cons text texts ih =>
    have hfirst : pieces separator text = [text] := pieces_of_not_mem (htexts text List.mem_cons_self)
    cases texts with
    | nil => rw [String.intercalate_singleton, hfirst]
    | cons next texts =>
      have hrest := ih (List.cons_ne_nil _ _) fun other hother => htexts other (List.mem_cons_of_mem _ hother)
      rw [String.intercalate_cons_cons, pieces_append_separator hbetween, hfirst, hrest, List.singleton_append]

end SchemaDocs.Text
