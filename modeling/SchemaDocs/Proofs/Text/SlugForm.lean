import SchemaDocs.Proofs.Text.LowerCase
import SchemaDocs.Proofs.Text.Pieces
import SchemaDocs.Proofs.Text.Slugs

/-!
# The form of slugs

A slug is its words joined by single hyphens, without one at either end, and is its own slug. The words of a
text are those of its parts between separators, so that it makes no difference which separators part them, or
how many, or whether there are some at the ends.
-/

namespace SchemaDocs.Text

variable {c : Char} {text rest word gap left right body : List Char} {words parts : List (List Char)}

/-! ### Separators -/

private theorem Ranges.exists_of_holds {ranges : Ranges} {code : Nat} (h : ranges.holds code) :
    ∃ range ∈ ranges, range.1 ≤ code ∧ code ≤ range.2 := by
  induction ranges with
  | nil => cases h
  | cons range later ih =>
    rw [Ranges.holds] at h
    split at h
    · cases h
    · rename_i hfirst
      split at h
      · rename_i hlast
        exact ⟨range, List.mem_cons_self, Nat.not_lt.mp hfirst, hlast⟩
      · obtain ⟨found, hfound, hcode⟩ := ih h
        exact ⟨found, List.mem_cons_of_mem _ hfound, hcode⟩

private theorem isCaseless_of_isSlugSeparator (h : isSlugSeparator c) : IsCaseless c ∧ isAlphanumeric c = false := by
  have hspace : ∀ range ∈ whiteSpaceRanges, ∀ offset ≤ range.2 - range.1,
      lowerChar (Char.ofNat (range.1 + offset)) = [Char.ofNat (range.1 + offset)] ∧
        caseIgnorableRanges.holds (Char.ofNat (range.1 + offset)).toNat = false ∧
        casedRanges.holds (Char.ofNat (range.1 + offset)).toNat = false ∧
        isAlphanumeric (Char.ofNat (range.1 + offset)) = false := by decide +kernel
  rw [isSlugSeparator, Bool.or_eq_true, Bool.or_eq_true, decide_eq_true_eq, decide_eq_true_eq] at h
  rcases h with (h | rfl) | rfl
  · obtain ⟨range, hrange, hfirst, hlast⟩ := Ranges.exists_of_holds h
    have hcode := hspace range hrange (c.toNat - range.1) (Nat.sub_le_sub_right hlast _)
    rw [Nat.add_sub_cancel' hfirst, Char.ofNat_toNat] at hcode
    obtain ⟨hlower, hignorable, hcased, hletter⟩ := hcode
    exact ⟨⟨hlower, hignorable, hcased⟩, hletter⟩
  · exact ⟨⟨by decide, by decide +kernel, by decide +kernel⟩, by decide⟩
  · exact ⟨⟨by decide, by decide +kernel, by decide +kernel⟩, by decide⟩

/-! ### Words -/

theorem slugWords_append_cons (hc : isSlugSeparator c) (text rest word : List Char) :
    slugWords (text ++ c :: rest) word = slugWords text word ++ slugWords rest [] := by
  induction text generalizing word with
  | nil =>
    have hletter := (isCaseless_of_isSlugSeparator hc).2
    have hend : slugWords (c :: rest) word = if word.isEmpty then slugWords rest [] else word.reverse :: slugWords rest [] := by
      rw [slugWords, hletter, if_neg Bool.false_ne_true, if_pos hc]
    rw [List.nil_append, hend, slugWords]
    split <;> rfl
  | cons first text ih =>
    rw [List.cons_append, slugWords, slugWords]
    split
    · exact ih _
    · split
      · split
        · exact ih _
        · rw [ih, List.cons_append]
      · exact ih _

theorem slugWords_append (hletters : ∀ c ∈ left, isAlphanumeric c) (right word : List Char) :
    slugWords (left ++ right) word = slugWords right (left.reverse ++ word) := by
  induction left generalizing word with
  | nil => rfl
  | cons c left ih =>
    obtain ⟨hc, hleft⟩ := List.forall_mem_cons.mp hletters
    rw [List.cons_append, slugWords, if_pos hc, ih hleft, List.reverse_cons, List.append_assoc]
    rfl

private theorem slugWords_word (h : IsWord word) : slugWords word [] = [word] := by
  have hword := slugWords_append h.letters [] []
  rw [List.append_nil, List.append_nil] at hword
  rw [hword, slugWords, if_neg (by simp [h.ne_nil]), List.reverse_reverse]

private theorem slugWords_intercalate (h : ∀ word ∈ words, IsWord word) :
    slugWords (['-'].intercalate words) [] = words := by
  induction words with
  | nil => rfl
  | cons word words ih =>
    obtain ⟨hword, hwords⟩ := List.forall_mem_cons.mp h
    cases words with
    | nil => rw [List.intercalate_singleton, slugWords_word hword]
    | cons next words =>
      rw [List.intercalate_cons_cons, List.append_assoc, List.singleton_append, slugWords_append_cons (by decide),
        slugWords_word hword, ih hwords, List.singleton_append]

private theorem mem_of_mem_slugWords {part : List Char} (hpart : part ∈ slugWords text word) (hc : c ∈ part) :
    c ∈ text ∨ c ∈ word := by
  induction text generalizing word with
  | nil =>
    rw [slugWords] at hpart
    split at hpart
    · cases hpart
    · rw [List.mem_singleton.mp hpart] at hc
      exact .inr (List.mem_reverse.mp hc)
  | cons first text ih =>
    have hnone : c ∉ ([] : List Char) := List.not_mem_nil
    rw [slugWords] at hpart
    rw [List.mem_cons]
    split at hpart
    · rcases ih hpart with h | h
      · exact .inl (.inr h)
      · exact (List.mem_cons.mp h).imp .inl id
    · split at hpart
      · split at hpart
        · exact .inl (.inr ((ih hpart).resolve_right hnone))
        · rcases List.mem_cons.mp hpart with rfl | hpart
          · exact .inr (List.mem_reverse.mp hc)
          · exact .inl (.inr ((ih hpart).resolve_right hnone))
      · exact (ih hpart).imp .inr id

/-- The words of a text, which its slug consists of. -/
def wordsOf (text : List Char) : List (List Char) := slugWords (lowercase text) []

private theorem slug_eq_intercalate (text : List Char) : slug text = ['-'].intercalate (wordsOf text) := rfl

private theorem isWord_of_mem_wordsOf (h : word ∈ wordsOf text) :
    IsWord word := isWord_of_mem_slugWords (List.forall_mem_nil _) word h

private theorem lowerChar_of_mem_wordsOf (hword : word ∈ wordsOf text) (hc : c ∈ word) : lowerChar c = [c] :=
  lowerChar_of_mem_lowercase ((mem_of_mem_slugWords hword hc).resolve_right List.not_mem_nil)

/-! ### Slugs -/

private theorem forall_mem_intercalate {motive : Char → Prop} {separator : List Char}
    (hseparator : ∀ c ∈ separator, motive c)
    (h : ∀ part ∈ parts, ∀ c ∈ part, motive c) : ∀ c ∈ separator.intercalate parts, motive c := by
  induction parts with
  | nil => exact fun c hc => absurd hc List.not_mem_nil
  | cons part parts ih =>
    obtain ⟨hpart, hparts⟩ := List.forall_mem_cons.mp h
    cases parts with
    | nil => rwa [List.intercalate_singleton]
    | cons next parts =>
      rw [List.intercalate_cons_cons]
      exact List.forall_mem_append.mpr ⟨List.forall_mem_append.mpr ⟨hpart, hseparator⟩, ih hparts⟩

/-- A slug is its own slug. -/
theorem slug_slug (text : List Char) : slug (slug text) = slug text := by
  have hlower : ∀ c ∈ slug text, lowerChar c = [c] :=
    forall_mem_intercalate (by decide) fun word hword c hc => lowerChar_of_mem_wordsOf hword hc
  have hwords : wordsOf (slug text) = wordsOf text := by
    rw [wordsOf, lowercase_of_lower hlower]
    exact slugWords_intercalate fun word => isWord_of_mem_wordsOf
  rw [slug_eq_intercalate, hwords, ← slug_eq_intercalate]

private theorem IsWord.not_mem_hyphen (h : IsWord word) :
    '-' ∉ word := fun hmem => absurd (h.letters '-' hmem) (by decide)

private theorem ends_intercalate (h : ∀ word ∈ words, IsWord word) :
    (['-'].intercalate words).head? ≠ some '-' ∧ (['-'].intercalate words).getLast? ≠ some '-' := by
  constructor
  · cases words with
    | nil => exact nofun
    | cons word words =>
      have hword := (List.forall_mem_cons.mp h).1
      have hhead : (['-'].intercalate (word :: words)).head? = word.head? := by
        cases words with
        | nil => rw [List.intercalate_singleton]
        | cons next words =>
          rw [List.intercalate_cons_cons, List.append_assoc, List.head?_append_of_ne_nil _ hword.ne_nil]
      rw [hhead]
      exact fun hhyphen => hword.not_mem_hyphen (List.mem_of_mem_head? hhyphen)
  · rcases List.eq_nil_or_concat' words with rfl | ⟨front, word, rfl⟩
    · exact nofun
    · have hword := (List.forall_mem_append.mp h).2 word List.mem_cons_self
      have hlast : (['-'].intercalate (front ++ [word])).getLast? = word.getLast? := by
        by_cases hfront : front = []
        · rw [hfront, List.nil_append, List.intercalate_singleton]
        · rw [intercalate_append hfront (List.cons_ne_nil _ _), List.intercalate_singleton,
            List.getLast?_append_of_ne_nil _ hword.ne_nil]
      rw [hlast]
      exact fun hhyphen => hword.not_mem_hyphen (List.mem_of_getLast? hhyphen)

/-! ### Texts that differ in their gaps -/

theorem wordsOf_append_cons (hc : isSlugSeparator c) (text rest : List Char) :
    wordsOf (text ++ c :: rest) = wordsOf text ++ wordsOf rest := by
  rw [wordsOf, (isCaseless_of_isSlugSeparator hc).1.lowercase_append_cons, slugWords_append_cons hc]
  rfl

private theorem wordsOf_gap (hgap : ∀ c ∈ gap, isSlugSeparator c) (rest : List Char) :
    wordsOf (gap ++ rest) = wordsOf rest := by
  induction gap with
  | nil => rfl
  | cons c gap ih =>
    obtain ⟨hc, hgap⟩ := List.forall_mem_cons.mp hgap
    exact (wordsOf_append_cons hc [] (gap ++ rest)).trans (ih hgap)

private theorem wordsOf_append_gap (hne : gap ≠ []) (hgap : ∀ c ∈ gap, isSlugSeparator c) (text rest : List Char) :
    wordsOf (text ++ (gap ++ rest)) = wordsOf text ++ wordsOf rest := by
  obtain ⟨c, gap, rfl⟩ := List.exists_cons_of_ne_nil hne
  obtain ⟨hc, hgap⟩ := List.forall_mem_cons.mp hgap
  rw [List.cons_append, wordsOf_append_cons hc, wordsOf_gap hgap]

/-- A text that consists of parts with separators between any two of them, as many as there may be. -/
inductive IsParted : List (List Char) → List Char → Prop where
  | part (part : List Char) : IsParted [part] part
  | gap {part gap text : List Char} {parts : List (List Char)} (hne : gap ≠ []) (hgap : ∀ c ∈ gap, isSlugSeparator c)
      (h : IsParted parts text) : IsParted (part :: parts) (part ++ (gap ++ text))

/-- Such a text, with further separators at its ends or without. -/
def IsSpaced (parts : List (List Char)) (text : List Char) : Prop :=
  ∃ front body back, text = front ++ (body ++ back) ∧ (∀ c ∈ front, isSlugSeparator c) ∧ (∀ c ∈ back, isSlugSeparator c) ∧
    IsParted parts body

theorem IsParted.wordsOf_eq (h : IsParted parts text) : wordsOf text = parts.flatMap wordsOf := by
  induction h with
  | part part => rw [List.flatMap_singleton]
  | gap hne hgap _ ih => rw [wordsOf_append_gap hne hgap, ih, List.flatMap_cons]

private theorem IsSpaced.wordsOf_eq (h : IsSpaced parts text) : wordsOf text = parts.flatMap wordsOf := by
  obtain ⟨front, body, back, rfl, hfront, hback, hbody⟩ := h
  rw [wordsOf_gap hfront, ← hbody.wordsOf_eq]
  cases back with
  | nil => rw [List.append_nil]
  | cons c back =>
    have hend := wordsOf_append_gap (List.cons_ne_nil _ _) hback body []
    rwa [List.append_nil, show wordsOf [] = [] from rfl, List.append_nil] at hend

/-- A slug is in its normal form: words joined by single hyphens, with none at its ends. It is its own slug, and
it is the same for all texts that differ only in the separators between their parts and at their ends. -/
theorem slugify_normal :
    (∀ text : String, (∃ words : List (List Char), (∀ word ∈ words, IsWord word) ∧ (slugify text).toList = ['-'].intercalate words) ∧
      (slugify text).toList.head? ≠ some '-' ∧ (slugify text).toList.getLast? ≠ some '-') ∧
    (∀ text : String, slugify (slugify text) = slugify text) ∧
    ∀ (parts : List (List Char)) (left right : String), IsSpaced parts left.toList → IsSpaced parts right.toList →
      slugify left = slugify right := by
  refine ⟨fun text => ?_, fun text => ?_, fun parts left right hleft hright => ?_⟩
  · have hwords : ∀ word ∈ wordsOf text.toList, IsWord word := fun _ => isWord_of_mem_wordsOf
    rw [slugify, String.toList_ofList, slug_eq_intercalate]
    exact ⟨⟨_, hwords, rfl⟩, ends_intercalate hwords⟩
  · rw [slugify, slugify, String.toList_ofList, slug_slug]
  · rw [slugify, slugify, slug_eq_intercalate, slug_eq_intercalate, hleft.wordsOf_eq, hright.wordsOf_eq]

theorem slugify_normal_spaced :
    IsSpaced ["ΟΔΟΣ".toList, "É!1".toList] "ΟΔΟΣ_ É!1".toList ∧ IsSpaced ["ΟΔΟΣ".toList, "É!1".toList] "--ΟΔΟΣ\u00a0É!1 ".toList ∧
      slugify "ΟΔΟΣ_ É!1" = slugify "--ΟΔΟΣ\u00a0É!1 " := by
  have hparted (gap : List Char) (hne : gap ≠ []) (hgap : ∀ c ∈ gap, isSlugSeparator c) :
      IsParted ["ΟΔΟΣ".toList, "É!1".toList] ("ΟΔΟΣ".toList ++ (gap ++ "É!1".toList)) := .gap hne hgap (.part _)
  have hleft : IsSpaced ["ΟΔΟΣ".toList, "É!1".toList] "ΟΔΟΣ_ É!1".toList :=
    ⟨[], _, [], by decide, by decide, by decide, hparted "_ ".toList (by decide) (by decide)⟩
  have hright : IsSpaced ["ΟΔΟΣ".toList, "É!1".toList] "--ΟΔΟΣ\u00a0É!1 ".toList :=
    ⟨"--".toList, _, " ".toList, by decide, by decide, by decide, hparted "\u00a0".toList (by decide) (by decide)⟩
  exact ⟨hleft, hright, slugify_normal.2.2 _ _ _ hleft hright⟩

end SchemaDocs.Text
