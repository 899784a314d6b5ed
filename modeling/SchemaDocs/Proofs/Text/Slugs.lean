import SchemaDocs.Proofs.Sequence
import SchemaDocs.Text.Slug
import Mathlib.Data.List.Basic

/-!
# Slugs and numbers

A slug consists of words joined by single hyphens, and so does a slug with a number behind it.
-/

namespace SchemaDocs.Text

/-! ### Numbers -/

theorem isDigit_of_mem_toString {number : Nat} {c : Char} (h : c ∈ (toString number).toList) : c.isDigit := by
  rw [Nat.toString_eq_ofList_toDigits, String.toList_ofList] at h
  exact Nat.isDigit_of_mem_toDigits (by decide) (by decide) h

theorem toList_toString_ne_nil (number : Nat) : (toString number).toList ≠ [] := by
  rw [Nat.toString_eq_ofList_toDigits, String.toList_ofList]
  exact Nat.toDigits_ne_nil

theorem toString_injective {left right : Nat} (h : toString left = toString right) : left = right := by
  rw [Nat.toString_eq_ofList_toDigits, Nat.toString_eq_ofList_toDigits] at h
  have hdigits : Nat.toDigits 10 left = Nat.toDigits 10 right := String.ofList_injective h
  rw [← Nat.ofDigitChars_toDigits (by decide : 1 < 10) (by decide) (n := left), hdigits,
    Nat.ofDigitChars_toDigits (by decide) (by decide)]

/-! ### Words -/

/-- A word of a slug. -/
structure IsWord (word : List Char) : Prop where
  ne_nil : word ≠ []
  letters : ∀ c ∈ word, isAlphanumeric c

/-- Words joined by single hyphens. -/
inductive IsHyphenated : List Char → Prop where
  | word {word : List Char} (h : IsWord word) : IsHyphenated word
  | hyphen {word rest : List Char} (h : IsWord word) (hrest : IsHyphenated rest) : IsHyphenated (word ++ '-' :: rest)

private theorem isAlphanumeric_of_isDigit {c : Char} (h : c.isDigit) : isAlphanumeric c := by
  have hdigits : ∀ code < 58, 48 ≤ code → alphanumericRanges.holds code := by decide
  rw [Char.isDigit, Bool.and_eq_true, decide_eq_true_eq, decide_eq_true_eq] at h
  have hlast : c.toNat ≤ 57 := h.2
  exact hdigits c.toNat (by omega) h.1

theorem isWord_toString (number : Nat) : IsWord (toString number).toList :=
  ⟨toList_toString_ne_nil number, fun _ hc => isAlphanumeric_of_isDigit (isDigit_of_mem_toString hc)⟩

private theorem isWord_reverse {word : List Char} (hne : word.isEmpty = false) (hword : ∀ c ∈ word, isAlphanumeric c) :
    IsWord word.reverse where
  ne_nil := by simpa using hne
  letters c hc := hword c (List.mem_reverse.mp hc)

theorem isWord_of_mem_slugWords {text word : List Char} (hword : ∀ c ∈ word, isAlphanumeric c) :
    ∀ part ∈ slugWords text word, IsWord part := by
  have hnil : ∀ c ∈ ([] : List Char), isAlphanumeric c := nofun
  induction text generalizing word with
  | nil =>
    intro part hpart
    rw [slugWords] at hpart
    cases hempty : word.isEmpty with
    | true => simp [hempty] at hpart
    | false =>
      simp only [hempty, Bool.false_eq_true, if_false, List.mem_singleton] at hpart
      exact hpart ▸ isWord_reverse hempty hword
  | cons c rest ih =>
    rw [slugWords]
    by_cases hletter : isAlphanumeric c
    · rw [if_pos hletter]
      exact ih (List.forall_mem_cons.mpr ⟨hletter, hword⟩)
    · rw [if_neg hletter]
      split
      · cases hempty : word.isEmpty with
        | true => exact ih hnil
        | false => exact List.forall_mem_cons.mpr ⟨isWord_reverse hempty hword, ih hnil⟩
      · exact ih hword

/-! ### Hyphenated words -/

private theorem isHyphenated_intercalate {words : List (List Char)} (hne : words ≠ [])
    (hwords : ∀ word ∈ words, IsWord word) :
    IsHyphenated (['-'].intercalate words) := by
  induction words with
  | nil => exact absurd rfl hne
  | cons word words ih =>
    obtain ⟨hword, hrest⟩ := List.forall_mem_cons.mp hwords
    cases words with
    | nil =>
      rw [List.intercalate_singleton]
      exact .word hword
    | cons next words =>
      rw [List.intercalate_cons_cons, List.append_assoc]
      exact .hyphen hword (ih (List.cons_ne_nil _ _) hrest)

/-- A slug that is not empty consists of words. -/
theorem isHyphenated_slug {text : List Char} (hne : slug text ≠ []) : IsHyphenated (slug text) := by
  refine isHyphenated_intercalate (fun hnone => hne ?_) (isWord_of_mem_slugWords nofun)
  rw [slug, hnone]
  rfl

namespace IsHyphenated

variable {text word : List Char}

theorem append_word (htext : IsHyphenated text) (hword : IsWord word) : IsHyphenated (text ++ '-' :: word) := by
  induction htext with
  | word h => exact .hyphen h (.word hword)
  | hyphen h _ ih =>
    rw [List.append_assoc, List.cons_append]
    exact .hyphen h ih

theorem isAlphanumeric_or (h : IsHyphenated text) : ∀ c ∈ text, isAlphanumeric c ∨ c = '-' := by
  induction h with
  | word h => exact fun c hc => .inl (h.letters c hc)
  | hyphen h _ ih =>
    intro c hc
    rcases List.mem_append.mp hc with hword | hrest
    · exact .inl (h.letters c hword)
    · rcases List.mem_cons.mp hrest with hhyphen | hrest
      · exact .inr hhyphen
      · exact ih c hrest

end IsHyphenated

end SchemaDocs.Text
