import SchemaDocs.Proofs.Sequence
import SchemaDocs.Text.LetterCase
import Mathlib.Data.Nat.Bitwise

/-!
# Lower case

What lower-casing gives is in lower case: no character of it is moved any more. The tables say so because no
code point that a run moves is one that a run moves another to. Packed as the bits of one number, all code
points of either kind are compared at once.

White space, hyphens and underscores stay as they are and have no bearing on the case of others, so that what
stands on either side of them is put in lower case by itself.
-/

namespace SchemaDocs.Text

variable {c d : Char} {code : Nat} {text rest before : List Char}

/-! ### Code points that are moved -/

def packed (codes : List Nat) : Nat := codes.foldr (fun code rest => 1 <<< code ||| rest) 0

private theorem testBit_packed {codes : List Nat} : (packed codes).testBit code ↔ code ∈ codes := by
  induction codes with
  | nil => simp [packed]
  | cons first codes ih =>
    have hfirst : (1 <<< first).testBit code = decide (first = code) := by
      rw [Nat.one_shiftLeft, Nat.testBit_two_pow]
    show (1 <<< first ||| packed codes).testBit code ↔ _
    rw [Nat.testBit_or, hfirst, Bool.or_eq_true, decide_eq_true_eq, ih, List.mem_cons, eq_comm]

private theorem not_mem_of_packed {left right : List Nat} (h : packed left &&& packed right = 0) (hleft : code ∈ left) :
    code ∉ right := by
  intro hright
  have hbit : (packed left &&& packed right).testBit code = true := by
    rw [Nat.testBit_and, testBit_packed.mpr hleft, testBit_packed.mpr hright, Bool.and_self]
  rw [h, Nat.zero_testBit] at hbit
  cases hbit

namespace CaseRun

def codes (run : CaseRun) : List Nat :=
  (List.range ((run.last - run.first) / run.stride + 1)).map fun number => run.first + number * run.stride

/-- Where a run moves a code point. -/
def target (run : CaseRun) (code : Nat) : Nat := Int.toNat (code + run.offset)

private theorem exists_of_moved {runs : List CaseRun} {moved : Nat} (h : CaseRun.apply? runs code = some moved) :
    ∃ run ∈ runs, code ∈ run.codes ∧ moved = run.target code := by
  induction runs with
  | nil => cases h
  | cons run later ih =>
    rw [ CaseRun.apply?] at h
    split at h
    · cases h
    · rename_i hfirst
      split at h
      · rename_i hlast
        split at h
        · rename_i hstride
          refine ⟨run, List.mem_cons_self, List.mem_map.mpr ⟨(code - run.first) / run.stride, ?_, ?_⟩,
            (Option.some.inj h).symm⟩
          · rw [List.mem_range, Nat.lt_succ_iff]
            exact Nat.div_le_div_right (Nat.sub_le_sub_right hlast _)
          · rw [Nat.div_mul_cancel (Nat.dvd_of_mod_eq_zero hstride)]
            omega
        · cases h
      · obtain ⟨found, hfound, hcode⟩ := ih h
        exact ⟨found, List.mem_cons_of_mem _ hfound, hcode⟩

end CaseRun

def movedCodes : List Nat := lowercaseRuns.flatMap CaseRun.codes ++ lowercaseExpansions.map Prod.fst

def lowercaseCodes : List Nat := lowercaseRuns.flatMap fun run => run.codes.map run.target

private theorem packed_lowercaseCodes : packed lowercaseCodes &&& packed movedCodes = 0 := by decide +kernel

private theorem mem_movedCodes_of_moved {moved : Nat} (h : CaseRun.apply? lowercaseRuns code = some moved) :
    code ∈ movedCodes ∧ moved ∈ lowercaseCodes := by
  obtain ⟨run, hrun, hcode, rfl⟩ := CaseRun.exists_of_moved h
  exact ⟨List.mem_append_left _ (List.mem_flatMap.mpr ⟨run, hrun, hcode⟩),
    List.mem_flatMap.mpr ⟨run, hrun, List.mem_map_of_mem hcode⟩⟩

/-! ### Single characters -/

private theorem forall_ascii {motive : Char → Prop} (h : ∀ code < 128, motive (Char.ofNat code)) (c : Char)
    (hc : c.toNat < 128) :
    motive c := by
  have hcode := h c.toNat hc
  rwa [Char.ofNat_toNat] at hcode

theorem lowerChar_of_le (h : 128 ≤ c.toNat) :
    lowerChar c = match CaseRun.apply? lowercaseRuns c.toNat with
      | some code => [Char.ofNat code]
      | none => match lowercaseExpansions.lookup c.toNat with
        | some codes => codes.map Char.ofNat
        | none => [c] := by
  rw [lowerChar, if_neg (Nat.not_lt.mpr h)]
  rfl

theorem lowerChar_of_not_mem (h : c.toNat ∉ movedCodes) : lowerChar c = [c] := by
  by_cases hascii : c.toNat < 128
  · exact (forall_ascii (motive := fun c => lowerChar c = [c] ∨ c.toNat ∈ movedCodes) (by decide +kernel) c hascii).resolve_right h
  · rw [lowerChar_of_le (Nat.not_lt.mp hascii)]
    have hruns : CaseRun.apply? lowercaseRuns c.toNat = none :=
      Option.eq_none_iff_forall_ne_some.mpr fun _ happly => h (mem_movedCodes_of_moved happly).1
    have hexpansions : lowercaseExpansions.lookup c.toNat = none := by
      rw [List.lookup_eq_none_iff]
      intro entry hentry
      rw [bne_iff_ne]
      intro hcode
      exact h (List.mem_append_right _ (hcode ▸ List.mem_map_of_mem hentry))
    rw [hruns, hexpansions]

private theorem lowerChar_of_mem_lowerChar (h : d ∈ lowerChar c) : lowerChar d = [d] := by
  by_cases hascii : c.toNat < 128
  · exact forall_ascii (motive := fun c => ∀ d ∈ lowerChar c, lowerChar d = [d]) (by decide +kernel) c hascii d h
  · rw [lowerChar_of_le (Nat.not_lt.mp hascii)] at h
    cases hrun : CaseRun.apply? lowercaseRuns c.toNat with
    | some code =>
      rw [hrun] at h
      obtain rfl := List.mem_singleton.mp h
      have hcode := not_mem_of_packed packed_lowercaseCodes (mem_movedCodes_of_moved hrun).2
      by_cases hvalid : code.isValidChar
      · have hback : (Char.ofNat code).toNat = code := by
          rw [Char.ofNat, dif_pos hvalid]
          rfl
        exact lowerChar_of_not_mem (hback.symm ▸ hcode)
      · rw [Char.ofNat, dif_neg hvalid]
        decide
    | none =>
      rw [hrun] at h
      cases hexpansion : lowercaseExpansions.lookup c.toNat with
      | some codes =>
        rw [hexpansion] at h
        have hspelled : ∀ entry ∈ lowercaseExpansions, ∀ d ∈ entry.2.map Char.ofNat, lowerChar d = [d] := by decide +kernel
        exact hspelled _ ((lookup_eq_some_iff_mem (by decide)).mp hexpansion) d h
      | none =>
        rw [hexpansion] at h
        obtain rfl := List.mem_singleton.mp h
        rw [lowerChar_of_le (Nat.not_lt.mp hascii), hrun, hexpansion]

/-- A character that is in lower case is no capital sigma, whose form would depend on its neighbours. -/
theorem ne_sigma_of_lowerChar (h : lowerChar c = [c]) : c ≠ 'Σ' := by
  rintro rfl
  exact absurd h (by decide)

/-! ### Texts -/

private theorem lowerChar_of_mem_lowercaseAfter (h : d ∈ lowercaseAfter before text) : lowerChar d = [d] := by
  induction text generalizing before with
  | nil => cases h
  | cons c after ih =>
    rw [lowercaseAfter, List.mem_append] at h
    rcases h with h | h
    · split at h
      · -- either form of a sigma
        rw [List.mem_singleton] at h
        split at h <;> rw [h] <;> decide
      · exact lowerChar_of_mem_lowerChar h
    · exact ih h

theorem lowerChar_of_mem_lowercase (h : d ∈ lowercase text) : lowerChar d = [d] := lowerChar_of_mem_lowercaseAfter h

private theorem lowercaseAfter_cons_of_lower (h : lowerChar c = [c]) (before after : List Char) :
    lowercaseAfter before (c :: after) = c :: lowercaseAfter (c :: before) after := by
  rw [lowercaseAfter, if_neg (ne_sigma_of_lowerChar h), h]
  rfl

private theorem lowercaseAfter_of_lower (h : ∀ c ∈ text, lowerChar c = [c]) (before : List Char) :
    lowercaseAfter before text = text := by
  induction text generalizing before with
  | nil => rfl
  | cons c after ih =>
    obtain ⟨hc, hafter⟩ := List.forall_mem_cons.mp h
    rw [lowercaseAfter_cons_of_lower hc, ih hafter]

/-- A text in lower case stays as it is. -/
theorem lowercase_of_lower (h : ∀ c ∈ text, lowerChar c = [c]) : lowercase text = text := lowercaseAfter_of_lower h []

/-! ### Separators -/

/-- A character that is in lower case and has no bearing on the case of its neighbours. -/
structure IsCaseless (c : Char) : Prop where
  lower : lowerChar c = [c]
  not_ignorable : caseIgnorableRanges.holds c.toNat = false
  not_cased : casedRanges.holds c.toNat = false

namespace IsCaseless

private theorem beginsCased_append (h : IsCaseless c) (front back : List Char) :
    beginsCased (front ++ c :: back) = beginsCased front := by
  have hstop : (c :: back).dropWhile (fun other => caseIgnorableRanges.holds other.toNat) = c :: back := by
    rw [List.dropWhile_cons_of_neg (by simp [h.not_ignorable])]
  rw [beginsCased, beginsCased, List.dropWhile_append]
  cases front.dropWhile fun other => caseIgnorableRanges.holds other.toNat with
  | nil => simp [hstop, h.not_cased]
  | cons first later => rfl

theorem lowercaseAfter_append (h : IsCaseless c) (before back text : List Char) :
    lowercaseAfter (before ++ c :: back) text = lowercaseAfter before text := by
  induction text generalizing before with
  | nil => rfl
  | cons first after ih => rw [lowercaseAfter, lowercaseAfter, h.beginsCased_append, ← List.cons_append, ih]

theorem lowercaseAfter_append_cons (h : IsCaseless c) (before text rest : List Char) :
    lowercaseAfter before (text ++ c :: rest) = lowercaseAfter before text ++ c :: lowercase rest := by
  induction text generalizing before with
  | nil =>
    have hrest : lowercaseAfter (c :: before) rest = lowercase rest := h.lowercaseAfter_append [] before rest
    rw [List.nil_append, lowercaseAfter_cons_of_lower h.lower, hrest]
    rfl
  | cons first after ih =>
    rw [List.cons_append, lowercaseAfter, lowercaseAfter, h.beginsCased_append, ih, List.append_assoc]

/-- What stands on either side of a caseless character is put in lower case by itself. -/
theorem lowercase_append_cons (h : IsCaseless c) (text rest : List Char) :
    lowercase (text ++ c :: rest) = lowercase text ++ c :: lowercase rest := h.lowercaseAfter_append_cons [] text rest

end IsCaseless

end SchemaDocs.Text
