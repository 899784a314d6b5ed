import SchemaDocs.Markdown.Html
import SchemaDocs.Markdown.Sanitize
import Mathlib.Data.List.TakeWhile

/-!
# Addresses that run scripts

An address runs a script if, behind white space and whatever the case of its letters, it begins with
a scheme for scripts. Escaping an address cannot make it one: a character that is escaped begins
with an ampersand or a percent sign, which no scheme does, and all others stay.
-/

namespace SchemaDocs.Markdown

/-- An address begins, behind white space, with a scheme that can carry a script, in letters of any
case. -/
def RunsScript (address : List Char) : Prop :=
  ∃ blanks start rest scheme, address = blanks ++ start ++ rest ∧ (∀ c ∈ blanks, Text.isWhiteSpace c) ∧
    scheme ∈ unsafeSchemes ∧ start.map Char.toLower = scheme.toList

/-! ### White space and letters -/

private theorem toLower_of_isWhiteSpace {c : Char} (h : Text.isWhiteSpace c) : c.toLower = c := by
  have hletters : ∀ code < 91, 65 ≤ code → Text.whiteSpaceRanges.holds code = false := by decide
  delta Char.toLower
  split
  · rename_i hupper
    have hlast : c.toNat ≤ 90 := hupper.2
    rw [Text.isWhiteSpace, hletters c.toNat (by omega) hupper.1] at h
    cases h
  · rfl

/-- A scheme begins with a letter, so that no address begins a scheme with white space. -/
theorem exists_cons_of_unsafeScheme {scheme : String} (h : scheme ∈ unsafeSchemes) :
    ∃ first rest, scheme.toList = first :: rest ∧ ¬ Text.isWhiteSpace first := by
  simp only [unsafeSchemes, List.mem_cons, List.not_mem_nil, or_false] at h
  rcases h with rfl | rfl | rfl
  · exact ⟨'j', "avascript:".toList, by decide, by decide⟩
  · exact ⟨'v', "bscript:".toList, by decide, by decide⟩
  · exact ⟨'d', "ata:".toList, by decide, by decide⟩

theorem trimStart_of_start {start rest : List Char} {scheme : String} (hscheme : scheme ∈ unsafeSchemes)
    (hstart : start.map Char.toLower = scheme.toList) : Text.trimStart (start ++ rest) = start ++ rest := by
  obtain ⟨first, others, hletters, hblank⟩ := exists_cons_of_unsafeScheme hscheme
  rw [hletters, List.map_eq_cons_iff] at hstart
  obtain ⟨c, letters, rfl, hlower, -⟩ := hstart
  have hc : ¬ Text.isWhiteSpace c := by
    intro hc
    rw [toLower_of_isWhiteSpace hc] at hlower
    exact hblank (hlower ▸ hc)
  rw [Text.trimStart, List.cons_append, List.dropWhile_cons_of_neg hc]

/-- The check finds the addresses that run scripts. -/
theorem isScriptAddress_iff {address : String} : isScriptAddress address ↔ RunsScript address.toList := by
  simp only [isScriptAddress, List.any_eq_true, List.isPrefixOf_iff_prefix]
  constructor
  · intro ⟨scheme, hscheme, hleads⟩
    obtain ⟨rest, hplain⟩ := hleads
    obtain ⟨start, behind, hsplit, hstart, -⟩ := List.map_eq_append_iff.mp hplain.symm
    refine ⟨address.toList.takeWhile Text.isWhiteSpace, start, behind, scheme, ?_, fun c hc => ?_, hscheme, hstart⟩
    · rw [List.append_assoc, ← hsplit, Text.trimStart, List.takeWhile_append_dropWhile]
    · exact List.mem_takeWhile_imp hc
  · intro ⟨blanks, start, rest, scheme, haddress, hblanks, hscheme, hstart⟩
    refine ⟨scheme, hscheme, rest.map Char.toLower, ?_⟩
    rw [haddress, List.append_assoc, Text.trimStart, List.dropWhile_append_of_pos hblanks, ← Text.trimStart,
      trimStart_of_start hscheme hstart, List.map_append, hstart]

/-- An address that begins with a visible character, of which no scheme begins, runs no script. -/
theorem not_runsScript_cons {first : Char} {rest : List Char} (hblank : ¬ Text.isWhiteSpace first)
    (hfirst : ∀ scheme ∈ unsafeSchemes, scheme.toList.head? ≠ some first.toLower) : ¬ RunsScript (first :: rest) := by
  intro ⟨blanks, start, behind, scheme, haddress, hblanks, hscheme, hstart⟩
  cases blanks with
  | cons blank blanks =>
    obtain ⟨rfl, -⟩ := List.cons.inj haddress
    exact hblank (hblanks _ List.mem_cons_self)
  | nil =>
    obtain ⟨letter, letters, hletters, -⟩ := exists_cons_of_unsafeScheme hscheme
    cases start with
    | nil =>
      rw [hletters] at hstart
      cases hstart
    | cons c start =>
      obtain ⟨rfl, -⟩ := List.cons.inj haddress
      refine hfirst scheme hscheme ?_
      rw [← hstart]
      rfl

/-! ### Escaped addresses -/

theorem toList_toUTF8_ne_nil (c : Char) : (String.singleton c).toUTF8.toList ≠ [] := by
  have hloop (bytes : ByteArray) (index : Nat) (read : List UInt8) (h : index < bytes.size ∨ read ≠ []) :
      ByteArray.toList.loop bytes index read ≠ [] := by
    fun_induction ByteArray.toList.loop bytes index read with
    | case1 index read hindex ih => exact ih (.inr (List.cons_ne_nil _ _))
    | case2 index read hindex => simpa [hindex] using h
  have hsize : 0 < (String.singleton c).utf8ByteSize := by
    rw [String.utf8ByteSize_singleton]
    exact c.utf8Size_pos
  exact hloop _ _ _ (.inl hsize)

private theorem escapeAddressChar_cases (c : Char) :
    escapeAddressChar c = [c] ∧ isAddressSafe c ∨
      ∃ first rest, escapeAddressChar c = first :: rest ∧ (first = '&' ∨ first = '%') := by
  rw [escapeAddressChar]
  split
  · rename_i hsafe
    exact .inl ⟨rfl, hsafe⟩
  · split
    · exact .inr ⟨'&', "amp;".toList, by decide, .inl rfl⟩
    · split
      · exact .inr ⟨'&', "#x27;".toList, by decide, .inl rfl⟩
      · obtain ⟨byte, bytes, hbytes⟩ := List.exists_cons_of_ne_nil (toList_toUTF8_ne_nil c)
        rw [hbytes, List.flatMap_cons]
        exact .inr ⟨'%', _, rfl, .inr rfl⟩

private theorem exists_start_of_escaped {address start rest : List Char} (hstart : ∀ c ∈ start, c ≠ '&' ∧ c ≠ '%')
    (h : address.flatMap escapeAddressChar = start ++ rest) : ∃ behind, address = start ++ behind := by
  induction start generalizing address with
  | nil => exact ⟨address, rfl⟩
  | cons first start ih =>
    obtain ⟨hfirst, hothers⟩ := List.forall_mem_cons.mp hstart
    cases address with
    | nil => cases h
    | cons c address =>
      rw [List.flatMap_cons] at h
      rcases escapeAddressChar_cases c with ⟨hstays, -⟩ | ⟨other, behind, hescaped, hother⟩
      · rw [hstays] at h
        obtain ⟨rfl, hrest⟩ := List.cons.inj h
        obtain ⟨behind, rfl⟩ := ih hothers hrest
        exact ⟨behind, rfl⟩
      · rw [hescaped] at h
        obtain ⟨rfl, -⟩ := List.cons.inj h
        exact absurd hother (by simp [hfirst])

private theorem not_isWhiteSpace_of_isAddressSafe {c : Char} (h : isAddressSafe c) : ¬ Text.isWhiteSpace c := by
  have hvisible : ∀ code < 127, 33 ≤ code → Text.whiteSpaceRanges.holds code = false := by decide
  have hcode : 33 ≤ c.toNat ∧ c.toNat < 127 := by
    rw [isAddressSafe, Bool.or_eq_true, List.contains_iff_mem] at h
    rcases h with hletter | hmark
    · delta Char.isAlphanum Char.isAlpha Char.isUpper Char.isLower Char.isDigit at hletter
      simp only [Bool.or_eq_true, Bool.and_eq_true, decide_eq_true_eq] at hletter
      have hbounds : 65 ≤ c.toNat ∧ c.toNat ≤ 90 ∨ 97 ≤ c.toNat ∧ c.toNat ≤ 122 ∨ 48 ≤ c.toNat ∧ c.toNat ≤ 57 := by
        rcases hletter with (hupper | hlower) | hdigit
        · exact .inl hupper
        · exact .inr (.inl hlower)
        · exact .inr (.inr hdigit)
      omega
    · have hmarks : ∀ mark ∈ "!#$%()*+,-./:;=?@_~".toList, 33 ≤ mark.toNat ∧ mark.toNat < 127 := by decide
      exact hmarks c hmark
  rw [Text.isWhiteSpace, hvisible c.toNat hcode.2 hcode.1]
  exact Bool.false_ne_true

private theorem not_isWhiteSpace_escaped {address : List Char} {first : Char} {rest : List Char}
    (h : address.flatMap escapeAddressChar = first :: rest) : ¬ Text.isWhiteSpace first := by
  cases address with
  | nil => cases h
  | cons c address =>
    rw [List.flatMap_cons] at h
    rcases escapeAddressChar_cases c with ⟨hstays, hsafe⟩ | ⟨other, behind, hescaped, hother⟩
    · rw [hstays] at h
      obtain ⟨rfl, -⟩ := List.cons.inj h
      exact not_isWhiteSpace_of_isAddressSafe hsafe
    · rw [hescaped] at h
      obtain ⟨rfl, -⟩ := List.cons.inj h
      rcases hother with rfl | rfl <;> decide

/-- Escaping makes no address run a script. -/
theorem not_runsScript_escapeAddress {address : String} (h : ¬ RunsScript address.toList) :
    ¬ RunsScript (escapeAddress address).toList := by
  intro ⟨blanks, start, rest, scheme, hescaped, hblanks, hscheme, hstart⟩
  rw [escapeAddress, String.toList_ofList] at hescaped
  apply h
  cases blanks with
  | cons blank blanks =>
    exact absurd (hblanks blank List.mem_cons_self) (not_isWhiteSpace_escaped hescaped)
  | nil =>
    have hletters : ∀ c ∈ start, c ≠ '&' ∧ c ≠ '%' := by
      intro c hc
      have hschemes : ∀ scheme ∈ unsafeSchemes, '&' ∉ scheme.toList ∧ '%' ∉ scheme.toList := by decide
      have hlower : c.toLower ∈ scheme.toList := hstart ▸ List.mem_map_of_mem hc
      constructor
      · intro hsame
        subst hsame
        exact (hschemes scheme hscheme).1 hlower
      · intro hsame
        subst hsame
        exact (hschemes scheme hscheme).2 hlower
    obtain ⟨behind, haddress⟩ := exists_start_of_escaped hletters hescaped
    exact ⟨[], start, behind, scheme, haddress, by simp, hscheme, hstart⟩

end SchemaDocs.Markdown
