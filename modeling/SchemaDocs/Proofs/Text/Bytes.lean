import Mathlib.Data.String.Basic
import Mathlib.Data.UInt
import Mathlib.Tactic.SplitIfs

/-!
# The bytes of a text

The order of two texts is that of their bytes, since UTF-8 keeps the order of characters: the code of a
smaller one has a smaller byte at the first place where the codes differ.
-/

namespace SchemaDocs.Text

def bytes (text : String) : List UInt8 := text.toUTF8.data.toList

private theorem bytes_eq_flatMap (text : String) : bytes text = text.toList.flatMap String.utf8EncodeChar := by
  rw [bytes, String.toUTF8, ← String.utf8Encode_toList, List.utf8Encode, List.data_toByteArray]

private theorem encode_append_lt {c d : Char} (h : c < d) (left right : List UInt8) :
    String.utf8EncodeChar c ++ left < String.utf8EncodeChar d ++ right := by
  have hlt : c.val.toNat < d.val.toNat := h
  have hmax : d.val.toNat < 1114112 := by
    rcases d.valid with h | h
    · exact h.trans (by decide)
    · exact h.2
  have hc : c.val.toNat / 262144 < 8 := by omega
  have hd : d.val.toNat / 262144 < 8 := by omega
  simp only [String.utf8EncodeChar]
  -- One case for each pair of lengths; a longer code begins with a greater byte.
  split_ifs <;>
    simp (disch := omega) only [List.cons_append, List.nil_append, List.cons_lt_cons_iff, UInt8.lt_iff_toNat_lt,
      ← UInt8.toNat_inj, UInt8.toNat_ofNat', Nat.reducePow, Nat.mod_eq_of_lt] <;>
    omega

theorem encodes_lt {left right : List Char} (h : left < right) :
    left.flatMap String.utf8EncodeChar < right.flatMap String.utf8EncodeChar := by
  induction left generalizing right with
  | nil =>
    cases right with
    | nil => exact absurd h (List.not_lt_nil [])
    | cons d right =>
      have hne : String.utf8EncodeChar d ≠ [] := by
        rw [← List.length_pos_iff, String.length_utf8EncodeChar]
        exact d.utf8Size_pos
      obtain ⟨b, code, hcode⟩ := List.exists_cons_of_ne_nil hne
      rw [List.flatMap_nil, List.flatMap_cons, hcode]
      exact List.nil_lt_cons b _
  | cons c left ih =>
    cases right with
    | nil => exact absurd h (List.not_lt_nil _)
    | cons d right =>
      rw [List.flatMap_cons, List.flatMap_cons]
      rcases List.cons_lt_cons_iff.mp h with hlt | ⟨rfl, hrest⟩
      · exact encode_append_lt hlt _ _
      · exact List.append_left_lt (ih hrest)

theorem bytes_lt_bytes {left right : String} (h : left < right) : bytes left < bytes right := by
  rw [bytes_eq_flatMap, bytes_eq_flatMap]
  exact encodes_lt h

theorem bytes_lt_iff {left right : String} : bytes left < bytes right ↔ left < right := by
  refine ⟨fun h => ?_, bytes_lt_bytes⟩
  rcases lt_trichotomy left right with hlt | rfl | hgt
  · exact hlt
  · exact absurd h (List.lt_irrefl _)
  · exact absurd (List.lt_trans h (bytes_lt_bytes hgt)) (List.lt_irrefl _)

theorem bytes_append (left right : String) : bytes (left ++ right) = bytes left ++ bytes right := by
  rw [bytes_eq_flatMap, bytes_eq_flatMap, bytes_eq_flatMap, String.toList_append, List.flatMap_append]

end SchemaDocs.Text
