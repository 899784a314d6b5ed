import SchemaDocs.Proofs.Json.Numerals
import Mathlib.Data.List.Pairwise

/-!
# Exact values

A value is exact if it has no fractions, its integers fit 64 bits, and the members of its objects stand in the
order in which they are read. The depth of a value is the number of brackets around its innermost part.
-/

namespace SchemaDocs.Json

/-- A value that is kept as it is: without fractions, and with members in ascending order. -/
inductive Value.IsExact : Value → Prop where
  | null : IsExact .null
  | bool (flag : Bool) : IsExact (.bool flag)
  | integer {n : Int} (h : IsExactInteger n) : IsExact (.ofInt n)
  | string (text : String) : IsExact (.string text)
  | array {items : List Value} (h : ∀ item ∈ items, item.IsExact) : IsExact (.array items)
  | object {members : List (String × Value)} (horder : (members.map Prod.fst).Pairwise (· < ·))
      (h : ∀ member ∈ members, member.2.IsExact) : IsExact (.object members)

theorem Value.IsExact.isExactInteger {n : Int} (h : (Value.ofInt n).IsExact) : IsExactInteger n := by
  rw [Value.ofInt] at h
  generalize hvalue : Value.number (.integer n) = value at h
  cases h <;> simp_all [Value.ofInt]

mutual

/-- The number of arrays and objects that are open at once. -/
def Value.depth : Value → Nat
  | .null => 0
  | .bool _ => 0
  | .number _ => 0
  | .string _ => 0
  | .array items => Value.itemsDepth items + 1
  | .object members => Value.membersDepth members + 1

def Value.itemsDepth : List Value → Nat
  | [] => 0
  | item :: items => max item.depth (Value.itemsDepth items)

def Value.membersDepth : List (String × Value) → Nat
  | [] => 0
  | (_, value) :: members => max value.depth (Value.membersDepth members)

end

variable {value : Value} {items : List Value} {members done : List (String × Value)} {key : String} {depth : Nat}

private theorem Value.depth_le_itemsDepth (h : value ∈ items) : value.depth ≤ itemsDepth items := by
  induction items with
  | nil => cases h
  | cons item items ih =>
    rw [itemsDepth]
    rcases List.mem_cons.mp h with rfl | h
    · exact Nat.le_max_left _ _
    · exact Nat.le_trans (ih h) (Nat.le_max_right _ _)

private theorem Value.depth_le_membersDepth (h : (key, value) ∈ members) : value.depth ≤ membersDepth members := by
  induction members with
  | nil => cases h
  | cons member members ih =>
    rw [membersDepth]
    rcases List.mem_cons.mp h with rfl | h
    · exact Nat.le_max_left _ _
    · exact Nat.le_trans (ih h) (Nat.le_max_right _ _)

theorem Value.depth_le_of_array (hdepth : (Value.array items).depth ≤ depth) :
    0 < depth ∧ ∀ item ∈ items, item.depth ≤ depth - 1 := by
  rw [Value.depth] at hdepth
  refine ⟨by omega, fun item hitem => ?_⟩
  have hle := depth_le_itemsDepth hitem
  omega

theorem Value.depth_le_of_object (hdepth : (Value.object members).depth ≤ depth) :
    0 < depth ∧ ∀ member ∈ members, member.2.depth ≤ depth - 1 := by
  rw [Value.depth] at hdepth
  refine ⟨by omega, fun member hmember => ?_⟩
  have hle : member.2.depth ≤ membersDepth members := depth_le_membersDepth hmember
  omega

theorem insertMember_last (h : ∀ member ∈ done, member.1 < key) (value : Value) :
    insertMember key value done = done ++ [(key, value)] := by
  induction done with
  | nil => rfl
  | cons member done ih =>
    obtain ⟨hfirst, hothers⟩ := List.forall_mem_cons.mp h
    obtain ⟨k, v⟩ := member
    have hle : ¬ key < k := fun hless => String.lt_irrefl k (String.lt_trans hfirst hless)
    have hne : key ≠ k := fun heq => String.lt_irrefl k (heq ▸ hfirst)
    rw [insertMember, if_neg hle, if_neg hne, ih hothers, List.cons_append]

end SchemaDocs.Json
