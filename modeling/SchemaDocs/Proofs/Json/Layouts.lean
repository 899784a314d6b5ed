import SchemaDocs.Proofs.Json.Exact
import SchemaDocs.Proofs.Json.Reading

/-!
# Layouts

Both ways to write a value follow the grammar: an array is written as the array of what is written for its items,
one level deeper, and an object likewise. What is read of a written value is shown for all layouts at once.
-/

namespace SchemaDocs.Json

/-- A way to write values, where the texts of arrays and objects hold those of their parts. -/
structure IsLayout (write : (level : Nat) → Value → List Char) : Prop where
  null (level : Nat) : write level .null = ['n', 'u', 'l', 'l']
  true (level : Nat) : write level (.bool true) = ['t', 'r', 'u', 'e']
  false (level : Nat) : write level (.bool false) = ['f', 'a', 'l', 's', 'e']
  integer (level : Nat) (n : Int) : write level (.ofInt n) = (toString n).toList
  string (level : Nat) (text : String) : write level (.string text) = (quote text).toList
  array (level : Nat) (items : List Value) : IsArray (items.map (write (level + 1))) (write level (.array items))
  object (level : Nat) (members : List (String × Value)) :
    IsObject (memberTexts (members.map fun member => (member.1, write (level + 1) member.2))) (write level (.object members))

/-! ### Rows of written items -/

section

variable {before between after : List Char}

private theorem intercalate_comma (item : List Char) (items : List (List Char)) :
    [','].intercalate (item :: items) = item ++ items.flatMap (',' :: ·) := by
  induction items generalizing item with
  | nil => simp
  | cons next items ih =>
    rw [List.intercalate_cons_cons, ih, List.flatMap_cons]
    simp

private theorem isRest_of_flatMap (hbefore : AreBlanks before) (hafter : AreBlanks after) (items : List (List Char)) :
    IsRest items (items.flatMap (fun item => ',' :: (before ++ item)) ++ after) := by
  induction items with
  | nil => exact .nil hafter
  | cons item items ih =>
    have h : IsRest (item :: items) ([] ++ ',' :: (before ++ (item ++ _))) := .cons areBlanks_nil hbefore ih
    simpa using h

private theorem isRow_of_intercalate (hbefore : AreBlanks before) (hafter : AreBlanks after)
    (items : List (List Char)) :
    IsRow items ([','].intercalate (items.map (before ++ ·)) ++ after) := by
  cases items with
  | nil => exact .nil hafter
  | cons item items =>
    have h : IsRow (item :: items) (before ++ (item ++ _)) := .cons hbefore (isRest_of_flatMap hbefore hafter items)
    rw [List.map_cons, intercalate_comma, List.flatMap_map]
    simpa using h

private theorem isMember_of_blanks (key value : List Char) (hbetween : AreBlanks between) :
    IsMember key value (key ++ ':' :: (between ++ value)) := .mk areBlanks_nil hbetween

private theorem isObject_of_intercalate (hbefore : AreBlanks before) (hbetween : AreBlanks between)
    (hafter : AreBlanks after) (entries : List (String × List Char)) :
    IsObject (memberTexts entries) ('\x7b' :: ([','].intercalate
      (entries.map fun entry => before ++ ((quote entry.1).toList ++ ':' :: (between ++ entry.2))) ++ after ++ ['\x7d'])) := by
  have hrow := isRow_of_intercalate hbefore hafter
    (entries.map fun entry => (quote entry.1).toList ++ ':' :: (between ++ entry.2))
  rw [List.map_map] at hrow
  refine ⟨_, _, ?_, hrow, rfl⟩
  rw [memberTexts, List.forall₂_map_left_iff, List.forall₂_map_right_iff, List.forall₂_same]
  intro entry _
  dsimp only
  exact isMember_of_blanks (quote entry.1).toList entry.2 hbetween

theorem isArray_of_items (items : List (List Char)) : IsArray items ('[' :: ([','].intercalate items ++ [']'])) := by
  have hrow := isRow_of_intercalate areBlanks_nil areBlanks_nil items
  exact ⟨_, hrow, by simp⟩

theorem isObject_of_entries (entries : List (String × List Char)) :
    IsObject (memberTexts entries) ('\x7b' :: ([','].intercalate
      (entries.map fun entry => (quote entry.1).toList ++ ':' :: entry.2) ++ ['\x7d'])) := by
  have hobject := isObject_of_intercalate areBlanks_nil areBlanks_nil areBlanks_nil entries
  simpa using hobject

end

/-! ### On one line -/

theorem compactItems_eq (items : List Value) : Value.compactItems items = items.map Value.compact := by
  induction items with
  | nil => rw [Value.compactItems, List.map_nil]
  | cons item items ih => rw [Value.compactItems, ih, List.map_cons]

theorem compactMembers_eq (members : List (String × Value)) :
    Value.compactMembers members = members.map fun member => quote member.1 ++ ":" ++ member.2.compact := by
  induction members with
  | nil => rw [Value.compactMembers, List.map_nil]
  | cons member members ih => rw [Value.compactMembers, ih, List.map_cons]

theorem isLayout_compact : IsLayout fun _ value => value.compact.toList where
  null _ := by rw [Value.compact]; rfl
  true _ := by rw [Value.compact]; rfl
  false _ := by rw [Value.compact]; rfl
  integer _ n := by rw [Value.ofInt, Value.compact, Number.text]
  string _ text := by rw [Value.compact]
  array _ items := by
    have harray := isArray_of_items (items.map fun item => item.compact.toList)
    rw [Value.compact, compactItems_eq]
    simpa [Function.comp_def] using harray
  object _ members := by
    have hobject := isObject_of_entries (members.map fun member => (member.1, member.2.compact.toList))
    rw [Value.compact, compactMembers_eq]
    simpa [Function.comp_def] using hobject

/-! ### Over several lines -/

private theorem areBlanks_newline (level : Nat) : AreBlanks (newline level).toList := by
  rw [newline, String.toList_append]
  refine areBlanks_append (areBlanks_singleton (by decide)) fun c hc => ?_
  rw [String.toList_ofList] at hc
  obtain rfl := List.eq_of_mem_replicate hc
  decide

theorem prettyItems_eq (level : Nat) (items : List Value) :
    Value.prettyItems level items = items.map fun item => newline level ++ item.prettyAt level := by
  induction items with
  | nil => rw [Value.prettyItems, List.map_nil]
  | cons item items ih => rw [Value.prettyItems, ih, List.map_cons]

theorem prettyMembers_eq (level : Nat) (members : List (String × Value)) :
    Value.prettyMembers level members =
      members.map fun member => newline level ++ quote member.1 ++ ": " ++ member.2.prettyAt level := by
  induction members with
  | nil => rw [Value.prettyMembers, List.map_nil]
  | cons member members ih => rw [Value.prettyMembers, ih, List.map_cons]

theorem isLayout_pretty : IsLayout fun level value => (value.prettyAt level).toList where
  null _ := by rw [Value.prettyAt]; rfl
  true _ := by rw [Value.prettyAt]; rfl
  false _ := by rw [Value.prettyAt]; rfl
  integer _ n := by rw [Value.ofInt, Value.prettyAt, Number.text]
  string _ text := by rw [Value.prettyAt]
  array level items := by
    cases items with
    | nil =>
      rw [Value.prettyAt]
      exact ⟨[], .nil areBlanks_nil, rfl⟩
    | cons item items =>
      have hrow := isRow_of_intercalate (areBlanks_newline (level + 1)) (areBlanks_newline level)
        ((item :: items).map fun item => (item.prettyAt (level + 1)).toList)
      refine ⟨_, hrow, ?_⟩
      rw [Value.prettyAt, prettyItems_eq]
      simp [Function.comp_def, -String.intercalate_cons_append]
  object level members := by
    cases members with
    | nil =>
      rw [Value.prettyAt]
      exact ⟨[], [], .nil, .nil areBlanks_nil, rfl⟩
    | cons member members =>
      have hobject := isObject_of_intercalate (areBlanks_newline (level + 1)) (areBlanks_singleton (c := ' ') (by decide))
        (areBlanks_newline level)
        ((member :: members).map fun member => (member.1, (member.2.prettyAt (level + 1)).toList))
      rw [Value.prettyAt, prettyMembers_eq]
      simpa [Function.comp_def, -String.intercalate_cons_append] using hobject

end SchemaDocs.Json
