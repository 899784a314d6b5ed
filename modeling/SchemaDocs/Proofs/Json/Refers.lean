import SchemaDocs.Json.Value

/-!
# References in JSON

An object with a member `ref` refers to a document. `Refers` finds these objects anywhere in a
value, except for the free values that options hold.
-/

namespace SchemaDocs.Json

variable {key text : String} {value : Value} {items : List Value} {members rest found : List (String × Value)}

/-- An object within a value that refers to a document. -/
inductive Value.Refers : Value → List (String × Value) → Prop where
  | here {members : List (String × Value)} (href : (members.lookup "ref").isSome) : Refers (.object members) members
  | member {key : String} {value : Value} {members found : List (String × Value)} (hmember : (key, value) ∈ members)
      (hkey : key ≠ "options") (hvalue : Refers value found) : Refers (.object members) found
  | item {value : Value} {items : List Value} {found : List (String × Value)} (hitem : value ∈ items)
      (hvalue : Refers value found) : Refers (.array items) found

def RefersIn (members found : List (String × Value)) : Prop :=
  ∃ key value, (key, value) ∈ members ∧ key ≠ "options" ∧ value.Refers found

@[simp] theorem not_refers_string : ¬ (Value.string text).Refers found := by
  rintro ⟨⟩

@[simp] theorem not_refers_bool {flag : Bool} : ¬ (Value.bool flag).Refers found := by
  rintro ⟨⟩

@[simp] theorem not_refers_ofInt {n : Int} : ¬ (Value.ofInt n).Refers found := by
  rintro ⟨⟩

@[simp] theorem refers_array_iff : (Value.array items).Refers found ↔ ∃ value ∈ items, value.Refers found := by
  constructor
  · rintro ⟨⟩
    rename_i value hitem hvalue
    exact ⟨value, hitem, hvalue⟩
  · rintro ⟨value, hitem, hvalue⟩
    exact .item hitem hvalue

theorem refers_object_iff :
    (Value.object members).Refers found ↔ (members.lookup "ref").isSome ∧ found = members ∨ RefersIn members found := by
  constructor
  · intro h
    cases h with
    | here href => exact .inl ⟨href, rfl⟩
    | member hmember hkey hvalue => exact .inr ⟨_, _, hmember, hkey, hvalue⟩
  · rintro (⟨href, rfl⟩ | ⟨key, value, hmember, hkey, hvalue⟩)
    · exact .here href
    · exact .member hmember hkey hvalue

/-- An object without a member `ref` only refers through its members. -/
theorem refers_object_iff_of_ne (href : ∀ member ∈ members, member.1 ≠ "ref") :
    (Value.object members).Refers found ↔ RefersIn members found := by
  have hlookup : members.lookup "ref" = none := by
    rw [List.lookup_eq_none_iff]
    intro member hmember
    exact bne_iff_ne.mpr (href member hmember).symm
  rw [refers_object_iff, hlookup]
  simp

@[simp] theorem not_refersIn_nil : ¬ RefersIn [] found := by
  rintro ⟨_, _, hmember, -⟩
  cases hmember

@[simp] theorem refersIn_cons_iff :
    RefersIn ((key, value) :: rest) found ↔ key ≠ "options" ∧ value.Refers found ∨ RefersIn rest found := by
  constructor
  · rintro ⟨k, v, hmember, hkey, hvalue⟩
    rcases List.mem_cons.mp hmember with heq | hmember
    · cases heq
      exact .inl ⟨hkey, hvalue⟩
    · exact .inr ⟨k, v, hmember, hkey, hvalue⟩
  · rintro (⟨hkey, hvalue⟩ | ⟨k, v, hmember, hkey, hvalue⟩)
    · exact ⟨key, value, List.mem_cons_self, hkey, hvalue⟩
    · exact ⟨k, v, List.mem_cons_of_mem _ hmember, hkey, hvalue⟩

@[simp] theorem refersIn_append_iff :
    RefersIn (members ++ rest) found ↔ RefersIn members found ∨ RefersIn rest found := by
  simp only [RefersIn, List.mem_append, or_and_right, exists_or]

end SchemaDocs.Json
