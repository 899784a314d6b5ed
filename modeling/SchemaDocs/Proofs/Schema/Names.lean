import SchemaDocs.Schema.Registry
import SchemaDocs.Proofs.Text.Pieces
import Mathlib.Data.List.Pairwise
import Mathlib.Tactic.Tauto

/-!
# Names that a registry takes

Which names are valid, what is wrong with the others, and when two declarations want the same name.
Files have names of their own; messages, enums and services share one namespace. The later modules
reach the checks of the registry only through `Entry.nameFault?_eq_none_iff` and
`Entry.nameFault?_eq_some_iff`.
-/

namespace SchemaDocs

theorem Kind.tag_injective {left right : Kind} (h : left.tag = right.tag) : left = right := by
  cases left <;> cases right <;> first | rfl | exact absurd h (by decide)

/-- A name for a file: a relative path whose segments are names. -/
structure IsFileName (name : String) : Prop where
  nonempty : name ≠ ""
  relative : name.toList.head? ≠ some '/'
  noBackslash : '\\' ∉ name.toList
  segments : ∀ segment ∈ Text.pieces '/' name, segment ≠ "" ∧ segment ≠ "." ∧ segment ≠ ".."

/-- A qualified name for a message, an enum or a service. -/
structure IsTypeName (name : String) : Prop where
  segments : ∀ segment ∈ Text.pieces '.' name, segment ≠ ""
  noSlash : '/' ∉ name.toList
  noBackslash : '\\' ∉ name.toList

theorem fileNameFault?_eq_none_iff {name : String} : fileNameFault? name = none ↔ IsFileName name := by
  constructor
  · intro h
    simp only [fileNameFault?, Bool.or_eq_true, decide_eq_true_eq, List.contains_iff_mem,
      List.any_eq_true] at h
    split at h
    · cases h
    · rename_i hrelative
      rw [not_or] at hrelative
      split at h
      · cases h
      · rename_i hsegments
        have hnamed : ∀ segment ∈ Text.pieces '/' name, segment ≠ "" ∧ segment ≠ "." ∧ segment ≠ ".." := by
          intro segment hsegment
          by_contra hbad
          exact hsegments ⟨segment, hsegment, by tauto⟩
        refine ⟨?_, hrelative.1, hrelative.2, hnamed⟩
        rintro rfl
        exact (hnamed "" (by simp [Text.pieces])).1 rfl
  · intro h
    rw [fileNameFault?, if_neg, if_neg]
    · simp only [List.any_eq_true, Bool.or_eq_true, decide_eq_true_eq]
      rintro ⟨segment, hsegment, hbad⟩
      have := h.segments segment hsegment
      tauto
    · simp only [Bool.or_eq_true, decide_eq_true_eq, List.contains_iff_mem, not_or]
      exact ⟨h.relative, h.noBackslash⟩

theorem typeNameFault?_eq_none_iff {name : String} : typeNameFault? name = none ↔ IsTypeName name := by
  constructor
  · intro h
    simp only [typeNameFault?, Bool.or_eq_true, decide_eq_true_eq, List.any_eq_true] at h
    split at h
    · cases h
    · rename_i hsegments
      split at h
      · cases h
      · rename_i hletters
        exact ⟨fun segment hsegment hempty => hsegments ⟨segment, hsegment, hempty⟩,
          fun hslash => hletters ⟨_, hslash, .inl rfl⟩, fun hback => hletters ⟨_, hback, .inr rfl⟩⟩
  · intro h
    rw [typeNameFault?, if_neg, if_neg]
    · simp only [List.any_eq_true, Bool.or_eq_true, decide_eq_true_eq]
      rintro ⟨c, hc, rfl | rfl⟩
      · exact h.noSlash hc
      · exact h.noBackslash hc
    · simp only [List.any_eq_true, decide_eq_true_eq]
      rintro ⟨segment, hsegment, hempty⟩
      exact h.segments segment hsegment hempty

/-- A qualified name never begins with a dot: the segment before the dot would be empty. -/
theorem IsTypeName.head?_ne {name : String} (h : IsTypeName name) : name.toList.head? ≠ some '.' := by
  intro hhead
  obtain ⟨rest, hrest⟩ := List.head?_eq_some_iff.mp hhead
  refine h.segments "" ?_ rfl
  rw [Text.pieces, hrest, Text.splitChars_cons_self]
  exact List.mem_cons_self

namespace Entry

/-- The name that an entry would be registered under is one that its kind may have. -/
structure HasValidName (entry : Entry) : Prop where
  file : entry.kind = .proto → IsFileName entry.qualifiedName
  type : entry.kind ≠ .proto → IsTypeName entry.qualifiedName

/-- What is wrong with the name of an entry. Where two things are wrong, it is the first of them. -/
def HasFault (entry : Entry) : NameFault → Prop
  | .notRelative =>
    entry.kind = .proto ∧
      (entry.qualifiedName.toList.head? = some '/' ∨ '\\' ∈ entry.qualifiedName.toList)
  | .relativeSegment =>
    entry.kind = .proto ∧
      ¬ (entry.qualifiedName.toList.head? = some '/' ∨ '\\' ∈ entry.qualifiedName.toList) ∧
      ∃ segment ∈ Text.pieces '/' entry.qualifiedName, segment = "" ∨ segment = "." ∨ segment = ".."
  | .emptySegment => entry.kind ≠ .proto ∧ "" ∈ Text.pieces '.' entry.qualifiedName
  | .pathSeparator =>
    entry.kind ≠ .proto ∧ "" ∉ Text.pieces '.' entry.qualifiedName ∧
      ('/' ∈ entry.qualifiedName.toList ∨ '\\' ∈ entry.qualifiedName.toList)

/-- Two entries want the same name of the same namespace. -/
def Clashes (a b : Entry) : Prop := (a.kind = .proto ↔ b.kind = .proto) ∧ a.qualifiedName = b.qualifiedName

/-- What the check of its namespace finds wrong with the name of an entry. -/
def nameFault? (entry : Entry) : Option NameFault :=
  match entry.kind with
  | .proto => fileNameFault? entry.qualifiedName
  | _ => typeNameFault? entry.qualifiedName

theorem nameFault?_of_proto {entry : Entry} (h : entry.kind = .proto) :
    entry.nameFault? = fileNameFault? entry.qualifiedName := by
  rw [nameFault?, h]

theorem nameFault?_of_ne_proto {entry : Entry} (h : entry.kind ≠ .proto) :
    entry.nameFault? = typeNameFault? entry.qualifiedName := by
  rw [nameFault?]
  split
  · contradiction
  · rfl

theorem nameFault?_eq_none_iff {entry : Entry} : entry.nameFault? = none ↔ entry.HasValidName := by
  by_cases hkind : entry.kind = .proto
  · rw [nameFault?_of_proto hkind, fileNameFault?_eq_none_iff]
    exact ⟨fun h => ⟨fun _ => h, fun hne => absurd hkind hne⟩, fun h => h.file hkind⟩
  · rw [nameFault?_of_ne_proto hkind, typeNameFault?_eq_none_iff]
    exact ⟨fun h => ⟨fun heq => absurd heq hkind, fun _ => h⟩, fun h => h.type hkind⟩

theorem nameFault?_eq_some_iff {entry : Entry} {fault : NameFault} :
    entry.nameFault? = some fault ↔ entry.HasFault fault := by
  by_cases hkind : entry.kind = .proto
  · rw [nameFault?_of_proto hkind, fileNameFault?]
    simp only [Bool.or_eq_true, decide_eq_true_eq, List.contains_iff_mem, List.any_eq_true]
    split
    · cases fault <;> simp_all [HasFault]
    · split <;> cases fault <;> simp_all [HasFault, or_assoc]
  · rw [nameFault?_of_ne_proto hkind, typeNameFault?]
    simp only [Bool.or_eq_true, decide_eq_true_eq, List.any_eq_true, and_or_left, exists_or, exists_eq_right]
    split
    · cases fault <;> simp_all [HasFault]
    · split <;> cases fault <;> simp_all [HasFault]

end Entry

/-- Entries that a registry may hold side by side. -/
structure WellNamed (entries : List Entry) : Prop where
  valid : ∀ entry ∈ entries, entry.HasValidName
  distinct : entries.Pairwise fun a b => ¬ a.Clashes b

namespace WellNamed

theorem nil : WellNamed [] := ⟨fun _ hentry => absurd hentry List.not_mem_nil, .nil⟩

theorem append_singleton_iff {entries : List Entry} {entry : Entry} :
    WellNamed (entries ++ [entry]) ↔
      WellNamed entries ∧ entry.HasValidName ∧ ∀ earlier ∈ entries, ¬ earlier.Clashes entry := by
  constructor
  · intro ⟨hvalid, hdistinct⟩
    rw [List.pairwise_append] at hdistinct
    exact ⟨⟨fun e he => hvalid e (List.mem_append_left _ he), hdistinct.1⟩,
      hvalid entry (List.mem_append_right _ List.mem_cons_self),
      fun earlier hearlier => hdistinct.2.2 earlier hearlier entry List.mem_cons_self⟩
  · intro ⟨⟨hvalid, hdistinct⟩, hentry, hnew⟩
    refine ⟨?_, List.pairwise_append.mpr ⟨hdistinct, List.pairwise_singleton _ _, ?_⟩⟩
    · intro e he
      rcases List.mem_append.mp he with he | he
      · exact hvalid e he
      · obtain rfl := List.mem_singleton.mp he
        exact hentry
    · intro earlier hearlier e he
      obtain rfl := List.mem_singleton.mp he
      exact hnew earlier hearlier

theorem of_append_left {left right : List Entry} (h : WellNamed (left ++ right)) : WellNamed left :=
  ⟨fun e he => h.valid e (List.mem_append_left _ he), (List.pairwise_append.mp h.distinct).1⟩

/-- An entry is the only one of its name in its namespace. -/
theorem eq_of_clashes {entries : List Entry} (h : WellNamed entries) {a b : Entry} (ha : a ∈ entries)
    (hb : b ∈ entries) (hclash : a.Clashes b) : a = b := by
  by_contra hne
  have : Std.Symm fun a b : Entry => ¬ a.Clashes b := ⟨fun _ _ h hba => h ⟨hba.1.symm, hba.2.symm⟩⟩
  exact h.distinct.forall ha hb hne hclash

end WellNamed

end SchemaDocs
