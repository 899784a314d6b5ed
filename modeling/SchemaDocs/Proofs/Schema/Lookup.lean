import SchemaDocs.Proofs.Schema.Indices
import SchemaDocs.Proofs.Sequence

/-!
# Looking up names

In a registry without clashes a look-up by name finds the one entry that has it. A type name
resolves to a scalar if it is that of one, and otherwise to the message or enum that it names with
at most one dot in front; nothing else resolves.
-/

namespace SchemaDocs

/-- The two ways to refer to an entry by its qualified name: as it is, or with one dot in front. -/
def Entry.IsNamedBy (entry : Entry) (typeName : String) : Prop :=
  typeName = entry.qualifiedName ∨ typeName = "." ++ entry.qualifiedName

namespace Registry

variable {registry : Registry} {entry : Entry} {name typeName : String}

theorem get?_eq_some_iff (hregistry : registry.IsConsistent) :
    registry.get? name = some entry ↔
      entry ∈ registry.entries ∧ entry.kind ≠ .proto ∧ entry.qualifiedName = name := by
  rw [hregistry.get?_eq, find?_eq_some_iff_of_unique, Entry.isNamed_iff]
  intro a ha b hb hpa hpb
  obtain ⟨hkind, rfl⟩ := Entry.isNamed_iff.mp hpa
  obtain ⟨hother, hname⟩ := Entry.isNamed_iff.mp hpb
  exact hregistry.named.eq_of_clashes ha hb ⟨iff_of_false hkind hother, hname.symm⟩

theorem file?_eq_some_iff (hregistry : registry.IsConsistent) :
    registry.file? name = some entry ↔
      entry ∈ registry.entries ∧ entry.kind = .proto ∧ entry.qualifiedName = name := by
  rw [hregistry.file?_eq, find?_eq_some_iff_of_unique, Entry.isFile_iff]
  intro a ha b hb hpa hpb
  obtain ⟨hkind, rfl⟩ := Entry.isFile_iff.mp hpa
  obtain ⟨hother, hname⟩ := Entry.isFile_iff.mp hpb
  exact hregistry.named.eq_of_clashes ha hb ⟨iff_of_true hkind hother, hname.symm⟩

/-! ### The leading dot -/

private theorem undotted_dot (name : String) : undotted ("." ++ name) = name := by
  rw [undotted, show ("." ++ name).toList = '.' :: name.toList by simp]
  exact String.ofList_toList

theorem undotted_of_head?_ne (h : name.toList.head? ≠ some '.') : undotted name = name := by
  rw [undotted]
  split
  · rename_i heq
    exact absurd (by rw [heq]; rfl) h
  · rfl

theorem undotted_eq_iff (h : name.toList.head? ≠ some '.') :
    undotted typeName = name ↔ typeName = name ∨ typeName = "." ++ name := by
  constructor
  · intro heq
    rw [undotted] at heq
    split at heq
    · rename_i rest hrest
      right
      apply String.toList_injective
      rw [hrest, ← heq]
      simp
    · exact .inl heq
  · rintro (rfl | rfl)
    · exact undotted_of_head?_ne h
    · exact undotted_dot name

theorem undotted_eq_qualifiedName_iff {entries : List Entry} (hnamed : WellNamed entries) (hentry : entry ∈ entries)
    (hkind : entry.kind ≠ .proto) : undotted typeName = entry.qualifiedName ↔ entry.IsNamedBy typeName :=
  undotted_eq_iff ((hnamed.valid entry hentry).type hkind).head?_ne

/-! ### What a type name means -/

theorem resolve?_of_isScalar (hscalar : isScalar typeName) :
    registry.resolve? typeName = some (.scalar typeName) := by
  rw [resolve?, if_pos hscalar]

/-- What a name other than that of a scalar resolves to is a message or an enum that has this name. -/
theorem resolve?_eq_some_iff (hregistry : registry.IsConsistent) (hscalar : ¬ isScalar typeName)
    {type : TypeRef} :
    registry.resolve? typeName = some type ↔
      ∃ entry ∈ registry.entries, (entry.kind = .message ∨ entry.kind = .enum) ∧ entry.IsNamedBy typeName ∧
        type = .named entry.kind entry.qualifiedName := by
  rw [resolve?, if_neg hscalar]
  constructor
  · intro h
    split at h
    · cases h
    · rename_i entry hget
      obtain ⟨hentry, hproto, hname⟩ := (get?_eq_some_iff hregistry).mp hget
      have hby := (undotted_eq_qualifiedName_iff hregistry.named hentry hproto).mp hname.symm
      split at h
      · rename_i hkind
        exact ⟨entry, hentry, .inl hkind, hby, (Option.some.inj h).symm⟩
      · rename_i hkind
        exact ⟨entry, hentry, .inr hkind, hby, (Option.some.inj h).symm⟩
      · cases h
      · cases h
  · rintro ⟨entry, hentry, hkind, hby, rfl⟩
    have hproto : entry.kind ≠ .proto := by
      rcases hkind with h | h <;> simp [h]
    have hname := (undotted_eq_qualifiedName_iff hregistry.named hentry hproto).mpr hby
    rw [(get?_eq_some_iff hregistry).mpr ⟨hentry, hproto, hname.symm⟩]
    rcases hkind with h | h <;> simp [h]

end Registry

end SchemaDocs
