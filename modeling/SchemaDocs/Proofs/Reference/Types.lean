import SchemaDocs.Proofs.Reference.Links
import SchemaDocs.Proofs.Schema.Outcome

/-!
# What the type of a field or method shows

In a schema that is registered every type name that a field or method uses is resolved, so that a
type is shown as a scalar only if its name is that of one. Any other type shows the one message or
enum that it names, and the types of a method are messages.
-/

namespace SchemaDocs

variable {schema : Schema} {registry : Registry} {typeName : String}

/-- What a view shows of a type name: the scalar, or the one declaration that is meant. -/
structure IsTypeView (schema : Schema) (typeName : String) (view : TypeView) : Prop where
  scalar_iff : view.tag = "scalar" ↔ isScalar typeName
  unlinked_iff : view.path = none ↔ isScalar typeName
  scalar : isScalar typeName → view.name = typeName
  leads : ¬ isScalar typeName → ∃ target, schema.Declares target ∧ (target.kind = .message ∨ target.kind = .enum) ∧
    target.IsNamedBy typeName ∧ view.LeadsTo target ∧
      ∀ other, schema.Declares other → other.kind ≠ .proto → other.IsNamedBy typeName → other = target

private theorem Schema.IsWellFormed.wellNamed (h : schema.IsWellFormed) : WellNamed schema.entries :=
  (Schema.isWellFormed_iff.mp h).1

private theorem Schema.IsWellFormed.eq_of_isNamedBy (h : schema.IsWellFormed) {left right : Entry}
    (hleft : schema.Declares left) (hright : schema.Declares right) (hleftKind : left.kind ≠ .proto)
    (hrightKind : right.kind ≠ .proto) (hleftName : left.IsNamedBy typeName) (hrightName : right.IsNamedBy typeName) :
    left = right := by
  have hnamed := h.wellNamed
  rw [← Schema.mem_entries_iff] at hleft hright
  have hleftEq := (Registry.undotted_eq_qualifiedName_iff hnamed hleft hleftKind).mpr hleftName
  have hrightEq := (Registry.undotted_eq_qualifiedName_iff hnamed hright hrightKind).mpr hrightName
  exact hnamed.eq_of_clashes hleft hright ⟨iff_of_false hleftKind hrightKind, hleftEq.symm.trans hrightEq⟩

private theorem ne_proto_of_isType {entry : Entry} (h : entry.kind = .message ∨ entry.kind = .enum) :
    entry.kind ≠ .proto := by
  rcases h with h | h <;> simp [h]

theorem isTypeView_typeView (hregistry : Registry.build schema = .ok registry)
    (htype : schema.Satisfies typeName .anyType) :
    registry.resolve? typeName ≠ none ∧ IsTypeView schema typeName (typeView registry typeName) := by
  have hschema := (Registry.build_eq_ok_iff.mp hregistry).1
  by_cases hscalar : isScalar typeName
  · have hresolve : registry.resolve? typeName = some (.scalar typeName) := Registry.resolve?_of_isScalar hscalar
    have hview : typeView registry typeName = ⟨typeName, "scalar", none⟩ := by
      rw [typeView, hresolve]
      rfl
    rw [hresolve, hview]
    exact ⟨Option.some_ne_none _, iff_of_true rfl hscalar, iff_of_true rfl hscalar, fun _ => rfl, fun h => absurd hscalar h⟩
  · obtain ⟨target, htarget, hkind, hby⟩ := htype.resolve_left hscalar
    have hresolve : registry.resolve? typeName = some (.named target.kind target.qualifiedName) :=
      (Registry.resolve?_eq_some_iff (Registry.isConsistent_of_build hregistry) hscalar).mpr
        ⟨target, by rw [Registry.entries_of_build hregistry]; exact Schema.mem_entries_iff.mpr htarget, hkind, hby, rfl⟩
    have hview : typeView registry typeName = ⟨target.qualifiedName, target.kind.tag, some target.path⟩ := by
      rw [typeView, hresolve]
      rfl
    have htag : target.kind.tag ≠ "scalar" := by
      cases target.kind <;> decide
    rw [hresolve, hview]
    refine ⟨Option.some_ne_none _, iff_of_false htag hscalar, iff_of_false (Option.some_ne_none _) hscalar,
      fun h => absurd h hscalar, fun _ => ⟨target, htarget, hkind, hby, ⟨rfl, rfl, rfl⟩, ?_⟩⟩
    intro other hother hotherKind hotherBy
    exact hschema.eq_of_isNamedBy hother htarget hotherKind (ne_proto_of_isType hkind) hotherBy hby

/-- The type of a method is a message. -/
theorem isTypeView_typeView_of_messageType (hregistry : Registry.build schema = .ok registry)
    (htype : schema.Satisfies typeName .messageType) :
    registry.resolve? typeName ≠ none ∧ IsTypeView schema typeName (typeView registry typeName) ∧
      (typeView registry typeName).tag = "message" := by
  obtain ⟨hscalar, entry, hentry, hkind, hby⟩ := htype
  obtain ⟨hresolves, hview⟩ := isTypeView_typeView hregistry (.inr ⟨entry, hentry, .inl hkind, hby⟩)
  obtain ⟨target, htarget, htargetKind, htargetBy, hleads, hunique⟩ := hview.leads hscalar
  refine ⟨hresolves, hview, ?_⟩
  rw [hleads.tag, ← hunique entry hentry (ne_proto_of_isType (.inl hkind)) hby, hkind]
  rfl

end SchemaDocs
