import SchemaDocs.Proofs.Json.Refers
import SchemaDocs.Proofs.Reference.Rendered
import SchemaDocs.Proofs.Schema.Lookup
import SchemaDocs.Reference.Document

/-!
# Where the reference leads

Every link, type and import in a document of the reference that has a path leads to an entry of the
registry and shows its kind and name. The document of an entry shows the same.
-/

namespace SchemaDocs

open Json
open Markdown (Renderer)

variable {registry : Registry} {entry : Entry} {members found : List (String × Value)}

/-- The name in an object: the qualified one, if there is one. -/
def nameMember? (members : List (String × Value)) : Option Value :=
  (members.lookup "qualified_name").or (members.lookup "name")

/-- An object shows the kind and name of an entry. -/
structure Names (members : List (String × Value)) (entry : Entry) : Prop where
  kind : members.lookup "kind" = some (.string entry.kind.tag)
  name : nameMember? members = some (.string entry.qualifiedName)

/-- An object refers to the document of an entry and names this entry. -/
structure RefersTo (members : List (String × Value)) (entry : Entry) : Prop where
  ref : members.lookup "ref" = some (.string entry.path)
  names : Names members entry

/-! ### Links and types -/

/-- A link leads to an entry. -/
structure LinkView.LeadsTo (link : LinkView) (entry : Entry) : Prop where
  qualifiedName : link.qualifiedName = entry.qualifiedName
  kind : link.kind = entry.kind
  path : link.path = entry.path

/-- A type or an import leads to an entry. -/
structure TypeView.LeadsTo (type : TypeView) (entry : Entry) : Prop where
  name : type.name = entry.qualifiedName
  tag : type.tag = entry.kind.tag
  path : type.path = some entry.path

private theorem leadsTo_of_linkView {link : LinkView} (h : IsRendered (linkView entry) link) : link.LeadsTo entry := by
  obtain ⟨summary, -, h⟩ := exists_of_isRendered_bind h
  rw [isRendered_pure_iff] at h
  rw [h]
  exact ⟨rfl, rfl, rfl⟩

theorem leadsTo_of_linkViews {names : List String} {links : List LinkView}
    (h : IsRendered (linkViews registry names) links) : ∀ link ∈ links, ∃ entry ∈ registry.entries, link.LeadsTo entry := by
  intro link hlink
  obtain ⟨entry, hentry, hrendered⟩ := (exists_of_mem_forall₂ (forall₂_of_isRendered_mapM h)).1 link hlink
  obtain ⟨name, -, hget⟩ := List.mem_filterMap.mp hentry
  exact ⟨entry, Registry.mem_of_get? hget, leadsTo_of_linkView hrendered⟩

theorem leadsTo_of_parentView {parent : Option LinkView} (h : IsRendered (parentView registry entry) parent) :
    ∀ link ∈ parent, ∃ entry ∈ registry.entries, link.LeadsTo entry := by
  obtain ⟨links, hlinks, h⟩ := exists_of_isRendered_bind h
  rw [isRendered_pure_iff] at h
  intro link hlink
  rw [h] at hlink
  exact leadsTo_of_linkViews hlinks link (List.mem_of_mem_head? hlink)

theorem leadsTo_of_typeView {typeName : String} (h : (typeView registry typeName).path ≠ none) :
    ∃ entry ∈ registry.entries, (typeView registry typeName).LeadsTo entry := by
  rw [typeView] at h ⊢
  rw [Registry.resolve?] at h ⊢
  split at h
  · exact absurd rfl h
  · rename_i hscalar
    rw [if_neg hscalar]
    cases hget : registry.get? (Registry.undotted typeName) with
    | none =>
      rw [hget] at h
      exact absurd rfl h
    | some entry =>
      rw [hget] at h
      refine ⟨entry, Registry.mem_of_get? hget, ?_⟩
      -- only messages and enums are types
      cases hkind : entry.kind
      case proto | service =>
        simp only [hkind] at h
        exact absurd rfl h
      case message | enum =>
        simp only [hkind, Option.getD_some]
        exact ⟨rfl, by rw [hkind]; rfl, by rw [Entry.path, hkind]; rfl⟩

theorem leadsTo_of_importView (hregistry : registry.IsConsistent) {path : String}
    (h : (importView registry path).path ≠ none) :
    ∃ entry ∈ registry.entries, (importView registry path).LeadsTo entry := by
  rw [importView] at h ⊢
  cases hfile : registry.file? path with
  | none =>
    rw [hfile] at h
    exact absurd rfl h
  | some entry =>
    obtain ⟨hentry, hkind, hname⟩ := (Registry.file?_eq_some_iff hregistry).mp hfile
    refine ⟨entry, hentry, hname.symm, ?_, rfl⟩
    rw [hkind]

/-! ### Objects that refer -/

theorem refersTo_of_link {link : LinkView} (hleads : link.LeadsTo entry) (h : link.toJson.Refers found) :
    RefersTo found entry := by
  rw [LinkView.toJson, refers_object_iff] at h
  rcases h with ⟨-, rfl⟩ | h
  · refine ⟨?_, ?_, ?_⟩ <;> simp [nameMember?, List.lookup_cons, hleads.path, hleads.kind, hleads.qualifiedName]
  · simp at h

theorem refersTo_of_type {type : TypeView} (hleads : type.path ≠ none → ∃ entry ∈ registry.entries, type.LeadsTo entry)
    (h : type.toJson.Refers found) : ∃ entry ∈ registry.entries, RefersTo found entry := by
  rw [TypeView.toJson, refers_object_iff] at h
  cases hpath : type.path with
  | none => simp [textMember, hpath, List.lookup_cons] at h
  | some path =>
    obtain ⟨entry, hentry, hleads⟩ := hleads (by simp [hpath])
    rw [hleads.path] at h
    rcases h with ⟨-, rfl⟩ | h
    · refine ⟨entry, hentry, ⟨?_, ?_, ?_⟩⟩ <;>
        simp [textMember, nameMember?, List.lookup_cons, hleads.tag, hleads.name]
    · simp [textMember] at h

end SchemaDocs
