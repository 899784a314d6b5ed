import SchemaDocs.Markdown.Renderer
import SchemaDocs.Proofs.Sequence

/-!
# What is rendered

A view is made with a renderer that has kept some texts already. Which texts these are is left open
here: what is said of a rendered value holds whatever the renderer did before.
-/

namespace SchemaDocs

open Markdown (Renderer)

variable {α β : Type} {value : α} {result : β}

/-- A value that a rendering gives with some renderer. -/
def IsRendered (rendering : StateM Renderer α) (value : α) : Prop := ∃ before after, rendering before = (value, after)

theorem isRendered_pure_iff {given : α} : IsRendered (pure given) value ↔ value = given := by
  constructor
  · rintro ⟨before, after, h⟩
    exact (Prod.mk.inj h).1.symm
  · rintro rfl
    exact ⟨{}, {}, rfl⟩

theorem exists_of_isRendered_bind {first : StateM Renderer α} {next : α → StateM Renderer β}
    (h : IsRendered (first >>= next) result) : ∃ value, IsRendered first value ∧ IsRendered (next value) result := by
  obtain ⟨before, after, h⟩ := h
  exact ⟨(first before).1, ⟨before, (first before).2, rfl⟩, (first before).2, after, h⟩

theorem exists_of_isRendered_map {rendering : StateM Renderer α} {view : α → β}
    (h : IsRendered (view <$> rendering) result) : ∃ value, IsRendered rendering value ∧ result = view value := by
  rw [map_eq_pure_bind] at h
  obtain ⟨value, hvalue, h⟩ := exists_of_isRendered_bind h
  exact ⟨value, hvalue, isRendered_pure_iff.mp h⟩

theorem forall₂_of_isRendered_mapM {items : List α} {rendering : α → StateM Renderer β} {values : List β}
    (h : IsRendered (items.mapM rendering) values) :
    List.Forall₂ (fun item value => IsRendered (rendering item) value) items values := by
  induction items generalizing values with
  | nil =>
    rw [List.mapM_nil, isRendered_pure_iff] at h
    rw [h]
    exact .nil
  | cons item items ih =>
    rw [List.mapM_cons] at h
    obtain ⟨first, hfirst, h⟩ := exists_of_isRendered_bind h
    obtain ⟨rest, hrest, h⟩ := exists_of_isRendered_bind h
    rw [isRendered_pure_iff] at h
    rw [h]
    exact .cons hfirst (ih hrest)

end SchemaDocs
