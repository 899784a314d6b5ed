import SchemaDocs.Proofs.Reference.Rendered
import SchemaDocs.Reference.Document

/-!
# What a renderer keeps

A renderer answers from what it has kept. A new one has kept nothing, and what is rendered is kept as it
is, so that a renderer answers as a new one of its limit would. All views are made in steps of this kind:
they do not depend on what was rendered before them.
-/

namespace SchemaDocs

open Markdown (Renderer Rendered)

/-- A renderer of a limit has kept only what it would render anew. -/
structure Markdown.Renderer.IsFaithful (renderer : Renderer) (limit : Nat) : Prop where
  limit_eq : renderer.limit = limit
  kept : ∀ text rendered, renderer.cache.lookup text = some rendered → rendered = .ofText limit text

/-- A rendering gives one value with all faithful renderers of a limit, and leaves them faithful. -/
def IsDetermined {α : Type} (limit : Nat) (rendering : StateM Renderer α) : Prop :=
  ∃ value, ∀ renderer : Renderer, renderer.IsFaithful limit →
    (rendering renderer).1 = value ∧ (rendering renderer).2.IsFaithful limit

namespace Markdown.Renderer

variable {limit : Nat} {renderer : Renderer}

theorem isFaithful_new (limit : Nat) : IsFaithful { limit } limit := ⟨rfl, nofun⟩

/-- A text is rendered as it is by itself, and kept so. -/
theorem IsFaithful.rendered (h : renderer.IsFaithful limit) (text : String) :
    (renderer.rendered text).1 = .ofText limit text ∧ (renderer.rendered text).2.IsFaithful limit := by
  rw [Renderer.rendered]
  cases hlookup : renderer.cache.lookup text with
  | some rendered => exact ⟨h.kept text rendered hlookup, h⟩
  | none =>
    refine ⟨congrArg (Rendered.ofText · text) h.limit_eq, h.limit_eq, fun other rendered hother => ?_⟩
    rw [List.lookup_cons] at hother
    split at hother
    · rename_i hsame
      rw [← Option.some.inj hother, beq_iff_eq.mp hsame, h.limit_eq]
    · exact h.kept other rendered hother

end Markdown.Renderer

namespace IsDetermined

variable {α β : Type} {limit : Nat}

/-- Any faithful renderer gives what a new one gives. -/
theorem eq_new {rendering : StateM Renderer α} {renderer : Renderer} (h : IsDetermined limit rendering)
    (hrenderer : renderer.IsFaithful limit) : (rendering renderer).1 = (rendering { limit }).1 := by
  obtain ⟨value, hvalue⟩ := h
  rw [(hvalue _ hrenderer).1, (hvalue _ (Renderer.isFaithful_new limit)).1]

theorem pure (value : α) : IsDetermined limit (Pure.pure value) := ⟨value, fun _ h => ⟨rfl, h⟩⟩

theorem bind {first : StateM Renderer α} {next : α → StateM Renderer β} (hfirst : IsDetermined limit first)
    (hnext : ∀ value, IsDetermined limit (next value)) : IsDetermined limit (first >>= next) := by
  obtain ⟨value, hvalue⟩ := hfirst
  obtain ⟨result, hresult⟩ := hnext value
  refine ⟨result, fun renderer h => ?_⟩
  obtain ⟨hgiven, hmiddle⟩ := hvalue renderer h
  have hlast := hresult (first renderer).2 hmiddle
  rw [← hgiven] at hlast
  exact hlast

theorem map {rendering : StateM Renderer α} (h : IsDetermined limit rendering) (view : α → β) :
    IsDetermined limit (view <$> rendering) := by
  rw [map_eq_pure_bind]
  exact h.bind fun _ => pure _

theorem mapM {rendering : α → StateM Renderer β} (h : ∀ item, IsDetermined limit (rendering item)) (items : List α) :
    IsDetermined limit (items.mapM rendering) := by
  induction items with
  | nil => exact pure []
  | cons item items ih =>
    rw [List.mapM_cons]
    exact (h item).bind fun _ => ih.bind fun _ => pure _

/-! ### Views -/

theorem render (text : String) : IsDetermined limit (Renderer.render text) :=
  ⟨_, fun _ h => ⟨congrArg Rendered.html (h.rendered text).1, (h.rendered text).2⟩⟩

theorem renderComment (comment : Option String) : IsDetermined limit (Renderer.renderComment comment) := by
  cases comment with
  | none => exact pure ""
  | some text => exact render text

theorem summarizeComment (comment : Option String) : IsDetermined limit (Renderer.summarizeComment comment) := by
  cases comment with
  | none => exact pure ""
  | some text => exact ⟨_, fun _ h => ⟨congrArg Rendered.summary (h.rendered text).1, (h.rendered text).2⟩⟩

private theorem linkViews (registry : Registry) (names : List String) :
    IsDetermined limit (SchemaDocs.linkViews registry names) :=
  mapM (fun _ => (summarizeComment _).bind fun _ => pure _) _

private theorem parentView (registry : Registry) (entry : Entry) :
    IsDetermined limit (SchemaDocs.parentView registry entry) :=
  (linkViews registry _).bind fun _ => pure _

theorem indexView (registry : Registry) (schemaName title : String) :
    IsDetermined limit (SchemaDocs.indexView registry schemaName title) :=
  (mapM (fun _ => (summarizeComment _).bind fun _ => pure _) _).bind fun _ => pure _

private theorem messageView (registry : Registry) (entry : Entry) (message : Message) :
    IsDetermined limit (SchemaDocs.messageView registry entry message) :=
  (parentView registry entry).bind fun _ => (renderComment _).bind fun _ =>
    (mapM (fun _ => (renderComment _).bind fun _ => pure _) _).bind fun _ =>
      (linkViews registry _).bind fun _ => (linkViews registry _).bind fun _ => pure _

private theorem enumView (registry : Registry) (entry : Entry) (type : EnumType) :
    IsDetermined limit (SchemaDocs.enumView registry entry type) :=
  (parentView registry entry).bind fun _ => (renderComment _).bind fun _ =>
    (mapM (fun _ => (renderComment _).bind fun _ => pure _) _).bind fun _ => pure _

private theorem serviceView (registry : Registry) (entry : Entry) (service : Service) :
    IsDetermined limit (SchemaDocs.serviceView registry entry service) :=
  (renderComment _).bind fun _ => (mapM (fun _ => (renderComment _).bind fun _ => pure _) _).bind fun _ => pure _

private theorem fileView (registry : Registry) (entry : Entry) (file : ProtoFile) :
    IsDetermined limit (SchemaDocs.fileView registry entry file) :=
  (renderComment _).bind fun _ => (linkViews registry _).bind fun _ => (linkViews registry _).bind fun _ =>
    (linkViews registry _).bind fun _ => pure _

/-- The document of an entry is the same whatever was rendered before it. -/
theorem entryDocument (registry : Registry) (entry : Entry) :
    IsDetermined limit (SchemaDocs.entryDocument registry entry) := by
  rw [SchemaDocs.entryDocument]
  cases entry.declaration with
  | file file => exact (fileView registry entry file).map _
  | message message => exact (messageView registry entry message).map _
  | enum type => exact (enumView registry entry type).map _
  | service service => exact (serviceView registry entry service).map _

end IsDetermined

end SchemaDocs
