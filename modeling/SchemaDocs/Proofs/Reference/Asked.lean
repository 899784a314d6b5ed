import Mathlib.Data.Finset.Card
import Mathlib.Data.List.Perm.Basic
import SchemaDocs.Proofs.Reference.Faithful

/-!
# What a renderer is asked

A view asks its renderer for comments, one behind the other. Which comments these are does not depend on
the answers, so that the renderer behind a view is the one before it once it has been asked for them. How
many texts it has kept then is a matter of which texts they are, and not of their order.
-/

namespace SchemaDocs

open Markdown (Renderer Rendered)

namespace Markdown.Renderer

variable {limit : Nat} {renderer : Renderer} {texts left right : List String}

def kept (renderer : Renderer) : List String := renderer.cache.map Prod.fst

/-- A renderer once it has been asked for texts in turn. -/
def asked (renderer : Renderer) (texts : List String) : Renderer :=
  texts.foldl (fun renderer text => (renderer.rendered text).2) renderer

theorem asked_append (renderer : Renderer) (left right : List String) :
    renderer.asked (left ++ right) = (renderer.asked left).asked right := List.foldl_append

theorem IsFaithful.asked (h : renderer.IsFaithful limit) (texts : List String) :
    (renderer.asked texts).IsFaithful limit := by
  induction texts generalizing renderer with
  | nil => exact h
  | cons text texts ih => exact ih (h.rendered text).2

theorem lookup_eq_none_iff (text : String) : renderer.cache.lookup text = none ↔ text ∉ renderer.kept := by
  rw [List.lookup_eq_none_iff, kept, List.mem_map]
  constructor
  · rintro h ⟨entry, hentry, rfl⟩
    exact absurd (h entry hentry) (by simp)
  · intro h entry hentry
    rw [bne_iff_ne]
    rintro rfl
    exact h ⟨entry, hentry, rfl⟩

private theorem rendered_of_mem {text : String} (h : text ∈ renderer.kept) : (renderer.rendered text).2 = renderer := by
  rw [rendered]
  cases hlookup : renderer.cache.lookup text with
  | some rendered => rfl
  | none => exact absurd h ((lookup_eq_none_iff text).mp hlookup)

private theorem rendered_of_not_mem {text : String} (h : text ∉ renderer.kept) :
    (renderer.rendered text).2.kept = text :: renderer.kept ∧
      (renderer.rendered text).2.renders = renderer.renders + 1 := by
  rw [rendered, (lookup_eq_none_iff text).mpr h]
  exact ⟨rfl, rfl⟩

/-- Of the texts that a renderer is asked for, it renders the new ones once. -/
theorem counts_asked (renderer : Renderer) (texts : List String) :
    (renderer.asked texts).cached = renderer.cached + (texts.toFinset \ renderer.kept.toFinset).card ∧
      (renderer.asked texts).renders = renderer.renders + (texts.toFinset \ renderer.kept.toFinset).card := by
  have hcached (renderer : Renderer) : renderer.cached = renderer.kept.length := by
    rw [cached, kept, List.length_map]
  simp only [hcached]
  induction texts generalizing renderer with
  | nil => simp [asked]
  | cons text texts ih =>
    have hasked : renderer.asked (text :: texts) = (renderer.rendered text).2.asked texts := rfl
    rw [hasked, List.toFinset_cons]
    by_cases htext : text ∈ renderer.kept
    · rw [rendered_of_mem htext, Finset.insert_sdiff_of_mem _ (List.mem_toFinset.mpr htext)]
      exact ih renderer
    · obtain ⟨hkept, hrenders⟩ := rendered_of_not_mem htext
      have hnew : (insert text texts.toFinset \ renderer.kept.toFinset).card =
          (texts.toFinset \ (renderer.rendered text).2.kept.toFinset).card + 1 := by
        have hapart : insert text texts.toFinset \ renderer.kept.toFinset =
            insert text (texts.toFinset \ insert text renderer.kept.toFinset) := by
          ext other
          by_cases hother : other = text <;> simp [hother, htext]
        rw [hkept, List.toFinset_cons, hapart, Finset.card_insert_of_notMem (by simp)]
      obtain ⟨hlength, hcount⟩ := ih (renderer.rendered text).2
      rw [hlength, hcount, hnew, hkept, hrenders, List.length_cons]
      omega

/-- The order of texts does not matter to how many of them are kept and rendered. -/
theorem counts_asked_of_perm (h : left.Perm right) (renderer : Renderer) :
    (renderer.asked left).cached = (renderer.asked right).cached ∧
      (renderer.asked left).renders = (renderer.asked right).renders := by
  obtain ⟨hleftCached, hleftRenders⟩ := counts_asked renderer left
  obtain ⟨hrightCached, hrightRenders⟩ := counts_asked renderer right
  rw [hleftCached, hleftRenders, hrightCached, hrightRenders, List.toFinset_eq_of_perm _ _ h]
  exact ⟨rfl, rfl⟩

end Markdown.Renderer

/-! ### Views -/

/-- A rendering asks for these texts in turn, and for nothing else. -/
def Asks {α : Type} (rendering : StateM Renderer α) (texts : List String) : Prop :=
  ∀ renderer : Renderer, (rendering renderer).2 = renderer.asked texts

def Registry.linkTexts (registry : Registry) (names : List String) : List String :=
  (names.filterMap registry.get?).flatMap (·.comment.toList)

def Registry.indexTexts (registry : Registry) : List String := registry.entries.flatMap (·.comment.toList)

/-- The comments behind the document of an entry: those of the declaration and its parts, and those of
the declarations that it links to. -/
def Entry.texts (registry : Registry) (entry : Entry) : List String :=
  match entry.declaration with
  | .file file =>
    file.comment.toList ++ (registry.linkTexts (file.messages.map fun m => file.scope ++ m.name) ++
      (registry.linkTexts (file.enums.map fun e => file.scope ++ e.name) ++
        registry.linkTexts (file.services.map fun s => file.scope ++ s.name)))
  | .message message =>
    registry.linkTexts entry.parent.toList ++ (message.comment.toList ++
      (message.fields.flatMap (·.comment.toList) ++
        (registry.linkTexts (message.messages.map fun m => entry.qualifiedName ++ "." ++ m.name) ++
          registry.linkTexts (message.enums.map fun e => entry.qualifiedName ++ "." ++ e.name))))
  | .enum type =>
    registry.linkTexts entry.parent.toList ++ (type.comment.toList ++ type.constants.flatMap (·.comment.toList))
  | .service service => service.comment.toList ++ service.methods.flatMap (·.comment.toList)

namespace Asks

variable {α β : Type} {texts more : List String}

private theorem pure (value : α) : Asks (Pure.pure value) [] := fun _ => rfl

private theorem bind {first : StateM Renderer α} {next : α → StateM Renderer β} (hfirst : Asks first texts)
    (hnext : ∀ value, Asks (next value) more) : Asks (first >>= next) (texts ++ more) := by
  intro renderer
  rw [Renderer.asked_append, ← hfirst renderer]
  exact hnext _ _

theorem bind_pure {first : StateM Renderer α} (hfirst : Asks first texts) (result : α → β) :
    Asks (first >>= fun value => Pure.pure (result value)) texts := by
  have h := hfirst.bind fun value => pure (result value)
  rwa [List.append_nil] at h

theorem map {rendering : StateM Renderer α} (h : Asks rendering texts) (view : α → β) :
    Asks (view <$> rendering) texts := by
  rw [map_eq_pure_bind]
  exact h.bind_pure view

theorem mapM {rendering : α → StateM Renderer β} {texts : α → List String}
    (h : ∀ item, Asks (rendering item) (texts item))
    (items : List α) : Asks (items.mapM rendering) (items.flatMap texts) := by
  induction items with
  | nil => exact pure []
  | cons item items ih =>
    rw [List.mapM_cons, List.flatMap_cons]
    exact (h item).bind fun _ => ih.bind_pure _

theorem render (text : String) : Asks (Renderer.render text) [text] := fun _ => rfl

theorem renderComment (comment : Option String) : Asks (Renderer.renderComment comment) comment.toList := by
  cases comment with
  | none => exact pure ""
  | some text => exact render text

theorem summarizeComment (comment : Option String) : Asks (Renderer.summarizeComment comment) comment.toList := by
  cases comment with
  | none => exact pure ""
  | some text => exact fun _ => rfl

variable (registry : Registry)

private theorem linkViews (names : List String) :
    Asks (SchemaDocs.linkViews registry names) (registry.linkTexts names) :=
  mapM (fun _ => (summarizeComment _).bind_pure _) _

private theorem parentView (entry : Entry) :
    Asks (SchemaDocs.parentView registry entry) (registry.linkTexts entry.parent.toList) :=
  (linkViews registry _).bind_pure _

theorem indexView (schemaName title : String) :
    Asks (SchemaDocs.indexView registry schemaName title) registry.indexTexts :=
  (mapM (fun _ => (summarizeComment _).bind_pure _) _).bind_pure _

/-- The document of an entry asks for the comments behind it. -/
theorem entryDocument (entry : Entry) : Asks (SchemaDocs.entryDocument registry entry) (entry.texts registry) := by
  rw [SchemaDocs.entryDocument, Entry.texts]
  cases entry.declaration with
  | file file =>
    refine map ((renderComment _).bind fun _ => ?_) _
    exact (linkViews registry _).bind fun _ => (linkViews registry _).bind fun _ => (linkViews registry _).bind_pure _
  | message message =>
    refine map ((parentView registry entry).bind fun _ => (renderComment _).bind fun _ => ?_) _
    refine (mapM (fun _ => (renderComment _).bind_pure _) _).bind fun _ => ?_
    exact (linkViews registry _).bind fun _ => (linkViews registry _).bind_pure _
  | enum type =>
    refine map ((parentView registry entry).bind fun _ => (renderComment _).bind fun _ => ?_) _
    exact (mapM (fun _ => (renderComment _).bind_pure _) _).bind_pure _
  | service service =>
    exact map ((renderComment _).bind fun _ => (mapM (fun _ => (renderComment _).bind_pure _) _).bind_pure _) _

end Asks

end SchemaDocs
