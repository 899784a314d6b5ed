import SchemaDocs.Proofs.Reference.Faithful
import SchemaDocs.Proofs.Schema.Comments

/-!
# Documents without comments

A comment is rendered into the description of what it stands at and into the summaries of links to it. With
these texts erased the document of an entry is the document of the entry without comments, whatever the
renderer is asked before and whichever comments it refuses.
-/

namespace SchemaDocs

open Json (Value)
open Markdown (Renderer)

/-! ### Erasing -/

namespace Json.Value

/-- The members that hold what a comment is rendered as. -/
def isCommentary (key : String) : Bool := key = "description" || key = "summary"

@[simp] theorem isCommentary_iff {key : String} : isCommentary key ↔ key = "description" ∨ key = "summary" := by
  simp [isCommentary]

mutual

/-- A value with empty texts in place of all descriptions and summaries. The options of a declaration are
its author's own and stay. -/
def erased : Value → Value
  | .array items => .array (eachErased items)
  | .object members => .object (membersErased members)
  | value => value

def eachErased : List Value → List Value
  | [] => []
  | value :: values => value.erased :: eachErased values

def membersErased : List (String × Value) → List (String × Value)
  | [] => []
  | (key, value) :: members =>
    (key, if isCommentary key then .string "" else if key = "options" then value else value.erased) ::
      membersErased members

end

theorem eachErased_eq (values : List Value) : eachErased values = values.map erased := by
  induction values with
  | nil => rw [eachErased, List.map_nil]
  | cons value values ih => rw [eachErased, ih, List.map_cons]

@[simp] theorem erased_string (text : String) : (string text).erased = .string text := rfl

@[simp] theorem erased_bool (value : Bool) : (bool value).erased = .bool value := rfl

@[simp] theorem erased_ofInt (n : Int) : (ofInt n).erased = .ofInt n := rfl

@[simp] theorem erased_array (items : List Value) : (array items).erased = .array (items.map erased) := by
  rw [erased, eachErased_eq]

@[simp] theorem erased_object (members : List (String × Value)) :
    (object members).erased = .object (membersErased members) := by
  rw [erased]

@[simp] theorem membersErased_nil : membersErased [] = [] := by rw [membersErased]

@[simp] theorem membersErased_cons (key : String) (value : Value) (members : List (String × Value)) :
    membersErased ((key, value) :: members) =
      (key, if isCommentary key then .string "" else if key = "options" then value else value.erased) ::
        membersErased members := by
  rw [membersErased]

@[simp] theorem membersErased_append (left right : List (String × Value)) :
    membersErased (left ++ right) = membersErased left ++ membersErased right := by
  induction left with
  | nil => rw [membersErased, List.nil_append, List.nil_append]
  | cons member left ih =>
    obtain ⟨key, value⟩ := member
    rw [List.cons_append, membersErased, membersErased, ih, List.cons_append]

end Json.Value

open Json.Value (membersErased isCommentary)

/-! ### Views without comments -/

def LinkView.uncommented (view : LinkView) : LinkView := { view with summary := "" }

def IndexLine.uncommented (line : IndexLine) : IndexLine := { line with summary := "" }

def IndexView.uncommented (view : IndexView) : IndexView := { view with lines := view.lines.map IndexLine.uncommented }

def FieldView.uncommented (view : FieldView) : FieldView := { view with description := "" }

def ConstantView.uncommented (view : ConstantView) : ConstantView := { view with description := "" }

def MethodView.uncommented (view : MethodView) : MethodView := { view with description := "" }

def MessageView.uncommented (view : MessageView) : MessageView :=
  { view with
    parent := view.parent.map LinkView.uncommented
    description := ""
    fields := view.fields.map FieldView.uncommented
    messages := view.messages.map LinkView.uncommented
    enums := view.enums.map LinkView.uncommented }

def EnumView.uncommented (view : EnumView) : EnumView :=
  { view with
    parent := view.parent.map LinkView.uncommented
    description := ""
    constants := view.constants.map ConstantView.uncommented }

def ServiceView.uncommented (view : ServiceView) : ServiceView :=
  { view with description := "", methods := view.methods.map MethodView.uncommented }

def FileView.uncommented (view : FileView) : FileView :=
  { view with
    description := ""
    messages := view.messages.map LinkView.uncommented
    enums := view.enums.map LinkView.uncommented
    services := view.services.map LinkView.uncommented }

private theorem membersErased_textMember {key : String} (hkey : ¬isCommentary key) (text : Option String) :
    membersErased (textMember key text) = textMember key text := by
  cases text with
  | none => simp [textMember]
  | some text => simp [textMember, -Json.Value.isCommentary_iff, hkey]

private theorem membersErased_cons_optionsMember (options : List OptionEntry) (members : List (String × Value)) :
    membersErased (optionsMember options :: members) = optionsMember options :: membersErased members := by
  simp [optionsMember]

private theorem LinkView.erased_toJson (view : LinkView) : view.toJson.erased = view.uncommented.toJson := by
  simp [toJson, uncommented]

private theorem membersErased_cons_linksMember {key : String} (hkey : ¬isCommentary key) (hoptions : key ≠ "options")
    (links : List LinkView) (members : List (String × Value)) :
    membersErased (linksMember key links :: members) =
      linksMember key (links.map LinkView.uncommented) :: membersErased members := by
  simp [linksMember, -Json.Value.isCommentary_iff, hkey, hoptions, LinkView.erased_toJson]

private theorem membersErased_parentMember (parent : Option LinkView) :
    membersErased (parentMember parent) = parentMember (parent.map LinkView.uncommented) := by
  cases parent with
  | none => simp [parentMember]
  | some parent => simp [parentMember, LinkView.erased_toJson]

private theorem TypeView.erased_toJson (view : TypeView) : view.toJson.erased = view.toJson := by
  simp [toJson, membersErased_textMember]

private theorem IndexLine.erased_toJson (line : IndexLine) : line.toJson.erased = line.uncommented.toJson := by
  simp [toJson, uncommented]

theorem IndexView.erased_toJson (view : IndexView) : view.toJson.erased = view.uncommented.toJson := by
  simp [toJson, uncommented, IndexLine.erased_toJson]

private theorem FieldView.erased_toJson (view : FieldView) : view.toJson.erased = view.uncommented.toJson := by
  simp [toJson, uncommented, membersErased_textMember, membersErased_cons_optionsMember, TypeView.erased_toJson]

private theorem ConstantView.erased_toJson (view : ConstantView) : view.toJson.erased = view.uncommented.toJson := by
  simp [toJson, uncommented, membersErased_cons_optionsMember]

private theorem MethodView.erased_toJson (view : MethodView) : view.toJson.erased = view.uncommented.toJson := by
  simp [toJson, uncommented, membersErased_cons_optionsMember, TypeView.erased_toJson]

private theorem MessageView.erased_toJson (view : MessageView) : view.toJson.erased = view.uncommented.toJson := by
  simp [toJson, uncommented, membersErased_parentMember, membersErased_cons_linksMember,
    membersErased_cons_optionsMember, FieldView.erased_toJson]

private theorem EnumView.erased_toJson (view : EnumView) : view.toJson.erased = view.uncommented.toJson := by
  simp [toJson, uncommented, membersErased_parentMember, membersErased_cons_optionsMember, ConstantView.erased_toJson]

private theorem ServiceView.erased_toJson (view : ServiceView) : view.toJson.erased = view.uncommented.toJson := by
  simp [toJson, uncommented, membersErased_cons_optionsMember, MethodView.erased_toJson]

private theorem FileView.erased_toJson (view : FileView) : view.toJson.erased = view.uncommented.toJson := by
  simp [toJson, uncommented, membersErased_textMember, membersErased_cons_linksMember,
    membersErased_cons_optionsMember, TypeView.erased_toJson]

/-! ### Rendering -/

/-- What a rendering gives, seen in some way, is what another one gives, whatever the renderers. -/
def Mirrors {α β : Type} (view : α → β) (left : StateM Renderer α) (right : StateM Renderer β) : Prop :=
  ∀ renderer other : Renderer, view (left renderer).1 = (right other).1

namespace Mirrors

variable {α β γ δ : Type} {view : α → β} {further : γ → δ}

private theorem pure {value : α} {result : β} (h : view value = result) :
    Mirrors view (Pure.pure value) (Pure.pure result) :=
  fun _ _ => h

private theorem bind {left : StateM Renderer α} {right : StateM Renderer β} {next : α → StateM Renderer γ}
    {nextRight : β → StateM Renderer δ}
    (h : Mirrors view left right) (hnext : ∀ value, Mirrors further (next value) (nextRight (view value))) :
    Mirrors further (left >>= next) (right >>= nextRight) := by
  intro renderer other
  have hlast := hnext (left renderer).1 (left renderer).2 (right other).2
  rw [h renderer other] at hlast
  exact hlast

theorem map {left : StateM Renderer α} {right : StateM Renderer β} {toResult : α → γ} {toOther : β → δ}
    (h : Mirrors view left right) (hresult : ∀ value, further (toResult value) = toOther (view value)) :
    Mirrors further (toResult <$> left) (toOther <$> right) := by
  rw [map_eq_pure_bind, map_eq_pure_bind]
  exact h.bind fun value => pure (hresult value)

private theorem mapM {rendering : γ → StateM Renderer α} {renderingRight : γ → StateM Renderer β} {change : γ → γ}
    (h : ∀ item, Mirrors view (rendering item) (renderingRight (change item))) (items : List γ) :
    Mirrors (List.map view) (items.mapM rendering) ((items.map change).mapM renderingRight) := by
  induction items with
  | nil => exact pure rfl
  | cons item items ih =>
    rw [List.mapM_cons, List.map_cons, List.mapM_cons]
    exact (h item).bind fun _ => ih.bind fun _ => pure rfl

private theorem renderComment (comment : Option String) :
    Mirrors (fun _ => "") (Renderer.renderComment comment) (Renderer.renderComment none) := fun _ _ => rfl

private theorem summarizeComment (comment : Option String) :
    Mirrors (fun _ => "") (Renderer.summarizeComment comment) (Renderer.summarizeComment none) := fun _ _ => rfl

variable (registry : Registry)

private theorem linkView (entry : Entry) :
    Mirrors LinkView.uncommented (SchemaDocs.linkView entry) (SchemaDocs.linkView entry.uncommented) := by
  rw [SchemaDocs.linkView, SchemaDocs.linkView, Entry.comment_uncommented]
  exact (summarizeComment _).bind fun _ => pure (by simp [LinkView.uncommented])

private theorem linkViews (names : List String) :
    Mirrors (List.map LinkView.uncommented) (SchemaDocs.linkViews registry names)
      (SchemaDocs.linkViews registry.uncommented names) := by
  have hentries : names.filterMap registry.uncommented.get? = (names.filterMap registry.get?).map Entry.uncommented := by
    rw [List.map_filterMap]
    exact List.filterMap_congr fun name _ => registry.get?_uncommented name
  rw [SchemaDocs.linkViews, SchemaDocs.linkViews, hentries]
  exact mapM linkView _

private theorem parentView (entry : Entry) :
    Mirrors (Option.map LinkView.uncommented) (SchemaDocs.parentView registry entry)
      (SchemaDocs.parentView registry.uncommented entry.uncommented) :=
  (linkViews registry _).bind fun _ => pure (by rw [List.head?_map])

theorem indexView (schemaName title : String) :
    Mirrors IndexView.uncommented (SchemaDocs.indexView registry schemaName title)
      (SchemaDocs.indexView registry.uncommented schemaName title) := by
  have hline (entry : Entry) : Mirrors IndexLine.uncommented
      (do
        let summary ← Renderer.summarizeComment entry.comment
        return { name := entry.qualifiedName, kind := entry.kind, summary, path := entry.path })
      (do
        let summary ← Renderer.summarizeComment entry.uncommented.comment
        return { name := entry.uncommented.qualifiedName, kind := entry.uncommented.kind, summary,
                 path := entry.uncommented.path }) := by
    rw [Entry.comment_uncommented]
    exact (summarizeComment _).bind fun _ => pure (by simp [IndexLine.uncommented])
  exact (mapM hline registry.entries).bind fun _ => pure rfl

private theorem typeView (typeName : String) :
    SchemaDocs.typeView registry.uncommented typeName = SchemaDocs.typeView registry typeName := by
  rw [SchemaDocs.typeView, SchemaDocs.typeView, registry.resolve?_uncommented]

private theorem importView : SchemaDocs.importView registry.uncommented = SchemaDocs.importView registry := by
  funext path
  rw [SchemaDocs.importView, SchemaDocs.importView, registry.file?_uncommented, Option.map_map]
  rfl

private theorem fieldView (field : Field) :
    Mirrors FieldView.uncommented (SchemaDocs.fieldView registry field)
      (SchemaDocs.fieldView registry.uncommented field.uncommented) :=
  (renderComment _).bind fun _ => pure (by simp only [typeView]; rfl)

private theorem constantView (constant : Constant) :
    Mirrors ConstantView.uncommented (SchemaDocs.constantView constant) (SchemaDocs.constantView constant.uncommented) :=
  (renderComment _).bind fun _ => pure rfl

private theorem methodView (method : Method) :
    Mirrors MethodView.uncommented (SchemaDocs.methodView registry method)
      (SchemaDocs.methodView registry.uncommented method.uncommented) :=
  (renderComment _).bind fun _ => pure (by simp only [typeView]; rfl)

private theorem messageView (entry : Entry) (message : Message) :
    Mirrors MessageView.uncommented (SchemaDocs.messageView registry entry message)
      (SchemaDocs.messageView registry.uncommented entry.uncommented message.uncommented) := by
  have hmessages : message.uncommented.messages.map (fun m => entry.qualifiedName ++ "." ++ m.name) =
      message.messages.map fun m => entry.qualifiedName ++ "." ++ m.name := by
    rw [Message.messages_uncommented, List.map_map]
    exact List.map_congr_left fun m _ => by rw [Function.comp_apply, Message.name_uncommented]
  have henums : message.uncommented.enums.map (fun e => entry.qualifiedName ++ "." ++ e.name) =
      message.enums.map fun e => entry.qualifiedName ++ "." ++ e.name := by
    rw [Message.enums_uncommented, List.map_map]
    rfl
  rw [SchemaDocs.messageView, SchemaDocs.messageView, Entry.qualifiedName_uncommented, hmessages, henums,
    Message.comment_uncommented, Message.fields_uncommented]
  refine (parentView registry entry).bind fun _ => (renderComment _).bind fun _ => ?_
  refine (mapM (fieldView registry) _).bind fun _ => (linkViews registry _).bind fun _ => (linkViews registry _).bind fun _ => ?_
  exact pure (by simp [MessageView.uncommented]; rfl)

private theorem enumView (entry : Entry) (type : EnumType) :
    Mirrors EnumView.uncommented (SchemaDocs.enumView registry entry type)
      (SchemaDocs.enumView registry.uncommented entry.uncommented type.uncommented) :=
  (parentView registry entry).bind fun _ => (renderComment _).bind fun _ => (mapM constantView _).bind fun _ => pure rfl

private theorem serviceView (entry : Entry) (service : Service) :
    Mirrors ServiceView.uncommented (SchemaDocs.serviceView registry entry service)
      (SchemaDocs.serviceView registry.uncommented entry.uncommented service.uncommented) :=
  (renderComment _).bind fun _ => (mapM (methodView registry) _).bind fun _ => pure rfl

private theorem fileView (entry : Entry) (file : ProtoFile) :
    Mirrors FileView.uncommented (SchemaDocs.fileView registry entry file)
      (SchemaDocs.fileView registry.uncommented entry.uncommented file.uncommented) := by
  have hmessages : file.uncommented.messages.map (fun m => file.scope ++ m.name) =
      file.messages.map fun m => file.scope ++ m.name := by
    rw [ProtoFile.uncommented, List.map_map]
    exact List.map_congr_left fun m _ => by rw [Function.comp_apply, Message.name_uncommented]
  have henums : file.uncommented.enums.map (fun e => file.scope ++ e.name) = file.enums.map fun e => file.scope ++ e.name := by
    rw [ProtoFile.uncommented, List.map_map]
    rfl
  have hservices : file.uncommented.services.map (fun s => file.scope ++ s.name) =
      file.services.map fun s => file.scope ++ s.name := by
    rw [ProtoFile.uncommented, List.map_map]
    rfl
  rw [SchemaDocs.fileView, SchemaDocs.fileView, ProtoFile.scope_uncommented, hmessages, henums, hservices, importView]
  exact (renderComment _).bind fun _ => (linkViews registry _).bind fun _ => (linkViews registry _).bind fun _ =>
    (linkViews registry _).bind fun _ => pure rfl

/-- The document of an entry, with descriptions and summaries erased, is the document of the entry without
comments. -/
theorem entryDocument (entry : Entry) :
    Mirrors Value.erased (SchemaDocs.entryDocument registry entry)
      (SchemaDocs.entryDocument registry.uncommented entry.uncommented) := by
  obtain ⟨kind, qualifiedName, file, parent, declaration⟩ := entry
  cases declaration with
  | file file => exact (fileView registry _ file).map FileView.erased_toJson
  | message message => exact (messageView registry _ message).map MessageView.erased_toJson
  | enum type => exact (enumView registry _ type).map EnumView.erased_toJson
  | service service => exact (serviceView registry _ service).map ServiceView.erased_toJson

/-- So do two renderings that give the same without comments. -/
theorem eq_of_mirrors {first second : StateM Renderer Value} {common : StateM Renderer Value}
    (hfirst : Mirrors Value.erased first common) (hsecond : Mirrors Value.erased second common) (renderer other : Renderer) :
    (first renderer).1.erased = (second other).1.erased :=
  (hfirst renderer renderer).trans (hsecond other renderer).symm

end Mirrors

end SchemaDocs
