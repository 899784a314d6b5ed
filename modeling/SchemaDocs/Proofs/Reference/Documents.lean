import SchemaDocs.Proofs.Reference.Links

/-!
# Documents of the reference

Which objects in a document refer to others, read off the members that each view is written with,
and that all of them lead to entries. A document has the kind and name of its own entry.
-/

namespace SchemaDocs

open Json
open Markdown (Renderer)

variable {registry : Registry} {entry : Entry} {found : List (String × Value)}

/-! ### Members that refer -/

@[simp] theorem not_refersIn_textMember {key : String} {text : Option String} :
    ¬ RefersIn (textMember key text) found := by
  cases text <;> simp [textMember]

/-- What options hold is no reference of the reference. -/
@[simp] theorem not_refersIn_optionsMember {options : List OptionEntry} {rest : List (String × Value)} :
    RefersIn (optionsMember options :: rest) found ↔ RefersIn rest found := by
  simp [optionsMember]

@[simp] theorem refersIn_linksMember_iff {key : String} (hkey : key ≠ "options") {links : List LinkView}
    {rest : List (String × Value)} :
    RefersIn (linksMember key links :: rest) found ↔ (∃ link ∈ links, link.toJson.Refers found) ∨ RefersIn rest found := by
  simp [linksMember, hkey]

@[simp] theorem refersIn_parentMember_iff {parent : Option LinkView} :
    RefersIn (parentMember parent) found ↔ ∃ link ∈ parent, link.toJson.Refers found := by
  cases parent <;> simp [parentMember]

theorem refers_field_iff {field : FieldView} : field.toJson.Refers found ↔ field.type.toJson.Refers found := by
  rw [FieldView.toJson, refers_object_iff_of_ne]
  · simp
  · simp [textMember, optionsMember, or_imp, forall_and]

theorem refers_message_iff {view : MessageView} :
    view.toJson.Refers found ↔
      (∃ link ∈ view.parent, link.toJson.Refers found) ∨ (∃ field ∈ view.fields, field.type.toJson.Refers found) ∨
        (∃ link ∈ view.messages, link.toJson.Refers found) ∨ ∃ link ∈ view.enums, link.toJson.Refers found := by
  rw [MessageView.toJson, refers_object_iff_of_ne]
  · simp [refers_field_iff]
  · simp [parentMember, linksMember, optionsMember, or_imp, forall_and]

private theorem not_refers_constant {constant : ConstantView} : ¬ constant.toJson.Refers found := by
  rw [ConstantView.toJson, refers_object_iff_of_ne]
  · simp
  · simp [optionsMember]

theorem refers_enum_iff {view : EnumView} :
    view.toJson.Refers found ↔ ∃ link ∈ view.parent, link.toJson.Refers found := by
  rw [EnumView.toJson, refers_object_iff_of_ne]
  · simp [not_refers_constant]
  · simp [parentMember, optionsMember, or_imp, forall_and]

theorem refers_method_iff {method : MethodView} :
    method.toJson.Refers found ↔ method.input.toJson.Refers found ∨ method.output.toJson.Refers found := by
  rw [MethodView.toJson, refers_object_iff_of_ne]
  · simp
  · simp [optionsMember]

theorem refers_service_iff {view : ServiceView} :
    view.toJson.Refers found ↔
      ∃ method ∈ view.methods, method.input.toJson.Refers found ∨ method.output.toJson.Refers found := by
  rw [ServiceView.toJson, refers_object_iff_of_ne]
  · simp [refers_method_iff]
  · simp [optionsMember]

theorem refers_file_iff {view : FileView} :
    view.toJson.Refers found ↔
      (∃ type ∈ view.imports, type.toJson.Refers found) ∨ (∃ link ∈ view.messages, link.toJson.Refers found) ∨
        (∃ link ∈ view.enums, link.toJson.Refers found) ∨ ∃ link ∈ view.services, link.toJson.Refers found := by
  rw [FileView.toJson, refers_object_iff_of_ne]
  · simp
  · simp [textMember, linksMember, optionsMember, or_imp, forall_and]

/-! ### What a document shows -/

/-- The field of a view is that of a declaration, with its type. -/
structure FieldView.Shows (registry : Registry) (field : Field) (view : FieldView) : Prop where
  name : view.name = field.name
  type : view.type = typeView registry field.typeName

/-- The method of a view is that of a declaration, with its types. -/
structure MethodView.Shows (registry : Registry) (method : Method) (view : MethodView) : Prop where
  name : view.name = method.name
  input : view.input = typeView registry method.inputType
  output : view.output = typeView registry method.outputType

private theorem shows_of_fieldView {field : Field} {view : FieldView} (h : IsRendered (fieldView registry field) view) :
    view.Shows registry field := by
  obtain ⟨description, -, h⟩ := exists_of_isRendered_bind h
  rw [isRendered_pure_iff] at h
  rw [h]
  exact ⟨rfl, rfl⟩

private theorem shows_of_methodView {method : Method} {view : MethodView}
    (h : IsRendered (methodView registry method) view) :
    view.Shows registry method := by
  obtain ⟨description, -, h⟩ := exists_of_isRendered_bind h
  rw [isRendered_pure_iff] at h
  rw [h]
  exact ⟨rfl, rfl, rfl⟩

/-- Links refer to entries if they lead to entries, whether a list holds them or a parent is shown
by one. -/
theorem refersTo_of_links {IsShown : LinkView → Prop}
    (hlinks : ∀ link, IsShown link → ∃ entry ∈ registry.entries, link.LeadsTo entry)
    (h : ∃ link, IsShown link ∧ link.toJson.Refers found) : ∃ target ∈ registry.entries, RefersTo found target := by
  obtain ⟨link, hlink, hfound⟩ := h
  obtain ⟨target, htarget, hleads⟩ := hlinks link hlink
  exact ⟨target, htarget, refersTo_of_link hleads hfound⟩

/-- A document names its entry, and refers to entries only. -/
structure IsSound (registry : Registry) (entry : Entry) (document : Value) : Prop where
  names : ∃ members, document = .object members ∧ Names members entry
  refersTo : ∀ found, document.Refers found → ∃ target ∈ registry.entries, RefersTo found target

theorem isSound_message {message : Message} {view : MessageView} (hkind : entry.kind = .message)
    (h : IsRendered (messageView registry entry message) view) :
    IsSound registry entry view.toJson ∧ List.Forall₂ (fun field shown => shown.Shows registry field) message.fields view.fields := by
  obtain ⟨parent, hparent, h⟩ := exists_of_isRendered_bind h
  obtain ⟨description, -, h⟩ := exists_of_isRendered_bind h
  obtain ⟨fields, hfields, h⟩ := exists_of_isRendered_bind h
  obtain ⟨messages, hmessages, h⟩ := exists_of_isRendered_bind h
  obtain ⟨enums, henums, h⟩ := exists_of_isRendered_bind h
  rw [isRendered_pure_iff] at h
  have hshown : List.Forall₂ (fun field shown => shown.Shows registry field) message.fields fields :=
    (forall₂_of_isRendered_mapM hfields).imp fun _ _ => shows_of_fieldView
  rw [h]
  refine ⟨⟨⟨_, rfl, ?_, ?_⟩, fun found hfound => ?_⟩, hshown⟩
  · simp [hkind, Kind.tag]
  · simp [nameMember?, List.lookup_cons]
  · rcases refers_message_iff.mp hfound with hfound | ⟨field, hfield, hfound⟩ | hfound | hfound
    · exact refersTo_of_links (leadsTo_of_parentView hparent) hfound
    · obtain ⟨declared, -, hshows⟩ := (exists_of_mem_forall₂ hshown).1 field hfield
      rw [hshows.type] at hfound
      exact refersTo_of_type leadsTo_of_typeView hfound
    · exact refersTo_of_links (leadsTo_of_linkViews hmessages) hfound
    · exact refersTo_of_links (leadsTo_of_linkViews henums) hfound

private theorem isSound_enum {type : EnumType} {view : EnumView} (hkind : entry.kind = .enum)
    (h : IsRendered (enumView registry entry type) view) : IsSound registry entry view.toJson := by
  obtain ⟨parent, hparent, h⟩ := exists_of_isRendered_bind h
  obtain ⟨description, -, h⟩ := exists_of_isRendered_bind h
  obtain ⟨constants, -, h⟩ := exists_of_isRendered_bind h
  rw [isRendered_pure_iff] at h
  rw [h]
  refine ⟨⟨_, rfl, ?_, ?_⟩, fun found hfound => ?_⟩
  · simp [hkind, Kind.tag]
  · simp [nameMember?, List.lookup_cons]
  · exact refersTo_of_links (leadsTo_of_parentView hparent) (refers_enum_iff.mp hfound)

theorem isSound_service {service : Service} {view : ServiceView} (hkind : entry.kind = .service)
    (h : IsRendered (serviceView registry entry service) view) :
    IsSound registry entry view.toJson ∧
      List.Forall₂ (fun method shown => shown.Shows registry method) service.methods view.methods := by
  obtain ⟨description, -, h⟩ := exists_of_isRendered_bind h
  obtain ⟨methods, hmethods, h⟩ := exists_of_isRendered_bind h
  rw [isRendered_pure_iff] at h
  have hshown : List.Forall₂ (fun method shown => shown.Shows registry method) service.methods methods :=
    (forall₂_of_isRendered_mapM hmethods).imp fun _ _ => shows_of_methodView
  rw [h]
  refine ⟨⟨⟨_, rfl, ?_, ?_⟩, fun found hfound => ?_⟩, hshown⟩
  · simp [hkind, Kind.tag]
  · simp [nameMember?, List.lookup_cons]
  · obtain ⟨method, hmethod, hfound⟩ := refers_service_iff.mp hfound
    obtain ⟨declared, -, hshows⟩ := (exists_of_mem_forall₂ hshown).1 method hmethod
    rw [hshows.input, hshows.output] at hfound
    rcases hfound with hfound | hfound
    · exact refersTo_of_type leadsTo_of_typeView hfound
    · exact refersTo_of_type leadsTo_of_typeView hfound

private theorem isSound_file (hregistry : registry.IsConsistent) {file : ProtoFile} {view : FileView}
    (hkind : entry.kind = .proto)
    (h : IsRendered (fileView registry entry file) view) : IsSound registry entry view.toJson := by
  obtain ⟨description, -, h⟩ := exists_of_isRendered_bind h
  obtain ⟨messages, hmessages, h⟩ := exists_of_isRendered_bind h
  obtain ⟨enums, henums, h⟩ := exists_of_isRendered_bind h
  obtain ⟨services, hservices, h⟩ := exists_of_isRendered_bind h
  rw [isRendered_pure_iff] at h
  rw [h]
  refine ⟨⟨_, rfl, ?_, ?_⟩, fun found hfound => ?_⟩
  · simp [hkind, Kind.tag]
  · cases file.package <;> simp [nameMember?, textMember, optionsMember, linksMember, List.lookup_cons]
  · rcases refers_file_iff.mp hfound with ⟨type, htype, hfound⟩ | hfound | hfound | hfound
    · obtain ⟨path, -, rfl⟩ := List.mem_map.mp htype
      exact refersTo_of_type (leadsTo_of_importView hregistry) hfound
    · exact refersTo_of_links (leadsTo_of_linkViews hmessages) hfound
    · exact refersTo_of_links (leadsTo_of_linkViews henums) hfound
    · exact refersTo_of_links (leadsTo_of_linkViews hservices) hfound

theorem isSound_entryDocument (hregistry : registry.IsConsistent) (hkind : entry.kind = entry.declaration.kind)
    {document : Value} (h : IsRendered (entryDocument registry entry) document) :
    IsSound registry entry document := by
  rw [entryDocument] at h
  split at h
  · rename_i file hfile
    rw [hfile] at hkind
    obtain ⟨view, hview, rfl⟩ := exists_of_isRendered_map h
    exact isSound_file hregistry hkind hview
  · rename_i message hmessage
    rw [hmessage] at hkind
    obtain ⟨view, hview, rfl⟩ := exists_of_isRendered_map h
    exact (isSound_message hkind hview).1
  · rename_i type htype
    rw [htype] at hkind
    obtain ⟨view, hview, rfl⟩ := exists_of_isRendered_map h
    exact isSound_enum hkind hview
  · rename_i service hservice
    rw [hservice] at hkind
    obtain ⟨view, hview, rfl⟩ := exists_of_isRendered_map h
    exact (isSound_service hkind hview).1

/-! ### The index -/

/-- Every line of the index refers to its entry. -/
theorem refersTo_of_index {schemaName title : String} {view : IndexView}
    (h : IsRendered (indexView registry schemaName title) view) (hfound : view.toJson.Refers found) :
    ∃ target ∈ registry.entries, RefersTo found target := by
  obtain ⟨lines, hlines, h⟩ := exists_of_isRendered_bind h
  rw [isRendered_pure_iff] at h
  rw [h, IndexView.toJson, refers_object_iff_of_ne (by simp)] at hfound
  simp only [refersIn_cons_iff, not_refers_string, and_false, not_refersIn_nil, or_false, false_or, refers_array_iff,
    List.mem_map] at hfound
  obtain ⟨-, _, ⟨line, hline, rfl⟩, hfound⟩ := hfound
  obtain ⟨target, htarget, hrendered⟩ := (exists_of_mem_forall₂ (forall₂_of_isRendered_mapM hlines)).1 line hline
  obtain ⟨summary, -, hrendered⟩ := exists_of_isRendered_bind hrendered
  rw [isRendered_pure_iff] at hrendered
  rw [hrendered, IndexLine.toJson, refers_object_iff] at hfound
  rcases hfound with ⟨-, rfl⟩ | hfound
  · refine ⟨target, htarget, ⟨?_, ?_, ?_⟩⟩ <;> simp [nameMember?, List.lookup_cons]
  · simp at hfound

end SchemaDocs
