import SchemaDocs.Proofs.Schema.Registration

/-!
# Schemas without comments

Two schemas differ in nothing but comments if they are the same once all comments are taken out. Names and
types are looked up without regard to comments, so that the registry of a schema without comments is the
registry of the schema, without comments, and is refused for the same reason.
-/

namespace SchemaDocs

/-! ### Taking comments out -/

def Field.uncommented (field : Field) : Field := { field with comment := none }

def Constant.uncommented (constant : Constant) : Constant := { constant with comment := none }

def EnumType.uncommented (type : EnumType) : EnumType :=
  { type with comment := none, constants := type.constants.map Constant.uncommented }

mutual

def Message.uncommented : Message → Message
  | ⟨name, _, fields, messages, enums, options⟩ =>
    ⟨name, none, fields.map Field.uncommented, Message.eachUncommented messages, enums.map EnumType.uncommented, options⟩

def Message.eachUncommented : List Message → List Message
  | [] => []
  | message :: messages => message.uncommented :: Message.eachUncommented messages

end

def Method.uncommented (method : Method) : Method := { method with comment := none }

def Service.uncommented (service : Service) : Service :=
  { service with comment := none, methods := service.methods.map Method.uncommented }

def ProtoFile.uncommented (file : ProtoFile) : ProtoFile :=
  { file with
    comment := none
    messages := file.messages.map Message.uncommented
    enums := file.enums.map EnumType.uncommented
    services := file.services.map Service.uncommented }

def Schema.uncommented (schema : Schema) : Schema := { schema with files := schema.files.map ProtoFile.uncommented }

def Declaration.uncommented : Declaration → Declaration
  | .file f => .file f.uncommented
  | .message m => .message m.uncommented
  | .enum e => .enum e.uncommented
  | .service s => .service s.uncommented

def Entry.uncommented (entry : Entry) : Entry := { entry with declaration := entry.declaration.uncommented }

/-- Comments stand in the entries alone, and not in the indices. -/
def Registry.uncommented (registry : Registry) : Registry :=
  { registry with entries := registry.entries.map Entry.uncommented }

namespace Message

theorem eachUncommented_eq (messages : List Message) : eachUncommented messages = messages.map uncommented := by
  induction messages with
  | nil => rw [eachUncommented, List.map_nil]
  | cons message messages ih => rw [eachUncommented, ih, List.map_cons]

private theorem uncommented_eq (message : Message) :
    message.uncommented = { message with
      comment := none
      fields := message.fields.map Field.uncommented
      messages := message.messages.map uncommented
      enums := message.enums.map EnumType.uncommented } := by
  cases message
  rw [uncommented, eachUncommented_eq]

@[simp] theorem name_uncommented (message : Message) : message.uncommented.name = message.name := by
  rw [uncommented_eq]

@[simp] theorem comment_uncommented (message : Message) : message.uncommented.comment = none := by
  rw [uncommented_eq]

@[simp] theorem fields_uncommented (message : Message) :
    message.uncommented.fields = message.fields.map Field.uncommented := by
  rw [uncommented_eq]

@[simp] theorem messages_uncommented (message : Message) :
    message.uncommented.messages = message.messages.map uncommented := by
  rw [uncommented_eq]

@[simp] theorem enums_uncommented (message : Message) :
    message.uncommented.enums = message.enums.map EnumType.uncommented := by
  rw [uncommented_eq]

@[simp] theorem options_uncommented (message : Message) : message.uncommented.options = message.options := by
  rw [uncommented_eq]

end Message

/-! ### Entries -/

namespace Entry

@[simp] theorem kind_uncommented (entry : Entry) : entry.uncommented.kind = entry.kind := rfl

private theorem declarationKind_uncommented (entry : Entry) :
    entry.uncommented.declaration.kind = entry.declaration.kind := by
  rw [uncommented]
  cases entry.declaration <;> rfl

@[simp] theorem name_uncommented (entry : Entry) : entry.uncommented.name = entry.name := by
  rw [name, name, uncommented]
  cases entry.declaration with
  | message message => exact message.name_uncommented
  | _ => rfl

@[simp] theorem comment_uncommented (entry : Entry) : entry.uncommented.comment = none := by
  rw [comment, uncommented]
  cases entry.declaration with
  | message message => exact message.comment_uncommented
  | _ => rfl

@[simp] theorem qualifiedName_uncommented (entry : Entry) : entry.uncommented.qualifiedName = entry.qualifiedName := rfl

@[simp] theorem path_uncommented (entry : Entry) : entry.uncommented.path = entry.path := by
  rw [path, path, kind_uncommented, qualifiedName_uncommented]

@[simp] theorem nameFault?_uncommented (entry : Entry) : entry.uncommented.nameFault? = entry.nameFault? := by
  rw [nameFault?, nameFault?, kind_uncommented, qualifiedName_uncommented]

end Entry

private theorem EnumType.entries_uncommented (types : List EnumType) (file : String) (parent : Option String)
    (scope : String) :
    (types.map EnumType.uncommented).map (EnumType.entry file parent scope) =
      (types.map (EnumType.entry file parent scope)).map Entry.uncommented := by
  rw [List.map_map, List.map_map]
  rfl

mutual

theorem Message.entries_uncommented (file : String) (parent : Option String) (scope : String) : (message : Message) →
    message.uncommented.entries file parent scope = (message.entries file parent scope).map Entry.uncommented
  | ⟨name, comment, fields, messages, enums, options⟩ => by
    rw [Message.uncommented, Message.entries, Message.entries, Message.listEntries_eachUncommented,
      EnumType.entries_uncommented, List.map_cons, List.map_append, Entry.uncommented, Declaration.uncommented,
      Message.uncommented]

private theorem Message.listEntries_eachUncommented (file : String) (parent : Option String) (scope : String) :
    (messages : List Message) → Message.listEntries file parent scope (Message.eachUncommented messages) =
      (Message.listEntries file parent scope messages).map Entry.uncommented
  | [] => by rw [Message.eachUncommented, Message.listEntries, List.map_nil]
  | message :: messages => by
    rw [Message.eachUncommented, Message.listEntries, Message.listEntries, Message.entries_uncommented,
      Message.listEntries_eachUncommented, List.map_append]

end

theorem ProtoFile.scope_uncommented (file : ProtoFile) : file.uncommented.scope = file.scope := rfl

private theorem ProtoFile.entries_uncommented (file : ProtoFile) :
    file.uncommented.entries = file.entries.map Entry.uncommented := by
  rw [entries, entries, scope_uncommented, List.map_cons, List.map_append, List.map_append,
    ← Message.listEntries_eachUncommented, Message.eachUncommented_eq, ← EnumType.entries_uncommented, List.map_map]
  simp only [uncommented, List.map_map]
  rfl

private theorem Schema.entries_uncommented (schema : Schema) :
    schema.uncommented.entries = schema.entries.map Entry.uncommented := by
  rw [entries, entries, List.map_flatMap, uncommented, List.flatMap_map]
  exact List.flatMap_congr fun file _ => file.entries_uncommented

/-! ### Registries -/

namespace Registry

variable {registry : Registry} {entry : Entry}

theorem get?_uncommented (registry : Registry) (name : String) :
    registry.uncommented.get? name = (registry.get? name).map Entry.uncommented := by
  rw [get?, get?, uncommented]
  cases registry.byName.lookup name with
  | none => rfl
  | some position => exact List.getElem?_map

theorem file?_uncommented (registry : Registry) (name : String) :
    registry.uncommented.file? name = (registry.file? name).map Entry.uncommented := by
  rw [file?, file?, uncommented]
  cases registry.byFile.lookup name with
  | none => rfl
  | some position => exact List.getElem?_map

theorem ofKind_uncommented (registry : Registry) (kind : Kind) :
    registry.uncommented.ofKind kind = (registry.ofKind kind).map Entry.uncommented := by
  rw [ofKind, ofKind, uncommented, List.filter_map]
  rfl

theorem declaring_uncommented (registry : Registry) (kind : Kind) :
    registry.uncommented.declaring kind = (registry.declaring kind).map Entry.uncommented := by
  rw [declaring, declaring, uncommented, List.filter_map]
  congr 1
  refine List.filter_congr fun entry _ => ?_
  rw [Function.comp_apply, Entry.declarationKind_uncommented]

/-- A type name means the same. -/
theorem resolve?_uncommented (registry : Registry) (typeName : String) :
    registry.uncommented.resolve? typeName = registry.resolve? typeName := by
  rw [resolve?, resolve?, get?_uncommented]
  cases registry.get? (undotted typeName) with
  | none => rfl
  | some entry =>
    simp only [Option.map_some, Entry.kind_uncommented, Entry.qualifiedName_uncommented]

private theorem references_uncommented (entry : Entry) : references entry.uncommented = references entry := by
  obtain ⟨kind, qualifiedName, file, parent, declaration⟩ := entry
  cases declaration with
  | message message =>
    simp only [references, Entry.uncommented, Declaration.uncommented, Message.fields_uncommented, List.flatMap_map]
    rfl
  | service service =>
    simp only [references, Entry.uncommented, Declaration.uncommented, Service.uncommented, List.flatMap_map]
    rfl
  | file _ => rfl
  | enum _ => rfl

private theorem meets_uncommented (registry : Registry) (requirement : Requirement) (typeName : String) :
    registry.uncommented.meets requirement typeName = registry.meets requirement typeName := by
  cases requirement <;> simp only [meets, resolve?_uncommented]

private theorem check_uncommented (registry : Registry) : registry.uncommented.check = registry.check := by
  have hreferences : registry.uncommented.entries.flatMap references = registry.entries.flatMap references := by
    rw [uncommented, List.flatMap_map]
    exact List.flatMap_congr fun entry _ => references_uncommented entry
  rw [check, check, hreferences]
  simp only [meets_uncommented]

private theorem push_uncommented (registry : Registry) (entry : Entry) :
    registry.uncommented.push entry.uncommented = (registry.push entry).uncommented := by
  rw [push, push, Entry.kind_uncommented]
  split <;> simp [uncommented]

private theorem position?_uncommented (registry : Registry) (entry : Entry) :
    registry.uncommented.position? entry.uncommented = registry.position? entry := rfl

private theorem add_uncommented (registry : Registry) (entry : Entry) :
    registry.uncommented.add entry.uncommented = (registry.add entry).map uncommented := by
  rw [add_eq, add_eq, Entry.nameFault?_uncommented, position?_uncommented, push_uncommented]
  cases entry.nameFault? with
  | some fault => rfl
  | none =>
    cases (registry.position? entry).isSome with
    | true => rfl
    | false => rfl

private theorem addAll_uncommented (registry : Registry) (entries : List Entry) :
    registry.uncommented.addAll (entries.map Entry.uncommented) = (registry.addAll entries).map uncommented := by
  induction entries generalizing registry with
  | nil => rfl
  | cons entry entries ih =>
    rw [List.map_cons, addAll_cons, addAll_cons, add_uncommented]
    cases registry.add entry with
    | error error => rfl
    | ok next => exact ih next

/-- A schema without comments is registered alike, or refused for the same reason. -/
theorem build_uncommented (schema : Schema) : build schema.uncommented = (build schema).map uncommented := by
  have hempty : ({} : Registry) = uncommented {} := rfl
  have hall : addAll {} schema.uncommented.entries = (addAll {} schema.entries).map uncommented := by
    rw [Schema.entries_uncommented, hempty]
    exact addAll_uncommented {} schema.entries
  rw [build, build, addDeclarations_files, addDeclarations_files, hall]
  cases addAll {} schema.entries with
  | error error => rfl
  | ok registry =>
    show registry.uncommented.check >>= (fun _ => pure registry.uncommented) =
      (registry.check >>= fun _ => pure registry).map uncommented
    rw [check_uncommented]
    cases registry.check <;> rfl

end Registry

end SchemaDocs
