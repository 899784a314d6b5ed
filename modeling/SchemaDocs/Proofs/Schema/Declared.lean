import SchemaDocs.Schema.Registry

/-!
# What a schema declares

The walk over a schema meets its declarations in the order in which they are registered.
`Schema.Declares` says what they are without walking: a name that stands in a file takes the scope of the
file, and a name that stands in a message takes the qualified name of the message and a dot.
`Schema.mem_entries_iff` ties the two together.
-/

namespace SchemaDocs

/-! ### The walk over the declarations -/

def EnumType.entry (file : String) (parent : Option String) (scope : String) (type : EnumType) : Entry :=
  ⟨.enum, scope ++ type.name, file, parent, .enum type⟩

mutual

/-- The entries of a message: itself, the nested messages, the nested enums. -/
def Message.entries (file : String) (parent : Option String) (scope : String) : Message → List Entry
  | ⟨name, comment, fields, messages, enums, options⟩ =>
    let qualifiedName := scope ++ name
    ⟨.message, qualifiedName, file, parent, .message ⟨name, comment, fields, messages, enums, options⟩⟩ ::
      (Message.listEntries file (some qualifiedName) (qualifiedName ++ ".") messages ++
        enums.map (EnumType.entry file (some qualifiedName) (qualifiedName ++ ".")))

def Message.listEntries (file : String) (parent : Option String) (scope : String) : List Message → List Entry
  | [] => []
  | message :: messages => message.entries file parent scope ++ Message.listEntries file parent scope messages

end

def ProtoFile.entries (file : ProtoFile) : List Entry :=
  ⟨.proto, file.name, file.name, none, .file file⟩ ::
    (Message.listEntries file.name none file.scope file.messages ++
      file.enums.map (EnumType.entry file.name none file.scope) ++
      file.services.map fun service => ⟨.service, file.scope ++ service.name, file.name, none, .service service⟩)

/-- The walk over all declarations: each file, then its messages with what is nested in them, then its enums,
then its services. -/
def Schema.entries (schema : Schema) : List Entry := schema.files.flatMap ProtoFile.entries

/-- The declarations of a schema, each with its qualified name, its file and the message around it. -/
inductive Schema.Declares (schema : Schema) : Entry → Prop where
  | file {file : ProtoFile} (hfile : file ∈ schema.files) :
      Declares schema ⟨.proto, file.name, file.name, none, .file file⟩
  | message {file : ProtoFile} {message : Message} (hfile : file ∈ schema.files)
      (hmessage : message ∈ file.messages) :
      Declares schema ⟨.message, file.scope ++ message.name, file.name, none, .message message⟩
  | enum {file : ProtoFile} {type : EnumType} (hfile : file ∈ schema.files) (htype : type ∈ file.enums) :
      Declares schema ⟨.enum, file.scope ++ type.name, file.name, none, .enum type⟩
  | service {file : ProtoFile} {service : Service} (hfile : file ∈ schema.files)
      (hservice : service ∈ file.services) :
      Declares schema ⟨.service, file.scope ++ service.name, file.name, none, .service service⟩
  | nestedMessage {name file : String} {parent : Option String} {outer message : Message}
      (houter : Declares schema ⟨.message, name, file, parent, .message outer⟩) (hmessage : message ∈ outer.messages) :
      Declares schema ⟨.message, name ++ "." ++ message.name, file, some name, .message message⟩
  | nestedEnum {name file : String} {parent : Option String} {outer : Message} {type : EnumType}
      (houter : Declares schema ⟨.message, name, file, parent, .message outer⟩) (htype : type ∈ outer.enums) :
      Declares schema ⟨.enum, name ++ "." ++ type.name, file, some name, .enum type⟩

theorem Schema.Declares.kind_eq {schema : Schema} {entry : Entry} (h : schema.Declares entry) :
    entry.kind = entry.declaration.kind := by
  cases h <;> rfl

namespace Message

theorem entries_eq (file : String) (parent : Option String) (scope : String) (message : Message) :
    message.entries file parent scope =
      ⟨.message, scope ++ message.name, file, parent, .message message⟩ ::
        (listEntries file (some (scope ++ message.name)) (scope ++ message.name ++ ".") message.messages ++
          message.enums.map (EnumType.entry file (some (scope ++ message.name)) (scope ++ message.name ++ "."))) := by
  cases message
  rw [entries]

theorem listEntries_eq (file : String) (parent : Option String) (scope : String) (messages : List Message) :
    listEntries file parent scope messages = messages.flatMap (entries file parent scope) := by
  induction messages with
  | nil => rw [listEntries, List.flatMap_nil]
  | cons message messages ih => rw [listEntries, ih, List.flatMap_cons]

/-- Induction over a message and all messages nested in it. -/
theorem nestedInduction {motive : Message → Prop}
    (step : ∀ message, (∀ nested ∈ message.messages, motive nested) → motive message) (message : Message) :
    motive message := by
  refine @Message.rec motive (fun messages => ∀ nested ∈ messages, motive nested) ?_ ?_ ?_ message
  · intro name comment fields messages enums options ih
    exact step _ ih
  · intro nested hnested
    cases hnested
  · intro first rest hfirst hrest nested hnested
    rcases List.mem_cons.mp hnested with rfl | hnested
    · exact hfirst
    · exact hrest nested hnested

private theorem declares_of_mem_entries {schema : Schema} (message : Message) :
    ∀ {file scope : String} {parent : Option String} {entry : Entry},
      schema.Declares ⟨.message, scope ++ message.name, file, parent, .message message⟩ →
      entry ∈ message.entries file parent scope → schema.Declares entry := by
  induction message using nestedInduction with
  | step message ih =>
    intro file scope parent entry hmessage hentry
    rw [entries_eq, List.mem_cons, List.mem_append, listEntries_eq, List.mem_flatMap, List.mem_map] at hentry
    rcases hentry with rfl | ⟨nested, hnested, hentry⟩ | ⟨type, htype, rfl⟩
    · exact hmessage
    · exact ih nested hnested (.nestedMessage hmessage hnested) hentry
    · exact .nestedEnum hmessage htype

private theorem mem_entries_of_nested (message : Message) :
    ∀ {file scope name outerFile : String} {parent outerParent : Option String} {outer : Message},
      ⟨.message, name, outerFile, outerParent, .message outer⟩ ∈ message.entries file parent scope →
      (∀ nested ∈ outer.messages,
        ⟨.message, name ++ "." ++ nested.name, outerFile, some name, .message nested⟩ ∈ message.entries file parent scope) ∧
      (∀ type ∈ outer.enums,
        ⟨.enum, name ++ "." ++ type.name, outerFile, some name, .enum type⟩ ∈ message.entries file parent scope) := by
  induction message using nestedInduction with
  | step message ih =>
    intro file scope name outerFile parent outerParent outer houter
    simp only [entries_eq file parent scope message, listEntries_eq, List.mem_cons, List.mem_append,
      List.mem_flatMap, List.mem_map] at houter ⊢
    rcases houter with houter | ⟨nested, hnested, houter⟩ | ⟨type, htype, houter⟩
    · cases houter
      refine ⟨fun nested hnested => .inr (.inl ⟨nested, hnested, ?_⟩),
        fun type htype => .inr (.inr ⟨type, htype, rfl⟩)⟩
      rw [entries_eq]
      exact List.mem_cons_self
    · obtain ⟨hmessages, henums⟩ := ih nested hnested houter
      exact ⟨fun inner hinner => .inr (.inl ⟨nested, hnested, hmessages inner hinner⟩),
        fun type htype => .inr (.inl ⟨nested, hnested, henums type htype⟩)⟩
    · cases houter

end Message

/-! ### The walk over a schema -/

private theorem Schema.mem_entries {schema : Schema} {entry : Entry} :
    entry ∈ schema.entries ↔ ∃ file ∈ schema.files,
      entry = ⟨.proto, file.name, file.name, none, .file file⟩ ∨
      (∃ message ∈ file.messages, entry ∈ message.entries file.name none file.scope) ∨
      (∃ type ∈ file.enums, entry = ⟨.enum, file.scope ++ type.name, file.name, none, .enum type⟩) ∨
      ∃ service ∈ file.services, entry = ⟨.service, file.scope ++ service.name, file.name, none, .service service⟩ := by
  simp only [Schema.entries, ProtoFile.entries, EnumType.entry, Message.listEntries_eq, List.mem_flatMap,
    List.mem_cons, List.mem_append, List.mem_map, or_assoc, eq_comm]

/-- The walk meets the declarations of a schema and nothing else. -/
theorem Schema.mem_entries_iff {schema : Schema} {entry : Entry} :
    entry ∈ schema.entries ↔ schema.Declares entry := by
  constructor
  · intro hentry
    obtain ⟨file, hfile, rfl | ⟨message, hmessage, hentry⟩ | ⟨type, htype, rfl⟩ | ⟨service, hservice, rfl⟩⟩ :=
      mem_entries.mp hentry
    · exact .file hfile
    · exact message.declares_of_mem_entries (.message hfile hmessage) hentry
    · exact .enum hfile htype
    · exact .service hfile hservice
  · intro hentry
    induction hentry with
    | file hfile => exact mem_entries.mpr ⟨_, hfile, .inl rfl⟩
    | message hfile hmessage =>
      refine mem_entries.mpr ⟨_, hfile, .inr (.inl ⟨_, hmessage, ?_⟩)⟩
      rw [Message.entries_eq]
      exact List.mem_cons_self
    | enum hfile htype => exact mem_entries.mpr ⟨_, hfile, .inr (.inr (.inl ⟨_, htype, rfl⟩))⟩
    | service hfile hservice => exact mem_entries.mpr ⟨_, hfile, .inr (.inr (.inr ⟨_, hservice, rfl⟩))⟩
    | nestedMessage _ hmessage ih =>
      obtain ⟨file, hfile, h | ⟨message, hmem, hentry⟩ | ⟨_, _, h⟩ | ⟨_, _, h⟩⟩ := mem_entries.mp ih
      · cases h
      · exact mem_entries.mpr ⟨file, hfile, .inr (.inl
          ⟨message, hmem, (message.mem_entries_of_nested hentry).1 _ hmessage⟩)⟩
      · cases h
      · cases h
    | nestedEnum _ htype ih =>
      obtain ⟨file, hfile, h | ⟨message, hmem, hentry⟩ | ⟨_, _, h⟩ | ⟨_, _, h⟩⟩ := mem_entries.mp ih
      · cases h
      · exact mem_entries.mpr ⟨file, hfile, .inr (.inl
          ⟨message, hmem, (message.mem_entries_of_nested hentry).2 _ htype⟩)⟩
      · cases h
      · cases h

end SchemaDocs
