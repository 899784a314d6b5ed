import SchemaDocs.Proofs.Schema.Declared
import SchemaDocs.Proofs.Schema.Reading

/-!
# Reading back a schema

Each kind of declaration is read back from every presentation of its JSON form. A reader fills the members that
stand in a text into a record of defaults, so that what is read is known from the keys alone: `given keys` has the
declaration's own parts under these keys, and the defaults elsewhere.
-/

namespace SchemaDocs

open Json (Value Reader)
open Format (Presents Matches matches_of takes_record takes_readValue takes_string takes_int32 takes_flag takes_text?
  takes_modifier takes_list)

attribute [ext] OptionEntry Field Constant EnumType Message Method Service ProtoFile Schema

variable {fuel depth : Nat} {text : List Char}

/-- A part of a declaration if its key is given, and the default otherwise. -/
def pick {β : Type} (keys : List String) (key : String) (part default : β) : β := if key ∈ keys then part else default

section

variable {β : Type} {keys : List String} {key other : String} {part default : β}

@[simp] theorem pick_cons_self : pick (key :: keys) key part default = part := if_pos List.mem_cons_self

@[simp] theorem pick_cons_of_ne (h : key ≠ other) :
    pick (other :: keys) key part default = pick keys key part default := by
  simp [pick, h]

private theorem pick_eq {value : Value} {default? : Option Value} (h : key ∈ keys ∨ default? = some value)
    (hdefault : default? = some value → part = default) : pick keys key part default = part := by
  rw [pick]
  split_ifs with hkey
  · rfl
  · exact (hdefault (h.resolve_left hkey)).symm

end

/-! ### Options -/

namespace OptionEntry

def given (entry : OptionEntry) (keys : List String) : OptionEntry where
  name := pick keys "name" entry.name ""
  value := pick keys "value" entry.value .null

private theorem takes_read {entry : OptionEntry} (h : Presents (.record .option) entry.toJson text)
    (hexact : entry.value.IsExact)
    (hdepth : entry.toJson.depth ≤ depth) (hfuel : text.length < fuel) : (read fuel depth).Takes text entry := by
  obtain ⟨hpositive, hparts⟩ := Value.depth_le_of_object hdepth
  simp only [List.forall_mem_cons] at hparts
  refine takes_record entry.given h ?_ (fun keys hkeys => ?_) hpositive hfuel
  · refine .cons (matches_of rfl rfl (fun _ htext _ => takes_string htext) fun keys => ?_)
      (.cons (matches_of rfl rfl (fun _ htext hfuel => takes_readValue htext hexact hparts.2.1 hfuel) fun keys => ?_) .nil)
    · simp [given]
    · simp [given]
  · obtain ⟨hname, hvalue⟩ := hkeys
    exact OptionEntry.ext (pick_eq hname nofun) (pick_eq hvalue nofun)

private theorem takes_readList {options : List OptionEntry}
    (h : Presents (.list (.record .option)) (.array (options.map toJson)) text) (hexact : ∀ value ∈ options.map OptionEntry.value, value.IsExact)
    (hdepth : (Value.array (options.map toJson)).depth ≤ depth) (hfuel : text.length < fuel) :
    (Json.readList fuel depth (read fuel (depth - 1))).Takes text options :=
  takes_list h (fun entry hentry _ htext => takes_read htext (hexact entry.value (List.mem_map_of_mem hentry))) hdepth hfuel

end OptionEntry

/-! ### Defaults -/

section

variable {given : Option String} {part default : String} {flag : Bool} {modifier : Modifier}

private theorem eq_none_of_null (h : some Value.null = some (Value.ofText? given)) : given = none := by
  cases given with
  | none => rfl
  | some name => cases h

private theorem eq_nil_of_array {β : Type} {items : List β} {write : β → Value}
    (h : some (Value.array []) = some (Value.array (items.map write))) : items = [] := by
  cases items with
  | nil => rfl
  | cons item items => cases h

private theorem eq_of_string (h : some (Value.string default) = some (Value.string part)) : part = default := by
  cases h
  rfl

private theorem eq_false_of_bool (h : some (Value.bool false) = some (Value.bool flag)) : flag = false := by
  cases h
  rfl

private theorem eq_none_of_tag (h : some (Value.string "none") = some (Value.string modifier.tag)) :
    modifier = .none := by
  have htag := eq_of_string h
  revert htag
  cases modifier <;> decide

end

/-! ### Declarations -/

namespace Field

def given (field : Field) (keys : List String) : Field where
  name := pick keys "name" field.name ""
  tag := pick keys "tag" field.tag 0
  typeName := pick keys "type" field.typeName ""
  modifier := pick keys "modifier" field.modifier .none
  oneof := pick keys "oneof" field.oneof none
  mapKey := pick keys "map_key" field.mapKey none
  comment := pick keys "comment" field.comment none
  options := pick keys "options" field.options []

def optionValues (field : Field) : List Value := field.options.map OptionEntry.value

private theorem takes_read {field : Field} (h : Presents (.record .field) field.toJson text)
    (hexact : ∀ value ∈ field.optionValues, value.IsExact) (hdepth : field.toJson.depth ≤ depth) (hfuel : text.length < fuel) :
    (read fuel depth).Takes text field := by
  obtain ⟨hpositive, hparts⟩ := Value.depth_le_of_object hdepth
  simp only [List.forall_mem_cons] at hparts
  obtain ⟨-, -, -, -, -, -, -, hoptions, -⟩ := hparts
  refine takes_record field.given h ?_ (fun keys hkeys => ?_) hpositive hfuel
  · refine .cons (matches_of rfl rfl (fun _ htext _ => takes_string htext) ?_) <|
      .cons (matches_of rfl rfl (fun _ htext _ => takes_int32 htext) ?_) <|
      .cons (matches_of rfl rfl (fun _ htext _ => takes_string htext) ?_) <|
      .cons (matches_of rfl rfl (fun _ htext _ => takes_modifier htext) ?_) <|
      .cons (matches_of rfl rfl (fun _ htext _ => takes_text? htext) ?_) <|
      .cons (matches_of rfl rfl (fun _ htext _ => takes_text? htext) ?_) <|
      .cons (matches_of rfl rfl (fun _ htext _ => takes_text? htext) ?_) <|
      .cons (matches_of rfl rfl (fun _ htext => OptionEntry.takes_readList htext hexact hoptions) ?_) .nil
    all_goals simp [given]
  · obtain ⟨hname, htag, htype, hmodifier, honeof, hmapKey, hcomment, hoptions⟩ := hkeys
    exact Field.ext (pick_eq hname nofun) (pick_eq htag nofun) (pick_eq htype nofun) (pick_eq hmodifier eq_none_of_tag)
      (pick_eq honeof eq_none_of_null) (pick_eq hmapKey eq_none_of_null) (pick_eq hcomment eq_none_of_null)
      (pick_eq hoptions eq_nil_of_array)

end Field

namespace Constant

def given (constant : Constant) (keys : List String) : Constant where
  name := pick keys "name" constant.name ""
  value := pick keys "value" constant.value 0
  comment := pick keys "comment" constant.comment none
  options := pick keys "options" constant.options []

def optionValues (constant : Constant) : List Value := constant.options.map OptionEntry.value

private theorem takes_read {constant : Constant} (h : Presents (.record .constant) constant.toJson text)
    (hexact : ∀ value ∈ constant.optionValues, value.IsExact) (hdepth : constant.toJson.depth ≤ depth)
    (hfuel : text.length < fuel) : (read fuel depth).Takes text constant := by
  obtain ⟨hpositive, hparts⟩ := Value.depth_le_of_object hdepth
  simp only [List.forall_mem_cons] at hparts
  obtain ⟨-, -, -, hoptions, -⟩ := hparts
  refine takes_record constant.given h ?_ (fun keys hkeys => ?_) hpositive hfuel
  · refine .cons (matches_of rfl rfl (fun _ htext _ => takes_string htext) ?_) <|
      .cons (matches_of rfl rfl (fun _ htext _ => takes_int32 htext) ?_) <|
      .cons (matches_of rfl rfl (fun _ htext _ => takes_text? htext) ?_) <|
      .cons (matches_of rfl rfl (fun _ htext => OptionEntry.takes_readList htext hexact hoptions) ?_) .nil
    all_goals simp [given]
  · obtain ⟨hname, hvalue, hcomment, hoptions⟩ := hkeys
    exact Constant.ext (pick_eq hname nofun) (pick_eq hvalue nofun) (pick_eq hcomment eq_none_of_null)
      (pick_eq hoptions eq_nil_of_array)

end Constant

namespace EnumType

def given (type : EnumType) (keys : List String) : EnumType where
  name := pick keys "name" type.name ""
  comment := pick keys "comment" type.comment none
  constants := pick keys "constants" type.constants []
  options := pick keys "options" type.options []

def optionValues (type : EnumType) : List Value :=
  type.constants.flatMap Constant.optionValues ++ type.options.map OptionEntry.value

private theorem takes_read {type : EnumType} (h : Presents (.record .enum) type.toJson text)
    (hexact : ∀ value ∈ type.optionValues, value.IsExact) (hdepth : type.toJson.depth ≤ depth)
    (hfuel : text.length < fuel) : (read fuel depth).Takes text type := by
  obtain ⟨hpositive, hparts⟩ := Value.depth_le_of_object hdepth
  simp only [List.forall_mem_cons] at hparts
  obtain ⟨-, -, hconstants, hoptions, -⟩ := hparts
  rw [optionValues, List.forall_mem_append, List.forall_mem_flatMap] at hexact
  obtain ⟨hconstantsExact, hexact⟩ := hexact
  refine takes_record type.given h ?_ (fun keys hkeys => ?_) hpositive hfuel
  · refine .cons (matches_of rfl rfl (fun _ htext _ => takes_string htext) ?_) <|
      .cons (matches_of rfl rfl (fun _ htext _ => takes_text? htext) ?_) <|
      .cons (matches_of rfl rfl (fun _ htext => takes_list htext
        (fun constant hconstant _ htext => Constant.takes_read htext (hconstantsExact constant hconstant)) hconstants) ?_) <|
      .cons (matches_of rfl rfl (fun _ htext => OptionEntry.takes_readList htext hexact hoptions) ?_) .nil
    all_goals simp [given]
  · obtain ⟨hname, hcomment, hconstants, hoptions⟩ := hkeys
    exact EnumType.ext (pick_eq hname nofun) (pick_eq hcomment eq_none_of_null) (pick_eq hconstants eq_nil_of_array)
      (pick_eq hoptions eq_nil_of_array)

end EnumType

namespace Message

def given (message : Message) (keys : List String) : Message where
  name := pick keys "name" message.name ""
  comment := pick keys "comment" message.comment none
  fields := pick keys "fields" message.fields []
  messages := pick keys "messages" message.messages []
  enums := pick keys "enums" message.enums []
  options := pick keys "options" message.options []

mutual

def optionValues : Message → List Value
  | ⟨_, _, fields, messages, enums, options⟩ =>
    fields.flatMap Field.optionValues ++ listOptionValues messages ++ enums.flatMap EnumType.optionValues ++
      options.map OptionEntry.value

def listOptionValues : List Message → List Value
  | [] => []
  | message :: messages => message.optionValues ++ listOptionValues messages

end

theorem listOptionValues_eq (messages : List Message) : listOptionValues messages = messages.flatMap optionValues := by
  induction messages with
  | nil => rw [listOptionValues, List.flatMap_nil]
  | cons message messages ih => rw [listOptionValues, ih, List.flatMap_cons]

theorem optionValues_eq (message : Message) :
    message.optionValues = message.fields.flatMap Field.optionValues ++ message.messages.flatMap optionValues ++
      message.enums.flatMap EnumType.optionValues ++ message.options.map OptionEntry.value := by
  cases message
  rw [optionValues, listOptionValues_eq]

theorem listToJson_eq (messages : List Message) : listToJson messages = messages.map toJson := by
  induction messages with
  | nil => rw [listToJson, List.map_nil]
  | cons message messages ih => rw [listToJson, ih, List.map_cons]

theorem toJson_eq (message : Message) :
    message.toJson = .object
      [("name", .string message.name), ("comment", .ofText? message.comment),
       ("fields", .array (message.fields.map Field.toJson)), ("messages", .array (message.messages.map toJson)),
       ("enums", .array (message.enums.map EnumType.toJson)),
       ("options", .array (message.options.map OptionEntry.toJson))] := by
  cases message
  rw [toJson, listToJson_eq]
  rfl

private theorem read_eq (h : 1 < depth) :
    read fuel depth = Json.readRecord fuel depth {} (slots fuel (depth - 1) (read fuel (depth - 1 - 1))) := by
  obtain ⟨depth, rfl⟩ := Nat.exists_eq_add_of_le' h
  rw [read]
  rfl

private theorem takes_read {message : Message} (h : Presents (.record .message) message.toJson text)
    (hexact : ∀ value ∈ message.optionValues, value.IsExact) (hdepth : message.toJson.depth ≤ depth)
    (hfuel : text.length < fuel) : (read fuel depth).Takes text message := by
  induction message using nestedInduction generalizing text depth with | step message ih =>
  rw [toJson_eq] at h hdepth
  obtain ⟨hpositive, hparts⟩ := Value.depth_le_of_object hdepth
  simp only [List.forall_mem_cons] at hparts
  obtain ⟨-, -, hfields, hmessages, henums, hoptions, -⟩ := hparts
  have hdeep : 0 < depth - 1 := (Value.depth_le_of_array hfields).1
  rw [optionValues_eq, List.forall_mem_append, List.forall_mem_append, List.forall_mem_append, List.forall_mem_flatMap,
    List.forall_mem_flatMap, List.forall_mem_flatMap] at hexact
  obtain ⟨⟨⟨hfieldsExact, hmessagesExact⟩, henumsExact⟩, hexact⟩ := hexact
  rw [read_eq (by omega)]
  refine takes_record message.given h ?_ (fun keys hkeys => ?_) hpositive hfuel
  · refine .cons (matches_of rfl rfl (fun _ htext _ => takes_string htext) ?_) <|
      .cons (matches_of rfl rfl (fun _ htext _ => takes_text? htext) ?_) <|
      .cons (matches_of rfl rfl (fun _ htext => takes_list htext
        (fun field hfield _ htext => Field.takes_read htext (hfieldsExact field hfield)) hfields) ?_) <|
      .cons (matches_of rfl rfl (fun _ htext => takes_list htext
        (fun nested hnested _ htext => ih nested hnested htext (hmessagesExact nested hnested)) hmessages) ?_) <|
      .cons (matches_of rfl rfl (fun _ htext => takes_list htext
        (fun type htype _ htext => EnumType.takes_read htext (henumsExact type htype)) henums) ?_) <|
      .cons (matches_of rfl rfl (fun _ htext => OptionEntry.takes_readList htext hexact hoptions) ?_) .nil
    all_goals simp [given]
  · obtain ⟨hname, hcomment, hfields, hmessages, henums, hoptions⟩ := hkeys
    exact Message.ext (pick_eq hname nofun) (pick_eq hcomment eq_none_of_null) (pick_eq hfields eq_nil_of_array)
      (pick_eq hmessages eq_nil_of_array) (pick_eq henums eq_nil_of_array) (pick_eq hoptions eq_nil_of_array)

end Message

namespace Method

def given (method : Method) (keys : List String) : Method where
  name := pick keys "name" method.name ""
  inputType := pick keys "input_type" method.inputType ""
  outputType := pick keys "output_type" method.outputType ""
  clientStreaming := pick keys "client_streaming" method.clientStreaming false
  serverStreaming := pick keys "server_streaming" method.serverStreaming false
  comment := pick keys "comment" method.comment none
  options := pick keys "options" method.options []

def optionValues (method : Method) : List Value := method.options.map OptionEntry.value

private theorem takes_read {method : Method} (h : Presents (.record .method) method.toJson text)
    (hexact : ∀ value ∈ method.optionValues, value.IsExact) (hdepth : method.toJson.depth ≤ depth)
    (hfuel : text.length < fuel) : (read fuel depth).Takes text method := by
  obtain ⟨hpositive, hparts⟩ := Value.depth_le_of_object hdepth
  simp only [List.forall_mem_cons] at hparts
  obtain ⟨-, -, -, -, -, -, hoptions, -⟩ := hparts
  refine takes_record method.given h ?_ (fun keys hkeys => ?_) hpositive hfuel
  · refine .cons (matches_of rfl rfl (fun _ htext _ => takes_string htext) ?_) <|
      .cons (matches_of rfl rfl (fun _ htext _ => takes_string htext) ?_) <|
      .cons (matches_of rfl rfl (fun _ htext _ => takes_string htext) ?_) <|
      .cons (matches_of rfl rfl (fun _ htext _ => takes_flag htext) ?_) <|
      .cons (matches_of rfl rfl (fun _ htext _ => takes_flag htext) ?_) <|
      .cons (matches_of rfl rfl (fun _ htext _ => takes_text? htext) ?_) <|
      .cons (matches_of rfl rfl (fun _ htext => OptionEntry.takes_readList htext hexact hoptions) ?_) .nil
    all_goals simp [given]
  · obtain ⟨hname, hinput, houtput, hclient, hserver, hcomment, hoptions⟩ := hkeys
    exact Method.ext (pick_eq hname nofun) (pick_eq hinput nofun) (pick_eq houtput nofun) (pick_eq hclient eq_false_of_bool)
      (pick_eq hserver eq_false_of_bool) (pick_eq hcomment eq_none_of_null) (pick_eq hoptions eq_nil_of_array)

end Method

namespace Service

def given (service : Service) (keys : List String) : Service where
  name := pick keys "name" service.name ""
  comment := pick keys "comment" service.comment none
  methods := pick keys "methods" service.methods []
  options := pick keys "options" service.options []

def optionValues (service : Service) : List Value :=
  service.methods.flatMap Method.optionValues ++ service.options.map OptionEntry.value

private theorem takes_read {service : Service} (h : Presents (.record .service) service.toJson text)
    (hexact : ∀ value ∈ service.optionValues, value.IsExact) (hdepth : service.toJson.depth ≤ depth)
    (hfuel : text.length < fuel) : (read fuel depth).Takes text service := by
  obtain ⟨hpositive, hparts⟩ := Value.depth_le_of_object hdepth
  simp only [List.forall_mem_cons] at hparts
  obtain ⟨-, -, hmethods, hoptions, -⟩ := hparts
  rw [optionValues, List.forall_mem_append, List.forall_mem_flatMap] at hexact
  obtain ⟨hmethodsExact, hexact⟩ := hexact
  refine takes_record service.given h ?_ (fun keys hkeys => ?_) hpositive hfuel
  · refine .cons (matches_of rfl rfl (fun _ htext _ => takes_string htext) ?_) <|
      .cons (matches_of rfl rfl (fun _ htext _ => takes_text? htext) ?_) <|
      .cons (matches_of rfl rfl (fun _ htext => takes_list htext
        (fun method hmethod _ htext => Method.takes_read htext (hmethodsExact method hmethod)) hmethods) ?_) <|
      .cons (matches_of rfl rfl (fun _ htext => OptionEntry.takes_readList htext hexact hoptions) ?_) .nil
    all_goals simp [given]
  · obtain ⟨hname, hcomment, hmethods, hoptions⟩ := hkeys
    exact Service.ext (pick_eq hname nofun) (pick_eq hcomment eq_none_of_null) (pick_eq hmethods eq_nil_of_array)
      (pick_eq hoptions eq_nil_of_array)

end Service

/-! ### Files and schemas -/

namespace ProtoFile

def given (file : ProtoFile) (keys : List String) : ProtoFile where
  name := pick keys "name" file.name ""
  package := pick keys "package" file.package none
  dialect := pick keys "syntax" file.dialect "proto3"
  comment := pick keys "comment" file.comment none
  imports := pick keys "imports" file.imports []
  options := pick keys "options" file.options []
  messages := pick keys "messages" file.messages []
  enums := pick keys "enums" file.enums []
  services := pick keys "services" file.services []

def optionValues (file : ProtoFile) : List Value :=
  file.options.map OptionEntry.value ++ file.messages.flatMap Message.optionValues ++
    file.enums.flatMap EnumType.optionValues ++ file.services.flatMap Service.optionValues

private theorem takes_read {file : ProtoFile} (h : Presents (.record .file) file.toJson text)
    (hexact : ∀ value ∈ file.optionValues, value.IsExact) (hdepth : file.toJson.depth ≤ depth)
    (hfuel : text.length < fuel) : (read fuel depth).Takes text file := by
  obtain ⟨hpositive, hparts⟩ := Value.depth_le_of_object hdepth
  simp only [List.forall_mem_cons] at hparts
  obtain ⟨-, -, -, -, himports, hoptions, hmessages, henums, hservices, -⟩ := hparts
  rw [optionValues, List.forall_mem_append, List.forall_mem_append, List.forall_mem_append, List.forall_mem_flatMap,
    List.forall_mem_flatMap, List.forall_mem_flatMap] at hexact
  obtain ⟨⟨⟨hexact, hmessagesExact⟩, henumsExact⟩, hservicesExact⟩ := hexact
  refine takes_record file.given h ?_ (fun keys hkeys => ?_) hpositive hfuel
  · refine .cons (matches_of rfl rfl (fun _ htext _ => takes_string htext) ?_) <|
      .cons (matches_of rfl rfl (fun _ htext _ => takes_text? htext) ?_) <|
      .cons (matches_of rfl rfl (fun _ htext _ => takes_string htext) ?_) <|
      .cons (matches_of rfl rfl (fun _ htext _ => takes_text? htext) ?_) <|
      .cons (matches_of rfl rfl (fun _ htext => takes_list htext (fun _ _ _ htext _ _ => takes_string htext) himports) ?_) <|
      .cons (matches_of rfl rfl (fun _ htext => OptionEntry.takes_readList htext hexact hoptions) ?_) <|
      .cons (matches_of rfl rfl (fun _ htext => takes_list htext
        (fun message hmessage _ htext => Message.takes_read htext (hmessagesExact message hmessage)) hmessages) ?_) <|
      .cons (matches_of rfl rfl (fun _ htext => takes_list htext
        (fun type htype _ htext => EnumType.takes_read htext (henumsExact type htype)) henums) ?_) <|
      .cons (matches_of rfl rfl (fun _ htext => takes_list htext
        (fun service hservice _ htext => Service.takes_read htext (hservicesExact service hservice)) hservices) ?_) .nil
    all_goals simp [given]
  · obtain ⟨hname, hpackage, hsyntax, hcomment, himports, hoptions, hmessages, henums, hservices⟩ := hkeys
    exact ProtoFile.ext (pick_eq hname nofun) (pick_eq hpackage eq_none_of_null) (pick_eq hsyntax eq_of_string)
      (pick_eq hcomment eq_none_of_null) (pick_eq himports eq_nil_of_array) (pick_eq hoptions eq_nil_of_array)
      (pick_eq hmessages eq_nil_of_array) (pick_eq henums eq_nil_of_array) (pick_eq hservices eq_nil_of_array)

end ProtoFile

namespace Schema

def given (schema : Schema) (keys : List String) : Schema where
  name := pick keys "name" schema.name ""
  files := pick keys "files" schema.files []
  output := pick keys "output" schema.output "dist"

/-- The values of all options in a schema. -/
def optionValues (schema : Schema) : List Value := schema.files.flatMap ProtoFile.optionValues

theorem takes_readRecord {schema : Schema} (h : Presents (.record .schema) schema.toJson text)
    (hexact : ∀ value ∈ schema.optionValues, value.IsExact) (hdepth : schema.toJson.depth ≤ depth)
    (hfuel : text.length < fuel) : (Json.readRecord fuel depth {} (slots fuel (depth - 1))).Takes text schema := by
  obtain ⟨hpositive, hparts⟩ := Value.depth_le_of_object hdepth
  simp only [List.forall_mem_cons] at hparts
  obtain ⟨-, hfiles, -⟩ := hparts
  rw [optionValues, List.forall_mem_flatMap] at hexact
  refine takes_record schema.given h ?_ (fun keys hkeys => ?_) hpositive hfuel
  · refine .cons (matches_of rfl rfl (fun _ htext _ => takes_string htext) ?_) <|
      .cons (matches_of rfl rfl (fun _ htext => takes_list htext
        (fun file hfile _ htext => ProtoFile.takes_read htext (hexact file hfile)) hfiles) ?_) <|
      .cons (matches_of rfl rfl (fun _ htext _ => takes_string htext) ?_) .nil
    all_goals simp [given]
  · obtain ⟨hname, hfiles, houtput⟩ := hkeys
    exact Schema.ext (pick_eq hname eq_of_string) (pick_eq hfiles eq_nil_of_array) (pick_eq houtput eq_of_string)

end Schema

end SchemaDocs
