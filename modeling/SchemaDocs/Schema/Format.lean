import SchemaDocs.Json.Reader
import SchemaDocs.Schema.Basic

/-!
# The JSON format of schemas

For every declaration the format names the fields of its object, in the order of its array form, and
says which must be given. `read` functions take the bound on loops and the number of brackets that
may still be opened; `toJson` functions write every field out, absent ones as null.
-/

namespace SchemaDocs

open Json (Value Reader Slot readRecord readList readOption readString readBool readInt32 readValue readAlternative)

private def commentSlot {α : Type} (set : α → Option String → α) : Slot α :=
  .of "comment" false (readOption readString) set

/-! ### Reading -/

def OptionEntry.read (fuel depth : Nat) : Reader OptionEntry :=
  readRecord fuel depth {}
    [.of "name" true readString fun entry name => { entry with name },
     .of "value" true (readValue fuel (depth - 1)) fun entry value => { entry with value }]

private def optionsSlot {α : Type} (fuel depth : Nat) (set : α → List OptionEntry → α) : Slot α :=
  .of "options" false (readList fuel depth (OptionEntry.read fuel (depth - 1))) set

def Field.slots (fuel depth : Nat) : List (Slot Field) :=
  [.of "name" true readString fun field name => { field with name },
   .of "tag" true readInt32 fun field tag => { field with tag },
   .of "type" true readString fun field typeName => { field with typeName },
   .of "modifier" false (readAlternative depth Modifier.ofTag?) fun field modifier => { field with modifier },
   .of "oneof" false (readOption readString) fun field oneof => { field with oneof },
   .of "map_key" false (readOption readString) fun field mapKey => { field with mapKey },
   commentSlot fun field comment => { field with comment },
   optionsSlot fuel depth fun field options => { field with options }]

def Field.read (fuel depth : Nat) : Reader Field := readRecord fuel depth {} (Field.slots fuel (depth - 1))

def Constant.slots (fuel depth : Nat) : List (Slot Constant) :=
  [.of "name" true readString fun constant name => { constant with name },
   .of "value" true readInt32 fun constant value => { constant with value },
   commentSlot fun constant comment => { constant with comment },
   optionsSlot fuel depth fun constant options => { constant with options }]

def Constant.read (fuel depth : Nat) : Reader Constant :=
  readRecord fuel depth {} (Constant.slots fuel (depth - 1))

def EnumType.slots (fuel depth : Nat) : List (Slot EnumType) :=
  [.of "name" true readString fun type name => { type with name },
   commentSlot fun type comment => { type with comment },
   .of "constants" false (readList fuel depth (Constant.read fuel (depth - 1)))
     fun type constants => { type with constants },
   optionsSlot fuel depth fun type options => { type with options }]

def EnumType.read (fuel depth : Nat) : Reader EnumType :=
  readRecord fuel depth {} (EnumType.slots fuel (depth - 1))

/-- The fields of a message, given a reader for the nested messages. -/
def Message.slots (fuel depth : Nat) (nested : Reader Message) : List (Slot Message) :=
  [.of "name" true readString fun message name => { message with name },
   commentSlot fun message comment => { message with comment },
   .of "fields" false (readList fuel depth (Field.read fuel (depth - 1)))
     fun message fields => { message with fields },
   .of "messages" false (readList fuel depth nested) fun message messages => { message with messages },
   .of "enums" false (readList fuel depth (EnumType.read fuel (depth - 1)))
     fun message enums => { message with enums },
   optionsSlot fuel depth fun message options => { message with options }]

/-- Reads a message. A nested message stands two brackets deeper; where it cannot be opened any more
its reader is never asked. -/
def Message.read (fuel : Nat) : (depth : Nat) → Reader Message
  | 0 => readRecord fuel 0 {} []
  | 1 => readRecord fuel 1 {} (Message.slots fuel 0 (readRecord fuel 0 {} []))
  | depth + 2 => readRecord fuel (depth + 2) {} (Message.slots fuel (depth + 1) (Message.read fuel depth))

def Method.slots (fuel depth : Nat) : List (Slot Method) :=
  [.of "name" true readString fun method name => { method with name },
   .of "input_type" true readString fun method inputType => { method with inputType },
   .of "output_type" true readString fun method outputType => { method with outputType },
   .of "client_streaming" false readBool fun method clientStreaming => { method with clientStreaming },
   .of "server_streaming" false readBool fun method serverStreaming => { method with serverStreaming },
   commentSlot fun method comment => { method with comment },
   optionsSlot fuel depth fun method options => { method with options }]

def Method.read (fuel depth : Nat) : Reader Method := readRecord fuel depth {} (Method.slots fuel (depth - 1))

def Service.slots (fuel depth : Nat) : List (Slot Service) :=
  [.of "name" true readString fun service name => { service with name },
   commentSlot fun service comment => { service with comment },
   .of "methods" false (readList fuel depth (Method.read fuel (depth - 1)))
     fun service methods => { service with methods },
   optionsSlot fuel depth fun service options => { service with options }]

def Service.read (fuel depth : Nat) : Reader Service :=
  readRecord fuel depth {} (Service.slots fuel (depth - 1))

def ProtoFile.slots (fuel depth : Nat) : List (Slot ProtoFile) :=
  [.of "name" true readString fun file name => { file with name },
   .of "package" false (readOption readString) fun file package => { file with package },
   .of "syntax" false readString fun file dialect => { file with dialect },
   commentSlot fun file comment => { file with comment },
   .of "imports" false (readList fuel depth readString) fun file imports => { file with imports },
   optionsSlot fuel depth fun file options => { file with options },
   .of "messages" false (readList fuel depth (Message.read fuel (depth - 1)))
     fun file messages => { file with messages },
   .of "enums" false (readList fuel depth (EnumType.read fuel (depth - 1))) fun file enums => { file with enums },
   .of "services" false (readList fuel depth (Service.read fuel (depth - 1)))
     fun file services => { file with services }]

def ProtoFile.read (fuel depth : Nat) : Reader ProtoFile :=
  readRecord fuel depth {} (ProtoFile.slots fuel (depth - 1))

def Schema.slots (fuel depth : Nat) : List (Slot Schema) :=
  [.of "name" false readString fun schema name => { schema with name },
   .of "files" false (readList fuel depth (ProtoFile.read fuel (depth - 1)))
     fun schema files => { schema with files },
   .of "output" false readString fun schema output => { schema with output }]

def Schema.parse (text : String) : Except Json.Fault Schema :=
  let fuel := text.length + 1
  Json.readAll (readRecord fuel Json.maxDepth {} (Schema.slots fuel (Json.maxDepth - 1))) text.toList

/-! ### Writing -/

def OptionEntry.toJson (entry : OptionEntry) : Value :=
  .object [("name", .string entry.name), ("value", entry.value)]

private def optionsJson (options : List OptionEntry) : Value := .array (options.map OptionEntry.toJson)

def Field.toJson (field : Field) : Value :=
  .object
    [("name", .string field.name), ("tag", .ofInt field.tag.toInt), ("type", .string field.typeName),
     ("modifier", .string field.modifier.tag), ("oneof", .ofText? field.oneof), ("map_key", .ofText? field.mapKey),
     ("comment", .ofText? field.comment), ("options", optionsJson field.options)]

def Constant.toJson (constant : Constant) : Value :=
  .object
    [("name", .string constant.name), ("value", .ofInt constant.value.toInt),
     ("comment", .ofText? constant.comment), ("options", optionsJson constant.options)]

def EnumType.toJson (type : EnumType) : Value :=
  .object
    [("name", .string type.name), ("comment", .ofText? type.comment),
     ("constants", .array (type.constants.map Constant.toJson)), ("options", optionsJson type.options)]

mutual

def Message.toJson : Message → Value
  | ⟨name, comment, fields, messages, enums, options⟩ =>
    .object
      [("name", .string name), ("comment", .ofText? comment), ("fields", .array (fields.map Field.toJson)),
       ("messages", .array (Message.listToJson messages)), ("enums", .array (enums.map EnumType.toJson)),
       ("options", optionsJson options)]

def Message.listToJson : List Message → List Value
  | [] => []
  | message :: messages => message.toJson :: Message.listToJson messages

end

def Method.toJson (method : Method) : Value :=
  .object
    [("name", .string method.name), ("input_type", .string method.inputType),
     ("output_type", .string method.outputType), ("client_streaming", .bool method.clientStreaming),
     ("server_streaming", .bool method.serverStreaming), ("comment", .ofText? method.comment),
     ("options", optionsJson method.options)]

def Service.toJson (service : Service) : Value :=
  .object
    [("name", .string service.name), ("comment", .ofText? service.comment),
     ("methods", .array (service.methods.map Method.toJson)), ("options", optionsJson service.options)]

def ProtoFile.toJson (file : ProtoFile) : Value :=
  .object
    [("name", .string file.name), ("package", .ofText? file.package), ("syntax", .string file.dialect),
     ("comment", .ofText? file.comment), ("imports", .array (file.imports.map .string)),
     ("options", optionsJson file.options), ("messages", .array (file.messages.map Message.toJson)),
     ("enums", .array (file.enums.map EnumType.toJson)), ("services", .array (file.services.map Service.toJson))]

def Schema.toJson (schema : Schema) : Value :=
  .object
    [("name", .string schema.name), ("files", .array (schema.files.map ProtoFile.toJson)),
     ("output", .string schema.output)]

end SchemaDocs
