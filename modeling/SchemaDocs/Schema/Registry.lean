import SchemaDocs.Schema.Basic
import SchemaDocs.Text.Split

/-!
# The registry of a schema

Every file, message, enum and service gets an entry with a qualified name, and an index says at which
position the entry of a name stands. Entries follow the declarations: each file, then its messages with
the messages and enums nested in them, then its enums, then its services. Building the registry checks
every name on its way and, once all names are known, every reference from a field or a method.
-/

namespace SchemaDocs

/-- The kinds of documented declarations, in the order of their groups in the navigation. -/
inductive Kind where
  | proto
  | message
  | enum
  | service
deriving DecidableEq, Repr

/-- All kinds, in order. -/
def Kind.all : List Kind := [.proto, .message, .enum, .service]

/-- The word for a kind, also the name of the directory of its documents. -/
def Kind.tag : Kind → String
  | .proto => "proto"
  | .message => "message"
  | .enum => "enum"
  | .service => "service"

def documentPath (kind : Kind) (qualifiedName : String) : String :=
  "data/" ++ kind.tag ++ "/" ++ qualifiedName ++ ".json"

inductive Declaration where
  | file (file : ProtoFile)
  | message (message : Message)
  | enum (type : EnumType)
  | service (service : Service)

namespace Declaration

def kind : Declaration → Kind
  | .file _ => .proto
  | .message _ => .message
  | .enum _ => .enum
  | .service _ => .service

def name : Declaration → String
  | .file f => f.name
  | .message m => m.name
  | .enum e => e.name
  | .service s => s.name

def comment : Declaration → Option String
  | .file f => f.comment
  | .message m => m.comment
  | .enum e => e.comment
  | .service s => s.comment

end Declaration

/-- A declaration with the kind it is listed under, its qualified name (the path of a file), the file it
stands in, and the qualified name of the message that encloses it. -/
structure Entry where
  kind : Kind
  qualifiedName : String
  file : String
  parent : Option String
  declaration : Declaration

namespace Entry

def name (entry : Entry) : String := entry.declaration.name

def comment (entry : Entry) : Option String := entry.declaration.comment

def path (entry : Entry) : String := documentPath entry.kind entry.qualifiedName

end Entry

/-! ### Names -/

inductive NameFault where
  | notRelative
  | relativeSegment
  | emptySegment
  | pathSeparator
deriving DecidableEq, Repr

def NameFault.reason : NameFault → String
  | .notRelative => "file name must be a relative path"
  | .relativeSegment => "empty or relative path segment"
  | .emptySegment => "empty name segment"
  | .pathSeparator => "path separator in name"

def fileNameFault? (name : String) : Option NameFault :=
  if name.toList.head? = some '/' || name.toList.contains '\\' then some .notRelative
  else if (Text.pieces '/' name).any fun segment => segment = "" || segment = "." || segment = ".." then
    some .relativeSegment
  else none

/-- The fault of a qualified name: its dotted segments are not empty and name no path. -/
def typeNameFault? (name : String) : Option NameFault :=
  if (Text.pieces '.' name).any (· = "") then some .emptySegment
  else if name.toList.any fun c => c = '/' || c = '\\' then some .pathSeparator
  else none

/-! ### Building and looking up -/

inductive SchemaError where
  | duplicateName (kind : Kind) (name : String)
  | invalidName (kind : Kind) (name : String) (fault : NameFault)
  | unresolvedType (typeName referrer : String)
deriving DecidableEq, Repr

def SchemaError.message : SchemaError → String
  | duplicateName kind name => "Duplicate " ++ kind.tag ++ " name: " ++ name
  | invalidName kind name fault => "Invalid " ++ kind.tag ++ " name '" ++ name ++ "': " ++ fault.reason
  | unresolvedType typeName referrer => "Unresolved type '" ++ typeName ++ "' referenced by " ++ referrer

inductive TypeRef where
  | scalar (name : String)
  | named (kind : Kind) (qualifiedName : String)
deriving DecidableEq, Repr

namespace TypeRef

def name : TypeRef → String
  | scalar name => name
  | named _ qualifiedName => qualifiedName

def tag : TypeRef → String
  | scalar _ => "scalar"
  | named kind _ => kind.tag

/-- The output path of the type's document; scalars have none. -/
def path? : TypeRef → Option String
  | scalar _ => none
  | named kind qualifiedName => some (documentPath kind qualifiedName)

end TypeRef

/-- The entries of a schema in the order of their declarations, with the positions of their names. Files
have an index of their own. -/
structure Registry where
  entries : List Entry := []
  /-- The positions of messages, enums and services. -/
  byName : List (String × Nat) := []
  byFile : List (String × Nat) := []

namespace Registry

/-- The message, enum or service of a qualified name. -/
def get? (registry : Registry) (name : String) : Option Entry :=
  (registry.byName.lookup name).bind fun position => registry.entries[position]?

def file? (registry : Registry) (name : String) : Option Entry :=
  (registry.byFile.lookup name).bind fun position => registry.entries[position]?

def ofKind (registry : Registry) (kind : Kind) : List Entry := registry.entries.filter (·.kind = kind)

def declaring (registry : Registry) (kind : Kind) : List Entry := registry.entries.filter (·.declaration.kind = kind)

def undotted (name : String) : String :=
  match name.toList with
  | '.' :: rest => String.ofList rest
  | _ => name

/-- The scalar, message or enum that a type name means; a leading dot marks a name as fully
qualified. -/
def resolve? (registry : Registry) (typeName : String) : Option TypeRef :=
  if isScalar typeName then some (.scalar typeName)
  else
    match registry.get? (undotted typeName) with
    | none => none
    | some entry =>
      match entry.kind with
      | .message | .enum => some (.named entry.kind entry.qualifiedName)
      | .proto | .service => none

def addFile (registry : Registry) (entry : Entry) : Except SchemaError Registry :=
  match fileNameFault? entry.qualifiedName with
  | some fault => .error (.invalidName entry.kind entry.qualifiedName fault)
  | none =>
    if (registry.byFile.lookup entry.qualifiedName).isSome then .error (.duplicateName entry.kind entry.qualifiedName)
    else .ok { registry with
      entries := registry.entries ++ [entry]
      byFile := (entry.qualifiedName, registry.entries.length) :: registry.byFile }

/-- Appends the entry of a message, an enum or a service with a valid name that none of them has. -/
def addNamed (registry : Registry) (entry : Entry) : Except SchemaError Registry :=
  match typeNameFault? entry.qualifiedName with
  | some fault => .error (.invalidName entry.kind entry.qualifiedName fault)
  | none =>
    if (registry.byName.lookup entry.qualifiedName).isSome then .error (.duplicateName entry.kind entry.qualifiedName)
    else .ok { registry with
      entries := registry.entries ++ [entry]
      byName := (entry.qualifiedName, registry.entries.length) :: registry.byName }

def addEnums (file : String) (parent : Option String) (scope : String) (registry : Registry) (types : List EnumType) :
    Except SchemaError Registry :=
  types.foldlM (fun registry type => registry.addNamed ⟨.enum, scope ++ type.name, file, parent, .enum type⟩) registry

mutual

/-- Adds a message, then the messages and the enums nested in it. -/
def addMessage (file : String) (parent : Option String) (scope : String) (registry : Registry) :
    Message → Except SchemaError Registry
  | ⟨name, comment, fields, messages, enums, options⟩ => do
    let qualifiedName := scope ++ name
    let registry ← registry.addNamed
      ⟨.message, qualifiedName, file, parent, .message ⟨name, comment, fields, messages, enums, options⟩⟩
    let registry ← addMessages file (some qualifiedName) (qualifiedName ++ ".") registry messages
    addEnums file (some qualifiedName) (qualifiedName ++ ".") registry enums

def addMessages (file : String) (parent : Option String) (scope : String) (registry : Registry) :
    List Message → Except SchemaError Registry
  | [] => .ok registry
  | message :: messages => do
    let registry ← addMessage file parent scope registry message
    addMessages file parent scope registry messages

end

/-- Adds a file, then its messages, its enums and its services. -/
def addDeclarations (registry : Registry) (file : ProtoFile) : Except SchemaError Registry := do
  let registry ← registry.addFile ⟨.proto, file.name, file.name, none, .file file⟩
  let registry ← addMessages file.name none file.scope registry file.messages
  let registry ← addEnums file.name none file.scope registry file.enums
  file.services.foldlM (fun registry service =>
    registry.addNamed ⟨.service, file.scope ++ service.name, file.name, none, .service service⟩) registry

/-- The names that a field or a method refers to and what they may mean. -/
inductive Requirement where
  | anyType
  | scalarType
  | messageType
deriving DecidableEq

def meets (registry : Registry) (requirement : Requirement) (typeName : String) : Bool :=
  match requirement with
  | .anyType => (registry.resolve? typeName).isSome
  | .scalarType => isScalar typeName
  | .messageType =>
    match registry.resolve? typeName with
    | some (.named .message _) => true
    | _ => false

/-- The references of a declaration: who refers, to which name, with which requirement. -/
def references (entry : Entry) : List (String × String × Requirement) :=
  match entry.declaration with
  | .message message =>
    message.fields.flatMap fun field =>
      let referrer := entry.qualifiedName ++ "." ++ field.name
      (referrer, field.typeName, .anyType) ::
        (match field.mapKey with
          | some key => [(referrer, key, .scalarType)]
          | none => [])
  | .service service =>
    service.methods.flatMap fun method =>
      let referrer := entry.qualifiedName ++ "." ++ method.name
      [(referrer, method.inputType, .messageType), (referrer, method.outputType, .messageType)]
  | .file _ | .enum _ => []

def check (registry : Registry) : Except SchemaError Unit :=
  match (registry.entries.flatMap references).find? fun (_, typeName, requirement) =>
      !registry.meets requirement typeName with
  | none => .ok ()
  | some (referrer, typeName, _) => .error (.unresolvedType typeName referrer)

end Registry

/-- The registry of a schema whose names are valid and distinct and whose references resolve. -/
def Registry.build (schema : Schema) : Except SchemaError Registry := do
  let registry ← schema.files.foldlM addDeclarations {}
  registry.check
  return registry

end SchemaDocs
