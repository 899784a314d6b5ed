import SchemaDocs.Schema.Format
import SchemaDocs.Schema.Registry

/-!
# Views of reference documents

What the documents of the reference hold, in the order of their members. Comments are rendered
already; links and types lead to other documents by their output paths.
-/

namespace SchemaDocs

open Json (Value)

/-- A link to the document of a declaration. -/
structure LinkView where
  name : String
  qualifiedName : String
  kind : Kind
  summary : String
  path : String
deriving DecidableEq, Repr

/-- A type or an import. What has no document has no path. -/
structure TypeView where
  name : String
  tag : String
  path : Option String
deriving DecidableEq, Repr

structure IndexLine where
  name : String
  kind : Kind
  summary : String
  path : String
deriving DecidableEq, Repr

structure IndexView where
  schemaName : String
  title : String
  lines : List IndexLine
deriving DecidableEq, Repr

structure FieldView where
  name : String
  tag : Int32
  modifier : Modifier
  type : TypeView
  mapKey : Option String
  oneof : Option String
  description : String
  options : List OptionEntry

structure MessageView where
  name : String
  qualifiedName : String
  file : String
  parent : Option LinkView
  description : String
  fields : List FieldView
  messages : List LinkView
  enums : List LinkView
  options : List OptionEntry

structure ConstantView where
  name : String
  value : Int32
  description : String
  options : List OptionEntry

structure EnumView where
  name : String
  qualifiedName : String
  file : String
  parent : Option LinkView
  description : String
  constants : List ConstantView
  options : List OptionEntry

structure MethodView where
  name : String
  input : TypeView
  output : TypeView
  clientStreaming : Bool
  serverStreaming : Bool
  description : String
  options : List OptionEntry

structure ServiceView where
  name : String
  qualifiedName : String
  file : String
  description : String
  methods : List MethodView
  options : List OptionEntry

structure FileView where
  name : String
  package : Option String
  dialect : String
  description : String
  imports : List TypeView
  options : List OptionEntry
  messages : List LinkView
  enums : List LinkView
  services : List LinkView

/-! ### Documents -/

/-- A member that is left out where there is no text. -/
def textMember (key : String) (text : Option String) : List (String × Value) :=
  text.toList.map fun text => (key, .string text)

/-- The member with the options of a declaration. -/
def optionsMember (options : List OptionEntry) : String × Value :=
  ("options", .array (options.map OptionEntry.toJson))

def LinkView.toJson (view : LinkView) : Value :=
  .object
    [("name", .string view.name), ("qualified_name", .string view.qualifiedName), ("kind", .string view.kind.tag),
     ("summary", .string view.summary), ("ref", .string view.path)]

/-- The member with the link to the enclosing message. -/
def parentMember (parent : Option LinkView) : List (String × Value) :=
  parent.toList.map fun parent => ("parent", parent.toJson)

def linksMember (key : String) (links : List LinkView) : String × Value :=
  (key, .array (links.map LinkView.toJson))

def TypeView.toJson (view : TypeView) : Value :=
  .object ([("name", .string view.name), ("kind", .string view.tag)] ++ textMember "ref" view.path)

def IndexLine.toJson (line : IndexLine) : Value :=
  .object
    [("name", .string line.name), ("kind", .string line.kind.tag), ("summary", .string line.summary),
     ("ref", .string line.path)]

def IndexView.toJson (view : IndexView) : Value :=
  .object
    [("module", .string view.schemaName), ("title", .string view.title),
     ("entries", .array (view.lines.map IndexLine.toJson))]

def FieldView.toJson (view : FieldView) : Value :=
  .object
    ([("name", .string view.name), ("tag", .ofInt view.tag.toInt), ("modifier", .string view.modifier.tag),
      ("type", view.type.toJson)] ++ textMember "map_key" view.mapKey ++ textMember "oneof" view.oneof ++
      [("description", .string view.description), optionsMember view.options])

def MessageView.toJson (view : MessageView) : Value :=
  .object
    ([("kind", .string "message"), ("name", .string view.name), ("qualified_name", .string view.qualifiedName),
      ("file", .string view.file)] ++ parentMember view.parent ++
      [("description", .string view.description), ("fields", .array (view.fields.map FieldView.toJson)),
       linksMember "messages" view.messages, linksMember "enums" view.enums, optionsMember view.options])

def ConstantView.toJson (view : ConstantView) : Value :=
  .object
    [("name", .string view.name), ("value", .ofInt view.value.toInt), ("description", .string view.description),
     optionsMember view.options]

def EnumView.toJson (view : EnumView) : Value :=
  .object
    ([("kind", .string "enum"), ("name", .string view.name), ("qualified_name", .string view.qualifiedName),
      ("file", .string view.file)] ++ parentMember view.parent ++
      [("description", .string view.description), ("constants", .array (view.constants.map ConstantView.toJson)),
       optionsMember view.options])

def MethodView.toJson (view : MethodView) : Value :=
  .object
    [("name", .string view.name), ("input", view.input.toJson), ("output", view.output.toJson),
     ("client_streaming", .bool view.clientStreaming), ("server_streaming", .bool view.serverStreaming),
     ("description", .string view.description), optionsMember view.options]

def ServiceView.toJson (view : ServiceView) : Value :=
  .object
    [("kind", .string "service"), ("name", .string view.name), ("qualified_name", .string view.qualifiedName),
     ("file", .string view.file), ("description", .string view.description),
     ("methods", .array (view.methods.map MethodView.toJson)), optionsMember view.options]

def FileView.toJson (view : FileView) : Value :=
  .object
    ([("kind", .string "proto"), ("name", .string view.name)] ++ textMember "package" view.package ++
      [("syntax", .string view.dialect), ("description", .string view.description),
       ("imports", .array (view.imports.map TypeView.toJson)), optionsMember view.options,
       linksMember "messages" view.messages, linksMember "enums" view.enums, linksMember "services" view.services])

end SchemaDocs
