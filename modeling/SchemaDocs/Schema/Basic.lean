import SchemaDocs.Json.Value

/-!
# Schemas

A schema is a named set of files that declare messages, enums and services, with the place where its
documentation goes. Every declaration may carry a comment in Markdown and free options. Types are
referred to by name; whether the names mean anything is checked by the registry.
-/

namespace SchemaDocs

/-- An option attached to a declaration, such as `deprecated = true`. -/
structure OptionEntry where
  name : String := ""
  value : Json.Value := .null

/-- The cardinality of a field as written in the source. -/
inductive Modifier where
  | optional
  | required
  | repeated
  | none
deriving DecidableEq, Repr

def Modifier.tag : Modifier → String
  | .optional => "optional"
  | .required => "required"
  | .repeated => "repeated"
  | .none => "none"

def Modifier.ofTag? (tag : String) : Option Modifier :=
  [Modifier.optional, .required, .repeated, .none].find? (·.tag = tag)

/-- A field of a message. For a map, `typeName` is the type of the values. -/
structure Field where
  name : String := ""
  tag : Int32 := 0
  typeName : String := ""
  modifier : Modifier := .none
  oneof : Option String := none
  mapKey : Option String := none
  comment : Option String := none
  options : List OptionEntry := []

structure Constant where
  name : String := ""
  value : Int32 := 0
  comment : Option String := none
  options : List OptionEntry := []

structure EnumType where
  name : String := ""
  comment : Option String := none
  constants : List Constant := []
  options : List OptionEntry := []

/-- A message with the messages and enums nested in it. -/
structure Message where
  name : String := ""
  comment : Option String := none
  fields : List Field := []
  messages : List Message := []
  enums : List EnumType := []
  options : List OptionEntry := []

/-- A method of a service, with the names of its request and response messages. -/
structure Method where
  name : String := ""
  inputType : String := ""
  outputType : String := ""
  clientStreaming : Bool := false
  serverStreaming : Bool := false
  comment : Option String := none
  options : List OptionEntry := []

structure Service where
  name : String := ""
  comment : Option String := none
  methods : List Method := []
  options : List OptionEntry := []

/-- A file, named by its path from the import root. -/
structure ProtoFile where
  name : String := ""
  package : Option String := none
  dialect : String := "proto3"
  comment : Option String := none
  imports : List String := []
  options : List OptionEntry := []
  messages : List Message := []
  enums : List EnumType := []
  services : List Service := []

/-- What stands before the names of a file's own declarations: the package and a dot, or nothing. -/
def ProtoFile.scope (file : ProtoFile) : String :=
  match file.package with
  | some package => if package.isEmpty then "" else package ++ "."
  | none => ""

/-- A set of files and the directory for their documentation. -/
structure Schema where
  name : String := ""
  files : List ProtoFile := []
  output : String := "dist"

/-- The types that need no declaration. -/
def scalarTypes : List String :=
  ["double", "float", "int32", "int64", "uint32", "uint64", "sint32", "sint64", "fixed32", "fixed64", "sfixed32", "sfixed64", "bool", "string", "bytes"]

def isScalar (typeName : String) : Bool := scalarTypes.contains typeName

end SchemaDocs
