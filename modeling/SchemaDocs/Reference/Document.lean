import SchemaDocs.Markdown.Renderer
import SchemaDocs.Reference.View

/-!
# Reference documents

The views of the declarations of a schema. Comments go through the renderer, so a view is made by a
computation with the renderer as its state; everything else comes from the registry alone.
-/

namespace SchemaDocs

open Markdown (Renderer)

def linkView (entry : Entry) : StateM Renderer LinkView := do
  let summary ← Renderer.summarizeComment entry.comment
  return { name := entry.name, qualifiedName := entry.qualifiedName, kind := entry.kind, summary, path := entry.path }

/-- Links to the entries of qualified names; a name without an entry has none. -/
def linkViews (registry : Registry) (names : List String) : StateM Renderer (List LinkView) :=
  (names.filterMap registry.get?).mapM linkView

/-- The link to the message that encloses an entry. -/
def parentView (registry : Registry) (entry : Entry) : StateM Renderer (Option LinkView) := do
  return (← linkViews registry entry.parent.toList).head?

def typeView (registry : Registry) (typeName : String) : TypeView :=
  let type := (registry.resolve? typeName).getD (.scalar typeName)
  { name := type.name, tag := type.tag, path := type.path? }

/-- An import. Files outside of the schema have no document. -/
def importView (registry : Registry) (path : String) : TypeView :=
  { name := path, tag := Kind.proto.tag, path := (registry.file? path).map Entry.path }

def indexView (registry : Registry) (schemaName title : String) : StateM Renderer IndexView := do
  let lines ← registry.entries.mapM fun entry => do
    let summary ← Renderer.summarizeComment entry.comment
    return { name := entry.qualifiedName, kind := entry.kind, summary, path := entry.path }
  return { schemaName, title, lines }

def fieldView (registry : Registry) (field : Field) : StateM Renderer FieldView := do
  let description ← Renderer.renderComment field.comment
  return {
    name := field.name, tag := field.tag, modifier := field.modifier, type := typeView registry field.typeName,
    mapKey := field.mapKey, oneof := field.oneof, description, options := field.options }

def messageView (registry : Registry) (entry : Entry) (message : Message) : StateM Renderer MessageView := do
  let nested (name : String) : String := entry.qualifiedName ++ "." ++ name
  let parent ← parentView registry entry
  let description ← Renderer.renderComment message.comment
  let fields ← message.fields.mapM (fieldView registry)
  let messages ← linkViews registry (message.messages.map fun m => nested m.name)
  let enums ← linkViews registry (message.enums.map fun e => nested e.name)
  return {
    name := message.name, qualifiedName := entry.qualifiedName, file := entry.file, parent, description, fields,
    messages, enums, options := message.options }

def constantView (constant : Constant) : StateM Renderer ConstantView := do
  let description ← Renderer.renderComment constant.comment
  return { name := constant.name, value := constant.value, description, options := constant.options }

def enumView (registry : Registry) (entry : Entry) (type : EnumType) : StateM Renderer EnumView := do
  let parent ← parentView registry entry
  let description ← Renderer.renderComment type.comment
  let constants ← type.constants.mapM constantView
  return {
    name := type.name, qualifiedName := entry.qualifiedName, file := entry.file, parent, description, constants,
    options := type.options }

def methodView (registry : Registry) (method : Method) : StateM Renderer MethodView := do
  let description ← Renderer.renderComment method.comment
  return {
    name := method.name, input := typeView registry method.inputType, output := typeView registry method.outputType,
    clientStreaming := method.clientStreaming, serverStreaming := method.serverStreaming, description,
    options := method.options }

def serviceView (registry : Registry) (entry : Entry) (service : Service) : StateM Renderer ServiceView := do
  let description ← Renderer.renderComment service.comment
  let methods ← service.methods.mapM (methodView registry)
  return {
    name := service.name, qualifiedName := entry.qualifiedName, file := entry.file, description, methods,
    options := service.options }

def fileView (registry : Registry) (entry : Entry) (file : ProtoFile) : StateM Renderer FileView := do
  let qualified (name : String) : String := file.scope ++ name
  let description ← Renderer.renderComment file.comment
  let messages ← linkViews registry (file.messages.map fun m => qualified m.name)
  let enums ← linkViews registry (file.enums.map fun e => qualified e.name)
  let services ← linkViews registry (file.services.map fun s => qualified s.name)
  return {
    name := entry.qualifiedName, package := file.package, dialect := file.dialect, description,
    imports := file.imports.map (importView registry), options := file.options, messages, enums, services }

def entryDocument (registry : Registry) (entry : Entry) : StateM Renderer Json.Value :=
  match entry.declaration with
  | .file file => FileView.toJson <$> fileView registry entry file
  | .message message => MessageView.toJson <$> messageView registry entry message
  | .enum type => EnumView.toJson <$> enumView registry entry type
  | .service service => ServiceView.toJson <$> serviceView registry entry service

end SchemaDocs
