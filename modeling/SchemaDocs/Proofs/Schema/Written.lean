import SchemaDocs.Proofs.Json.Layouts
import SchemaDocs.Proofs.Schema.RoundTrip

/-!
# Schemas as they are written

The JSON form of every declaration has the declared members, each of its declared shape, so that in all layouts it
is written as a presentation of itself. The main statement is that a schema is read back from what is written, and
from every other text that presents it.
-/

namespace SchemaDocs

namespace Format

open Json (Value IsLayout)

variable {shape : Shape} {value : Value} {write : (level : Nat) → Value → List Char}

/-- A value of some shape. -/
inductive Fits : Shape → Value → Prop where
  | plain {value : Value} (hexact : value.IsExact) : Fits .plain value
  | list {shape : Shape} {items : List Value} (hitems : ∀ item ∈ items, Fits shape item) : Fits (.list shape) (.array items)
  | record {record : Record} {members : List (String × Value)}
      (hkeys : members.map Prod.fst = record.members.map Member.key)
      (hparts : ∀ part ∈ record.parts members, Fits part.1.shape part.2) : Fits (.record record) (.object members)

private theorem presents_singleton {item : Value} {text : List Char} (h : Presents shape item text) :
    Presents (.list shape) (.array [item]) ('[' :: ([','].intercalate [text] ++ [']'])) := by
  refine .list rfl ?_ (Json.isArray_of_items [text])
  exact List.forall_mem_singleton.mpr h

private theorem presents_of_isExact (hwrite : IsLayout write) (h : value.IsExact) (level : Nat) :
    Presents .plain value (write level value) := by
  induction h generalizing level with
  | null => exact hwrite.null level ▸ .null
  | bool flag =>
    cases flag with
    | true => exact hwrite.true level ▸ .true
    | false => exact hwrite.false level ▸ .false
  | @integer n _ => exact hwrite.integer level n ▸ .integer n
  | string text => exact hwrite.string level text ▸ .string text
  | @array items _ ih =>
    refine .array (List.length_map _) (fun pair hpair => ?_) (hwrite.array level items)
    rw [← List.map_prod_left_eq_zip] at hpair
    obtain ⟨item, hitem, rfl⟩ := List.mem_map.mp hpair
    exact ih item hitem (level + 1)
  | @object members _ _ ih =>
    have hobject := hwrite.object level members
    rw [← List.zip_map'] at hobject
    refine .object (List.length_map _) (fun pair hpair => ?_) hobject
    rw [← List.map_prod_left_eq_zip] at hpair
    obtain ⟨member, hmember, rfl⟩ := List.mem_map.mp hpair
    exact ih member hmember (level + 1)

section

variable {record : Record} {members : List (String × Value)}

def valueAt (members : List (String × Value)) (key : String) : Value :=
  ((members.find? (·.1 = key)).map Prod.snd).getD .null

theorem valueAt_of_mem {key : String} (hnodup : (members.map Prod.fst).Nodup) (hmember : (key, value) ∈ members) :
    valueAt members key = value := by
  have hfind : members.find? (·.1 = key) = some (key, value) := by
    rw [find?_eq_some_iff_of_unique]
    · exact ⟨hmember, by simp⟩
    · intro left hleft right hright hkey hother
      exact List.inj_on_of_nodup_map hnodup hleft hright (by simp_all)
  rw [valueAt, hfind]
  rfl

private theorem valueAt_of_part (hkeys : members.map Prod.fst = record.members.map Member.key) {part : Member × Value}
    (hpart : part ∈ record.parts members) : valueAt members part.1.key = part.2 := by
  have hmember : (part.1.key, part.2) ∈ (record.members.map Member.key).zip (members.map Prod.snd) := by
    rw [List.zip_map_left]
    exact List.mem_map_of_mem hpart
  rw [← hkeys, List.zip_map', List.map_id'] at hmember
  exact valueAt_of_mem (hkeys ▸ record.nodup_members) hmember

end

private theorem Fits.presents (hwrite : IsLayout write) (h : Fits shape value) (level : Nat) :
    Presents shape value (write level value) := by
  induction h generalizing level with
  | plain hexact => exact presents_of_isExact hwrite hexact level
  | @list shape items _ ih =>
    refine .list (List.length_map _) (fun pair hpair => ?_) (hwrite.array level items)
    rw [← List.map_prod_left_eq_zip] at hpair
    obtain ⟨item, hitem, rfl⟩ := List.mem_map.mp hpair
    exact ih item hitem (level + 1)
  | @record record members hkeys _ ih =>
    refine .record (fun _ => false) (fun key => write (level + 1) (valueAt members key)) hkeys (fun _ _ => nofun)
      (fun part hpart _ => ?_) (List.forall_mem_nil _) ?_ (hwrite.object level members)
    · rw [valueAt_of_part hkeys hpart]
      exact ih part hpart (level + 1)
    · have hentries : (record.members.map Member.key).map (fun key => (key, write (level + 1) (valueAt members key))) =
          members.map fun member => (member.1, write (level + 1) member.2) := by
        rw [← hkeys, List.map_map]
        refine List.map_congr_left fun member hmember => ?_
        rw [Function.comp_apply, valueAt_of_mem (hkeys ▸ record.nodup_members) hmember]
      simp [hentries]

/-! ### Shapes -/

private theorem fits_record {record : Record} {members : List (String × Value)}
    (hkeys : members.map Prod.fst = record.members.map Member.key)
    (hparts : (record.parts members).Forall fun part => Fits part.1.shape part.2) : Fits (.record record) (.object members) :=
  .record hkeys (List.forall_iff_forall_mem.mp hparts)

private theorem fits_list {α : Type} {items : List α} {toJson : α → Value}
    (h : ∀ item ∈ items, Fits shape (toJson item)) :
    Fits (.list shape) (.array (items.map toJson)) :=
  .list (List.forall_mem_map.mpr h)

private theorem fits_string (text : String) : Fits .plain (.string text) := .plain (.string text)

private theorem fits_text? (text : Option String) : Fits .plain (.ofText? text) := by
  cases text with
  | none => exact .plain .null
  | some text => exact .plain (.string text)

private theorem fits_int32 (n : Int32) : Fits .plain (.ofInt n.toInt) := .plain (.integer (Json.isExactInteger_int32 n))

private theorem fits_flag (flag : Bool) : Fits .plain (.bool flag) := .plain (.bool flag)

end Format

open Format (Fits fits_record fits_list fits_string fits_text? fits_int32 fits_flag)
open Json (Value)

private theorem OptionEntry.fits_list {options : List OptionEntry}
    (hexact : ∀ value ∈ options.map OptionEntry.value, value.IsExact) :
    Fits (.list (.record .option)) (.array (options.map toJson)) :=
  Format.fits_list fun entry hentry =>
    fits_record rfl ⟨fits_string entry.name, .plain (hexact entry.value (List.mem_map_of_mem hentry))⟩

private theorem Field.fits (field : Field) (hexact : ∀ value ∈ field.optionValues, value.IsExact) :
    Fits (.record .field) field.toJson :=
  fits_record rfl ⟨fits_string field.name, fits_int32 field.tag, fits_string field.typeName, fits_string field.modifier.tag,
    fits_text? field.oneof, fits_text? field.mapKey, fits_text? field.comment, OptionEntry.fits_list hexact⟩

private theorem Constant.fits (constant : Constant) (hexact : ∀ value ∈ constant.optionValues, value.IsExact) :
    Fits (.record .constant) constant.toJson :=
  fits_record rfl ⟨fits_string constant.name, fits_int32 constant.value, fits_text? constant.comment,
    OptionEntry.fits_list hexact⟩

private theorem EnumType.fits (type : EnumType) (hexact : ∀ value ∈ type.optionValues, value.IsExact) :
    Fits (.record .enum) type.toJson := by
  rw [optionValues, List.forall_mem_append, List.forall_mem_flatMap] at hexact
  obtain ⟨hconstants, hoptions⟩ := hexact
  exact fits_record rfl ⟨fits_string type.name, fits_text? type.comment,
    fits_list fun constant hconstant => constant.fits (hconstants constant hconstant), OptionEntry.fits_list hoptions⟩

private theorem Message.fits (message : Message) (hexact : ∀ value ∈ message.optionValues, value.IsExact) :
    Fits (.record .message) message.toJson := by
  induction message using nestedInduction with | step message ih =>
  rw [optionValues_eq, List.forall_mem_append, List.forall_mem_append, List.forall_mem_append, List.forall_mem_flatMap,
    List.forall_mem_flatMap, List.forall_mem_flatMap] at hexact
  obtain ⟨⟨⟨hfields, hmessages⟩, henums⟩, hoptions⟩ := hexact
  rw [toJson_eq]
  exact fits_record rfl ⟨fits_string message.name, fits_text? message.comment,
    fits_list fun field hfield => field.fits (hfields field hfield),
    fits_list fun nested hnested => ih nested hnested (hmessages nested hnested),
    fits_list fun type htype => type.fits (henums type htype), OptionEntry.fits_list hoptions⟩

private theorem Method.fits (method : Method) (hexact : ∀ value ∈ method.optionValues, value.IsExact) :
    Fits (.record .method) method.toJson :=
  fits_record rfl ⟨fits_string method.name, fits_string method.inputType, fits_string method.outputType,
    fits_flag method.clientStreaming, fits_flag method.serverStreaming, fits_text? method.comment,
    OptionEntry.fits_list hexact⟩

private theorem Service.fits (service : Service) (hexact : ∀ value ∈ service.optionValues, value.IsExact) :
    Fits (.record .service) service.toJson := by
  rw [optionValues, List.forall_mem_append, List.forall_mem_flatMap] at hexact
  obtain ⟨hmethods, hoptions⟩ := hexact
  exact fits_record rfl ⟨fits_string service.name, fits_text? service.comment,
    fits_list fun method hmethod => method.fits (hmethods method hmethod), OptionEntry.fits_list hoptions⟩

private theorem ProtoFile.fits (file : ProtoFile) (hexact : ∀ value ∈ file.optionValues, value.IsExact) :
    Fits (.record .file) file.toJson := by
  rw [optionValues, List.forall_mem_append, List.forall_mem_append, List.forall_mem_append, List.forall_mem_flatMap,
    List.forall_mem_flatMap, List.forall_mem_flatMap] at hexact
  obtain ⟨⟨⟨hoptions, hmessages⟩, henums⟩, hservices⟩ := hexact
  exact fits_record rfl ⟨fits_string file.name, fits_text? file.package, fits_string file.dialect, fits_text? file.comment,
    fits_list fun path _ => fits_string path, OptionEntry.fits_list hoptions,
    fits_list fun message hmessage => message.fits (hmessages message hmessage),
    fits_list fun type htype => type.fits (henums type htype),
    fits_list fun service hservice => service.fits (hservices service hservice)⟩

namespace Schema

variable {schema : Schema}

private theorem fits (schema : Schema) (hexact : ∀ value ∈ schema.optionValues, value.IsExact) :
    Fits (.record .schema) schema.toJson := by
  rw [optionValues, List.forall_mem_flatMap] at hexact
  exact fits_record rfl ⟨fits_string schema.name, fits_list fun file hfile => file.fits (hexact file hfile),
    fits_string schema.output⟩

/-! ### Reading back -/

/-- A text presents a schema if it presents its JSON form, with any blanks around it. -/
def IsPresentedBy (schema : Schema) (text : String) : Prop :=
  ∃ before form after, Json.AreBlanks before ∧ Json.AreBlanks after ∧
    Format.Presents (.record .schema) schema.toJson form ∧ text.toList = before ++ (form ++ after)

/-- A schema with one file, which is marked as old. -/
def marked : Schema where
  name := "d"
  files := [{ name := "a", options := [⟨"old", .bool true⟩] }]

private theorem isPresentedBy_marked : marked.IsPresentedBy
    "\x7b\"x\":[],\"files\":[\x7b\"name\":\"a\",\"options\":[\x7b\"value\":true,\"name\":\"old\"\x7d]\x7d],\"name\":\"d\"\x7d" := by
  have hoption : Format.Presents (.record .option) (OptionEntry.toJson ⟨"old", .bool true⟩)
      "\x7b\"value\":true,\"name\":\"old\"\x7d".toList := by
    refine .record (fun _ => false) (fun key => if key = "name" then (Json.quote "old").toList else "true".toList) rfl
      (fun _ _ => nofun) ?_ (List.forall_mem_nil _) (.swap _ _ _) (Json.isObject_of_entries _)
    exact List.forall_mem_cons.mpr ⟨fun _ => .string "old", List.forall_mem_singleton.mpr fun _ => .true⟩
  have hfile : Format.Presents (.record .file)
      (ProtoFile.toJson { name := "a", options := [⟨"old", .bool true⟩] })
      "\x7b\"name\":\"a\",\"options\":[\x7b\"value\":true,\"name\":\"old\"\x7d]\x7d".toList := by
    refine .record (fun key => !(["name", "options"].contains key))
      (fun key => if key = "name" then (Json.quote "a").toList
        else "[\x7b\"value\":true,\"name\":\"old\"\x7d]".toList) rfl
      (List.forall_iff_forall_mem.mp ?_) (List.forall_iff_forall_mem.mp ?_) (List.forall_mem_nil _) (.refl _)
      (Json.isObject_of_entries _)
    · refine ⟨nofun, ?_, ?_, ?_, ?_, nofun, ?_, ?_, ?_⟩ <;> exact fun _ => rfl
    · refine ⟨fun _ => .string "a", ?_, ?_, ?_, ?_, fun _ => ?_, ?_, ?_, ?_⟩
      case refine_5 =>
        exact Format.presents_singleton hoption
      all_goals exact fun h => absurd rfl h
  have hunknown : ∀ entry ∈ [("x", "[]".toList)],
      entry.1 ∉ Format.Record.schema.members.map Format.Member.key ∧ Json.IsJson entry.2 :=
    List.forall_mem_singleton.mpr ⟨by decide, .array (List.forall_mem_nil _) (Json.isArray_of_items [])⟩
  have hschema : Format.Presents (.record .schema) marked.toJson
      "\x7b\"x\":[],\"files\":[\x7b\"name\":\"a\",\"options\":[\x7b\"value\":true,\"name\":\"old\"\x7d]\x7d],\"name\":\"d\"\x7d".toList := by
    refine .record (fun key => key = "output")
      (fun key => if key = "name" then (Json.quote "d").toList
        else "[\x7b\"name\":\"a\",\"options\":[\x7b\"value\":true,\"name\":\"old\"\x7d]\x7d]".toList) rfl
      (List.forall_iff_forall_mem.mp ⟨nofun, nofun, fun _ => rfl⟩) (List.forall_iff_forall_mem.mp ?_) hunknown
      (List.reverse_perm _) (Json.isObject_of_entries _)
    refine ⟨fun _ => .string "d", fun _ => ?_, fun h => absurd rfl h⟩
    exact Format.presents_singleton hfile
  exact ⟨[], _, [], Json.areBlanks_nil, Json.areBlanks_nil, hschema, (List.append_nil _).symm⟩

private theorem isPresentedBy_of_layout {write : (level : Nat) → Value → List Char} (hwrite : Json.IsLayout write)
    (hexact : ∀ value ∈ schema.optionValues, value.IsExact) {text : String} (htext : text.toList = write 0 schema.toJson) :
    schema.IsPresentedBy text := by
  refine ⟨[], write 0 schema.toJson, [], Json.areBlanks_nil, Json.areBlanks_nil, ?_, ?_⟩
  · exact (schema.fits hexact).presents hwrite 0
  · rw [htext, List.append_nil, List.nil_append]

private theorem parse_of_isPresentedBy (hexact : ∀ value ∈ schema.optionValues, value.IsExact)
    (hdepth : schema.toJson.depth ≤ Json.maxDepth) {text : String} (h : schema.IsPresentedBy text) :
    parse text = .ok schema := by
  obtain ⟨before, form, after, hbefore, hafter, hform, htext⟩ := h
  have hlength : form.length < text.length + 1 := by
    rw [← String.length_toList, htext, List.length_append, List.length_append]
    omega
  have hends : Json.EndsValue after := by
    rw [← List.append_nil after]
    exact Json.endsValue_append hafter Json.endsValue_nil
  have hskip : Json.skipBlanks after = [] := by
    rw [← List.append_nil after, Json.skipBlanks_append hafter]
    rfl
  have hread := takes_readRecord hform hexact hdepth hlength before after hbefore hends
  rw [parse, Json.readAll, htext, hread]
  simp only [hskip, List.isEmpty_nil, if_true]

/-- A schema whose options are exact is read back from its JSON form, in both layouts, and from every text that
presents it: with members left out that are at their defaults, with members in any order, and with unknown ones. -/
theorem parse_presented (hexact : ∀ value ∈ schema.optionValues, value.IsExact)
    (hdepth : schema.toJson.depth ≤ Json.maxDepth) :
    parse schema.toJson.compact = .ok schema ∧ parse schema.toJson.pretty = .ok schema ∧
      ∀ text, schema.IsPresentedBy text → parse text = .ok schema := by
  have hread (text : String) (h : schema.IsPresentedBy text) := parse_of_isPresentedBy hexact hdepth h
  refine ⟨hread _ ?_, hread _ ?_, hread⟩
  · exact isPresentedBy_of_layout Json.isLayout_compact hexact rfl
  · exact isPresentedBy_of_layout Json.isLayout_pretty hexact rfl

theorem parse_presented_marked :
    (∀ value ∈ marked.optionValues, value.IsExact) ∧ marked.toJson.depth ≤ Json.maxDepth ∧
      parse marked.toJson.compact = .ok marked ∧
      parse "\x7b\"x\":[],\"files\":[\x7b\"name\":\"a\",\"options\":[\x7b\"value\":true,\"name\":\"old\"\x7d]\x7d],\"name\":\"d\"\x7d" =
        .ok marked := by
  have hexact : ∀ value ∈ marked.optionValues, value.IsExact := List.forall_mem_singleton.mpr (.bool true)
  have hdepth : marked.toJson.depth ≤ Json.maxDepth := by decide
  obtain ⟨hcompact, -, hpresented⟩ := parse_presented hexact hdepth
  exact ⟨hexact, hdepth, hcompact, hpresented _ isPresentedBy_marked⟩

end Schema

end SchemaDocs
