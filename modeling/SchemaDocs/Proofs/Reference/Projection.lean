import SchemaDocs.Proofs.Reference.Faithful
import SchemaDocs.Proofs.Schema.Nesting
import SchemaDocs.Proofs.Site.Paths

/-!
# Documents as projections of the schema

The views find what they link to by name: a file and a message put the names of their members together, and a
nested declaration has the name of its parent. In a registry none of these look-ups misses, so that a document is
what its declaration says, member by member, and a link is the same wherever it stands. A declaration links to its
parent exactly if the parent links to it.
-/

namespace SchemaDocs

open Json (Value)
open Markdown (Renderer Rendered)

/-! ### What is rendered -/

/-- A rendering gives a value with every faithful renderer of a limit, and leaves it faithful. -/
def Gives {α : Type} (limit : Nat) (rendering : StateM Renderer α) (value : α) : Prop :=
  ∀ renderer : Renderer, renderer.IsFaithful limit →
    (rendering renderer).1 = value ∧ (rendering renderer).2.IsFaithful limit

def commentHtml (limit : Nat) (comment : Option String) : String :=
  comment.elim "" fun text => (Rendered.ofText limit text).html

def commentSummary (limit : Nat) (comment : Option String) : String :=
  comment.elim "" fun text => (Rendered.ofText limit text).summary

namespace Gives

variable {α β : Type} {limit : Nat}

private theorem pure (value : α) : Gives limit (Pure.pure value) value := fun _ h => ⟨rfl, h⟩

private theorem bind {first : StateM Renderer α} {next : α → StateM Renderer β} {value : α} {result : β}
    (hfirst : Gives limit first value) (hnext : Gives limit (next value) result) : Gives limit (first >>= next) result := by
  intro renderer h
  obtain ⟨hvalue, hmiddle⟩ := hfirst renderer h
  have hlast := hnext (first renderer).2 hmiddle
  rw [← hvalue] at hlast
  exact hlast

private theorem bind_pure {first : StateM Renderer α} {value : α} (hfirst : Gives limit first value) (result : α → β) :
    Gives limit (first >>= fun given => Pure.pure (result given)) (result value) := hfirst.bind (pure _)

theorem map {rendering : StateM Renderer α} {value : α} (h : Gives limit rendering value) (view : α → β) :
    Gives limit (view <$> rendering) (view value) := by
  rw [map_eq_pure_bind]
  exact h.bind_pure view

private theorem mapM {rendering : α → StateM Renderer β} {view : α → β}
    (h : ∀ item, Gives limit (rendering item) (view item))
    (items : List α) : Gives limit (items.mapM rendering) (items.map view) := by
  induction items with
  | nil => exact pure []
  | cons item items ih =>
    rw [List.mapM_cons, List.map_cons]
    exact (h item).bind (ih.bind_pure _)

private theorem renderComment (comment : Option String) :
    Gives limit (Renderer.renderComment comment) (commentHtml limit comment) := by
  cases comment with
  | none => exact pure ""
  | some text => exact fun _ h => ⟨congrArg Rendered.html (h.rendered text).1, (h.rendered text).2⟩

private theorem summarizeComment (comment : Option String) :
    Gives limit (Renderer.summarizeComment comment) (commentSummary limit comment) := by
  cases comment with
  | none => exact pure ""
  | some text => exact fun _ h => ⟨congrArg Rendered.summary (h.rendered text).1, (h.rendered text).2⟩

end Gives

/-! ### What stands in a declaration -/

/-- The declarations with documents that stand directly in a file or in a message. -/
def Declaration.members : Declaration → List Declaration
  | .file holder => holder.messages.map .message ++ holder.enums.map .enum ++ holder.services.map .service
  | .message holder => holder.messages.map .message ++ holder.enums.map .enum
  | .enum _ | .service _ => []

/-- The entry of a declaration that stands in that of another one. -/
def Entry.member (entry : Entry) (declaration : Declaration) : Entry :=
  match entry.declaration with
  | .file file => ⟨declaration.kind, file.scope ++ declaration.name, file.name, none, declaration⟩
  | _ => ⟨declaration.kind, entry.qualifiedName ++ "." ++ declaration.name, entry.file, some entry.qualifiedName, declaration⟩

variable {schema : Schema} {registry : Registry} {entry outer target : Entry} {declaration : Declaration} {limit : Nat}

private theorem Entry.kind_member (entry : Entry) (declaration : Declaration) :
    (entry.member declaration).kind = declaration.kind := by
  rw [Entry.member]
  split <;> rfl

private theorem Entry.parent_member (houter : outer.declaration.kind = .message) :
    (outer.member declaration).parent = some outer.qualifiedName := by
  obtain ⟨kind, name, fileName, parent, holder⟩ := outer
  cases holder with
  | message message => rfl
  | _ => cases houter

private theorem Schema.Declares.member (h : schema.Declares entry) (hmember : declaration ∈ entry.declaration.members) :
    schema.Declares (entry.member declaration) ∧ declaration.kind ≠ .proto := by
  obtain ⟨kind, name, fileName, parent, holder⟩ := entry
  obtain rfl : kind = holder.kind := h.kind_eq
  cases holder with
  | file file =>
    cases h with
    | file hfile =>
      simp only [Declaration.members, List.mem_append, List.mem_map] at hmember
      rcases hmember with (⟨message, hmessage, rfl⟩ | ⟨type, htype, rfl⟩) | ⟨service, hservice, rfl⟩
      · exact ⟨.message hfile hmessage, Kind.noConfusion⟩
      · exact ⟨.enum hfile htype, Kind.noConfusion⟩
      · exact ⟨.service hfile hservice, Kind.noConfusion⟩
  | message message =>
    rcases List.mem_append.mp hmember with hmember | hmember
    · obtain ⟨nested, hnested, rfl⟩ := List.mem_map.mp hmember
      exact ⟨.nestedMessage h hnested, Kind.noConfusion⟩
    · obtain ⟨type, htype, rfl⟩ := List.mem_map.mp hmember
      exact ⟨.nestedEnum h htype, Kind.noConfusion⟩
  | enum type => cases hmember
  | service service => cases hmember

private theorem Schema.Declares.exists_parent (h : schema.Declares entry) {name : String}
    (hparent : entry.parent = some name) :
    ∃ outer, schema.Declares outer ∧ outer.kind = .message ∧ outer.qualifiedName = name ∧
      entry.declaration ∈ outer.declaration.members ∧ entry = outer.member entry.declaration := by
  cases h with
  | nestedMessage houter hmessage =>
    refine ⟨_, houter, rfl, Option.some.inj hparent, ?_, rfl⟩
    exact List.mem_append_left _ (List.mem_map_of_mem hmessage)
  | nestedEnum houter htype =>
    refine ⟨_, houter, rfl, Option.some.inj hparent, ?_, rfl⟩
    exact List.mem_append_right _ (List.mem_map_of_mem htype)
  | _ => cases hparent

/-! ### Projections -/

namespace Entry

def link (limit : Nat) (entry : Entry) : LinkView :=
  ⟨entry.name, entry.qualifiedName, entry.kind, commentSummary limit entry.comment, entry.path⟩

def line (limit : Nat) (entry : Entry) : IndexLine :=
  ⟨entry.qualifiedName, entry.kind, commentSummary limit entry.comment, entry.path⟩

end Entry

def Field.projection (limit : Nat) (registry : Registry) (field : Field) : FieldView where
  name := field.name
  tag := field.tag
  modifier := field.modifier
  type := typeView registry field.typeName
  mapKey := field.mapKey
  oneof := field.oneof
  description := commentHtml limit field.comment
  options := field.options

def Constant.projection (limit : Nat) (constant : Constant) : ConstantView :=
  ⟨constant.name, constant.value, commentHtml limit constant.comment, constant.options⟩

def Method.projection (limit : Nat) (registry : Registry) (method : Method) : MethodView where
  name := method.name
  input := typeView registry method.inputType
  output := typeView registry method.outputType
  clientStreaming := method.clientStreaming
  serverStreaming := method.serverStreaming
  description := commentHtml limit method.comment
  options := method.options

/-- What the document of an entry holds. -/
inductive DocumentView where
  | file (view : FileView)
  | message (view : MessageView)
  | enum (view : EnumView)
  | service (view : ServiceView)

namespace DocumentView

def toJson : DocumentView → Value
  | .file view => view.toJson
  | .message view => view.toJson
  | .enum view => view.toJson
  | .service view => view.toJson

def parent? : DocumentView → Option LinkView
  | .message view => view.parent
  | .enum view => view.parent
  | .file _ | .service _ => none

def listed : DocumentView → List LinkView
  | .file view => view.messages ++ view.enums ++ view.services
  | .message view => view.messages ++ view.enums
  | .enum _ | .service _ => []

def links (view : DocumentView) : List LinkView := view.parent?.toList ++ view.listed

end DocumentView

/-- The document of an entry as its declaration says it: one view for each of its parts and one link for each of
its members, in order. -/
def Entry.projection (limit : Nat) (registry : Registry) (entry : Entry) : DocumentView :=
  let memberLink (declaration : Declaration) : LinkView := (entry.member declaration).link limit
  let parent := (entry.parent.bind registry.get?).map (Entry.link limit)
  match entry.declaration with
  | .file file => .file {
      name := entry.qualifiedName
      package := file.package
      dialect := file.dialect
      description := commentHtml limit file.comment
      imports := file.imports.map (importView registry)
      options := file.options
      messages := file.messages.map fun message => memberLink (.message message)
      enums := file.enums.map fun type => memberLink (.enum type)
      services := file.services.map fun service => memberLink (.service service) }
  | .message message => .message {
      name := message.name
      qualifiedName := entry.qualifiedName
      file := entry.file
      parent
      description := commentHtml limit message.comment
      fields := message.fields.map (Field.projection limit registry)
      messages := message.messages.map fun nested => memberLink (.message nested)
      enums := message.enums.map fun type => memberLink (.enum type)
      options := message.options }
  | .enum type => .enum {
      name := type.name
      qualifiedName := entry.qualifiedName
      file := entry.file
      parent
      description := commentHtml limit type.comment
      constants := type.constants.map (Constant.projection limit)
      options := type.options }
  | .service service => .service {
      name := service.name
      qualifiedName := entry.qualifiedName
      file := entry.file
      description := commentHtml limit service.comment
      methods := service.methods.map (Method.projection limit registry)
      options := service.options }

namespace Gives

private theorem linkView (entry : Entry) : Gives limit (SchemaDocs.linkView entry) (entry.link limit) :=
  (summarizeComment _).bind_pure _

private theorem linkViews (registry : Registry) (names : List String) :
    Gives limit (SchemaDocs.linkViews registry names) ((names.filterMap registry.get?).map (Entry.link limit)) :=
  mapM linkView _

private theorem linkViews_of_found {α : Type} {items : List α} {found : α → Entry} {name : α → String}
    (h : ∀ item ∈ items, registry.get? (name item) = some (found item)) :
    Gives limit (SchemaDocs.linkViews registry (items.map name)) (items.map fun item => (found item).link limit) := by
  have hfound : (items.map name).filterMap registry.get? = items.map found := by
    rw [List.filterMap_map, ← List.filterMap_eq_map]
    exact List.filterMap_congr h
  have hlinks : Gives limit _ _ := linkViews registry (items.map name)
  rwa [hfound, List.map_map] at hlinks

private theorem parentView (registry : Registry) (entry : Entry) :
    Gives limit (SchemaDocs.parentView registry entry) ((entry.parent.bind registry.get?).map (Entry.link limit)) := by
  have hlinks : Gives limit _ _ := linkViews registry entry.parent.toList
  have h := hlinks.bind_pure List.head?
  have hhead : ((entry.parent.toList.filterMap registry.get?).map (Entry.link limit)).head? =
      (entry.parent.bind registry.get?).map (Entry.link limit) := by
    cases entry.parent with
    | none => rfl
    | some name => cases hget : registry.get? name <;> simp [hget]
  rwa [hhead] at h

private theorem fieldView (registry : Registry) (field : Field) :
    Gives limit (SchemaDocs.fieldView registry field) (field.projection limit registry) :=
  (renderComment _).bind_pure _

private theorem constantView (constant : Constant) :
    Gives limit (SchemaDocs.constantView constant) (constant.projection limit) :=
  (renderComment _).bind_pure _

private theorem methodView (registry : Registry) (method : Method) :
    Gives limit (SchemaDocs.methodView registry method) (method.projection limit registry) :=
  (renderComment _).bind_pure _

private theorem indexView (registry : Registry) (schemaName title : String) :
    Gives limit (SchemaDocs.indexView registry schemaName title)
      ⟨schemaName, title, registry.entries.map (Entry.line limit)⟩ :=
  (mapM (fun _ => (summarizeComment _).bind_pure _) _).bind_pure _

end Gives

/-! ### Members are found -/

section

variable (hregistry : Registry.build schema = .ok registry)

include hregistry

private theorem Registry.mem_entries_iff_of_build : entry ∈ registry.entries ↔ schema.Declares entry := by
  rw [Registry.entries_of_build hregistry, Schema.mem_entries_iff]

private theorem Registry.member_mem_entries (hentry : entry ∈ registry.entries)
    (hmember : declaration ∈ entry.declaration.members) :
    entry.member declaration ∈ registry.entries ∧ (entry.member declaration).kind ≠ .proto := by
  rw [mem_entries_iff_of_build hregistry] at hentry ⊢
  obtain ⟨hdeclared, hkind⟩ := hentry.member hmember
  rw [Entry.kind_member]
  exact ⟨hdeclared, hkind⟩

private theorem Registry.get?_member (hentry : entry ∈ registry.entries)
    (hmember : declaration ∈ entry.declaration.members) :
    registry.get? (entry.member declaration).qualifiedName = some (entry.member declaration) := by
  obtain ⟨hmem, hkind⟩ := member_mem_entries hregistry hentry hmember
  exact (get?_eq_some_iff (isConsistent_of_build hregistry)).mpr ⟨hmem, hkind, rfl⟩

private theorem Registry.eq_of_path_eq (hentry : entry ∈ registry.entries) (htarget : target ∈ registry.entries)
    (hpath : entry.path = target.path) : entry = target := by
  obtain ⟨hkind, hname⟩ := documentPath_inj hpath
  exact (wellNamed_of_build hregistry).eq_of_clashes hentry htarget ⟨by rw [hkind], hname⟩

private theorem Gives.memberLinks {α : Type} {items : List α} {name : α → String} (toDeclaration : α → Declaration)
    (hentry : entry ∈ registry.entries) (hitems : ∀ item ∈ items, toDeclaration item ∈ entry.declaration.members)
    (hname : ∀ item, name item = (entry.member (toDeclaration item)).qualifiedName) :
    Gives limit (SchemaDocs.linkViews registry (items.map name))
      (items.map fun item => (entry.member (toDeclaration item)).link limit) := by
  refine linkViews_of_found fun item hitem => ?_
  rw [hname item]
  exact Registry.get?_member hregistry hentry (hitems item hitem)

private theorem Gives.entryDocument (hentry : entry ∈ registry.entries) :
    Gives limit (SchemaDocs.entryDocument registry entry) (entry.projection limit registry).toJson := by
  obtain ⟨kind, name, fileName, parent, holder⟩ := entry
  cases holder with
  | file file =>
    refine map ((renderComment _).bind ?_) FileView.toJson
    refine (memberLinks hregistry .message hentry (fun item hitem => ?_) fun _ => rfl).bind ?_
    · simp [Declaration.members, hitem]
    refine (memberLinks hregistry .enum hentry (fun item hitem => ?_) fun _ => rfl).bind ?_
    · simp [Declaration.members, hitem]
    refine (memberLinks hregistry .service hentry (fun item hitem => ?_) fun _ => rfl).bind_pure _
    · simp [Declaration.members, hitem]
  | message message =>
    refine map ((parentView registry _).bind ((renderComment _).bind ((mapM (fieldView registry) _).bind ?_)))
      MessageView.toJson
    refine (memberLinks hregistry .message hentry (fun item hitem => ?_) fun _ => rfl).bind ?_
    · simp [Declaration.members, hitem]
    refine (memberLinks hregistry .enum hentry (fun item hitem => ?_) fun _ => rfl).bind_pure _
    · simp [Declaration.members, hitem]
  | enum type =>
    exact map ((parentView registry _).bind ((renderComment _).bind ((mapM constantView _).bind_pure _))) EnumView.toJson
  | service service =>
    exact map ((renderComment _).bind ((mapM (methodView registry) _).bind_pure _)) ServiceView.toJson

end

/-! ### Links between documents -/

private theorem Entry.listed_projection (entry : Entry) :
    (entry.projection limit registry).listed =
      entry.declaration.members.map fun declaration => (entry.member declaration).link limit := by
  obtain ⟨kind, name, fileName, parent, holder⟩ := entry
  cases holder <;> simp [Entry.projection, DocumentView.listed, Declaration.members, Function.comp_def]

private theorem Schema.Declares.parent?_projection (h : schema.Declares entry) :
    (entry.projection limit registry).parent? = (entry.parent.bind registry.get?).map (Entry.link limit) := by
  cases h <;> rfl

section

variable (hregistry : Registry.build schema = .ok registry)

include hregistry

private theorem Registry.get?_parent (hentry : entry ∈ registry.entries) {name : String}
    (hparent : entry.parent = some name) (htarget : registry.get? name = some target) :
    target.kind = .message ∧ entry.declaration ∈ target.declaration.members ∧
      entry = target.member entry.declaration := by
  obtain ⟨outer, houter, hkind, hname, hmember⟩ :=
    ((mem_entries_iff_of_build hregistry).mp hentry).exists_parent hparent
  have hget : registry.get? name = some outer := (get?_eq_some_iff (isConsistent_of_build hregistry)).mpr
    ⟨(mem_entries_iff_of_build hregistry).mpr houter, by rw [hkind]; exact Kind.noConfusion, hname⟩
  obtain rfl := Option.some.inj (hget.symm.trans htarget)
  exact ⟨hkind, hmember⟩

theorem Registry.mem_parent?_projection_iff (hentry : entry ∈ registry.entries) {link : LinkView} :
    link ∈ (entry.projection limit registry).parent? ↔
      ∃ outer ∈ registry.entries, outer.kind = .message ∧ entry.parent = some outer.qualifiedName ∧
        link = outer.link limit := by
  have hconsistent := isConsistent_of_build hregistry
  rw [((mem_entries_iff_of_build hregistry).mp hentry).parent?_projection, Option.mem_def, Option.map_eq_some_iff]
  constructor
  · rintro ⟨outer, hfound, rfl⟩
    obtain ⟨name, hparent, hget⟩ := Option.bind_eq_some_iff.mp hfound
    obtain ⟨hmem, -, rfl⟩ := (get?_eq_some_iff hconsistent).mp hget
    exact ⟨outer, hmem, (get?_parent hregistry hentry hparent hget).1, hparent, rfl⟩
  · rintro ⟨outer, houter, hkind, hparent, rfl⟩
    refine ⟨outer, ?_, rfl⟩
    rw [hparent]
    exact (get?_eq_some_iff hconsistent).mpr ⟨houter, by rw [hkind]; exact Kind.noConfusion, rfl⟩

/-- An entry links to a message as its parent exactly if the message lists it. -/
theorem Registry.parent_iff_listed (hentry : entry ∈ registry.entries) (houter : outer ∈ registry.entries)
    (hkind : outer.kind = .message) :
    (∃ link ∈ (entry.projection limit registry).parent?, link.path = outer.path) ↔
      ∃ link ∈ (outer.projection limit registry).listed, link.path = entry.path := by
  rw [Entry.listed_projection]
  constructor
  · rintro ⟨link, hlink, hpath⟩
    obtain ⟨target, htarget, htargetKind, hparent, rfl⟩ := (mem_parent?_projection_iff hregistry hentry).mp hlink
    obtain rfl := eq_of_path_eq hregistry htarget houter hpath
    have hget := (get?_eq_some_iff (isConsistent_of_build hregistry)).mpr
      ⟨htarget, by rw [htargetKind]; exact Kind.noConfusion, rfl⟩
    obtain ⟨-, hmember, hsame⟩ := get?_parent hregistry hentry hparent hget
    exact ⟨_, List.mem_map_of_mem hmember, congrArg Entry.path hsame.symm⟩
  · rintro ⟨link, hlink, hpath⟩
    obtain ⟨declaration, hmember, rfl⟩ := List.mem_map.mp hlink
    obtain rfl := eq_of_path_eq hregistry (member_mem_entries hregistry houter hmember).1 hentry hpath
    have hmessage : outer.declaration.kind = .message := (kind_eq_of_build hregistry houter).symm.trans hkind
    exact ⟨_, (mem_parent?_projection_iff hregistry hentry).mpr ⟨outer, houter, hkind, Entry.parent_member hmessage, rfl⟩, rfl⟩

private theorem Registry.exists_target (hentry : entry ∈ registry.entries) {link : LinkView}
    (hlink : link ∈ (entry.projection limit registry).links) :
    ∃ target ∈ registry.entries, target.kind ≠ .proto ∧ link = target.link limit := by
  rcases List.mem_append.mp hlink with hlink | hlink
  · obtain ⟨outer, houter, hkind, -, rfl⟩ :=
      (mem_parent?_projection_iff hregistry hentry).mp (Option.mem_toList.mp hlink)
    exact ⟨outer, houter, by rw [hkind]; exact Kind.noConfusion, rfl⟩
  · rw [Entry.listed_projection] at hlink
    obtain ⟨declaration, hmember, rfl⟩ := List.mem_map.mp hlink
    obtain ⟨hmem, hkind⟩ := member_mem_entries hregistry hentry hmember
    exact ⟨_, hmem, hkind, rfl⟩

end

private theorem Entry.exists_members_projection (hlisted : entry.kind = entry.declaration.kind)
    (hkind : entry.kind ≠ .proto) :
    ∃ members, (entry.projection limit registry).toJson = .object members ∧
      members.lookup "name" = some (.string entry.name) ∧ members.lookup "kind" = some (.string entry.kind.tag) := by
  obtain ⟨kind, name, fileName, parent, holder⟩ := entry
  obtain rfl : kind = holder.kind := hlisted
  cases holder with
  | file file => exact absurd rfl hkind
  | _ => exact ⟨_, rfl, by simp [Entry.name, Declaration.name, List.lookup_cons], rfl⟩

/-! ### The reference as a whole -/

/-- The documents of a reference are projections of its entries, and their links agree. -/
structure Registry.IsProjected (registry : Registry) (limit : Nat) (schemaName title : String) : Prop where
  document : ∀ entry ∈ registry.entries,
    Gives limit (entryDocument registry entry) (entry.projection limit registry).toJson
  index : Gives limit (indexView registry schemaName title)
    ⟨schemaName, title, registry.entries.map (Entry.line limit)⟩
  back : ∀ entry ∈ registry.entries, ∀ outer ∈ registry.entries, outer.kind = .message →
    ((∃ link ∈ (entry.projection limit registry).parent?, link.path = outer.path) ↔
      ∃ link ∈ (outer.projection limit registry).listed, link.path = entry.path)
  same : ∀ left ∈ registry.entries, ∀ right ∈ registry.entries, ∀ link ∈ (left.projection limit registry).links,
    ∀ other ∈ (right.projection limit registry).links, link.path = other.path → link = other
  own : ∀ entry ∈ registry.entries, ∀ link ∈ (entry.projection limit registry).links,
    ∃ target ∈ registry.entries, target.path = link.path ∧
      ∃ members, (target.projection limit registry).toJson = .object members ∧
        members.lookup "name" = some (.string link.name) ∧ members.lookup "kind" = some (.string link.kind.tag)
  line : ∀ entry ∈ registry.entries, ∀ link ∈ (entry.projection limit registry).links,
    ⟨link.qualifiedName, link.kind, link.summary, link.path⟩ ∈ registry.entries.map (Entry.line limit) ∧
      ∀ line ∈ registry.entries.map (Entry.line limit), line.path = link.path →
        line = ⟨link.qualifiedName, link.kind, link.summary, link.path⟩

theorem Registry.isProjected (hregistry : Registry.build schema = .ok registry) (limit : Nat) (title : String) :
    registry.IsProjected limit schema.name title where
  document _ hentry := Gives.entryDocument hregistry hentry
  index := Gives.indexView registry schema.name title
  back _ hentry _ houter hkind := parent_iff_listed hregistry hentry houter hkind
  same left hleft right hright link hlink other hother hpath := by
    obtain ⟨target, htarget, -, rfl⟩ := exists_target hregistry hleft hlink
    obtain ⟨otherTarget, hotherTarget, -, rfl⟩ := exists_target hregistry hright hother
    rw [eq_of_path_eq hregistry htarget hotherTarget hpath]
  own entry hentry link hlink := by
    obtain ⟨target, htarget, hkind, rfl⟩ := exists_target hregistry hentry hlink
    exact ⟨target, htarget, rfl, Entry.exists_members_projection (kind_eq_of_build hregistry htarget) hkind⟩
  line entry hentry link hlink := by
    obtain ⟨target, htarget, -, rfl⟩ := exists_target hregistry hentry hlink
    refine ⟨List.mem_map_of_mem htarget, fun line hline hpath => ?_⟩
    obtain ⟨other, hother, rfl⟩ := List.mem_map.mp hline
    rw [eq_of_path_eq hregistry hother htarget hpath]
    rfl

theorem dottedSchema_isProjected :
    Registry.build dottedSchema = .ok (.ofEntries dottedSchema.entries) ∧
      Registry.IsProjected (.ofEntries dottedSchema.entries) 100 dottedSchema.name "Shop" :=
  ⟨dottedSchema_registered, Registry.isProjected dottedSchema_registered 100 "Shop"⟩

end SchemaDocs
