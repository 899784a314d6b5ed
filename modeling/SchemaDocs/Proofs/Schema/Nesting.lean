import SchemaDocs.Proofs.Schema.Outcome
import Mathlib.Data.List.Induction
import Mathlib.Data.List.Nodup

/-!
# Where declarations stand

A declaration stands in a file, with some messages around it. `Schema.Holds` says so without a word about
names: what the entry of a declaration is called and which entry is its parent follows from where it stands.
In a registry the way back is open too. An entry stands in one place, although packages and types may have
dots in their names, so that the message around a declaration cannot be read off its qualified name.
-/

namespace SchemaDocs

/-- A file, and the messages around a declaration in it, the outermost first. -/
structure Surroundings where
  file : ProtoFile
  messages : List Message

namespace Surroundings

def within (place : Surroundings) (outer : Message) : Surroundings := ⟨place.file, place.messages ++ [outer]⟩

def qualified (place : Surroundings) (names : List String) : String := place.file.scope ++ String.intercalate "." names

def parent? (place : Surroundings) : Option String :=
  if place.messages = [] then none else some (place.qualified (place.messages.map Message.name))

def nameOf (place : Surroundings) : Declaration → String
  | .file file => file.name
  | declaration => place.qualified (place.messages.map Message.name ++ [declaration.name])

def entry (place : Surroundings) (declaration : Declaration) : Entry :=
  ⟨declaration.kind, place.nameOf declaration, place.file.name, place.parent?, declaration⟩

end Surroundings

/-- A schema holds a declaration in some surroundings. -/
inductive Schema.Holds (schema : Schema) : Surroundings → Declaration → Prop where
  | file {file : ProtoFile} (hfile : file ∈ schema.files) : Holds schema ⟨file, []⟩ (.file file)
  | message {file : ProtoFile} {message : Message} (hfile : file ∈ schema.files)
      (hmessage : message ∈ file.messages) :
      Holds schema ⟨file, []⟩ (.message message)
  | enum {file : ProtoFile} {type : EnumType} (hfile : file ∈ schema.files) (htype : type ∈ file.enums) :
      Holds schema ⟨file, []⟩ (.enum type)
  | service {file : ProtoFile} {service : Service} (hfile : file ∈ schema.files)
      (hservice : service ∈ file.services) :
      Holds schema ⟨file, []⟩ (.service service)
  | nestedMessage {place : Surroundings} {outer message : Message} (houter : Holds schema place (.message outer))
      (hmessage : message ∈ outer.messages) : Holds schema (place.within outer) (.message message)
  | nestedEnum {place : Surroundings} {outer : Message} {type : EnumType} (houter : Holds schema place (.message outer))
      (htype : type ∈ outer.enums) : Holds schema (place.within outer) (.enum type)

variable {schema : Schema} {registry : Registry} {place other : Surroundings} {outer : Message}
  {declaration : Declaration} {entry : Entry}

/-! ### Names by place -/

namespace Surroundings

theorem qualified_concat (place : Surroundings) {names : List String} (hnames : names ≠ []) (name : String) :
    place.qualified (names ++ [name]) = place.qualified names ++ "." ++ name := by
  rw [qualified, qualified, String.intercalate_append_of_ne_nil hnames (List.cons_ne_nil _ _),
    String.intercalate_singleton, ← String.append_assoc, ← String.append_assoc]

private theorem entry_top (file : ProtoFile) (hkind : declaration.kind ≠ .proto) :
    (Surroundings.mk file []).entry declaration =
      ⟨declaration.kind, file.scope ++ declaration.name, file.name, none, declaration⟩ := by
  have hname : (Surroundings.mk file []).qualified [declaration.name] = file.scope ++ declaration.name := by
    rw [qualified, String.intercalate_singleton]
  cases declaration with
  | file => exact absurd rfl hkind
  | _ => rw [← hname]; rfl

private theorem parent?_within (place : Surroundings) (outer : Message) :
    (place.within outer).parent? = some (place.nameOf (.message outer)) := by
  rw [parent?, if_neg (by simp [within]), within, List.map_append]
  rfl

private theorem entry_within (place : Surroundings) (outer : Message) (hkind : declaration.kind ≠ .proto) :
    (place.within outer).entry declaration =
      ⟨declaration.kind, place.nameOf (.message outer) ++ "." ++ declaration.name, place.file.name,
        some (place.nameOf (.message outer)), declaration⟩ := by
  have hnames : (place.within outer).messages.map Message.name = place.messages.map Message.name ++ [outer.name] := by
    rw [within, List.map_append, List.map_singleton]
  have hname : (place.within outer).qualified ((place.within outer).messages.map Message.name ++ [declaration.name]) =
      place.nameOf (.message outer) ++ "." ++ declaration.name := by
    rw [hnames, qualified_concat _ (by simp)]
    rfl
  cases declaration with
  | file => exact absurd rfl hkind
  | _ => rw [entry, parent?_within, ← hname]; rfl

theorem within_inj {front : Surroundings} {inner : Message} (h : place.within outer = front.within inner) :
    place = front ∧ outer = inner := by
  obtain ⟨file, messages⟩ := place
  obtain ⟨hfile, hmessages⟩ := Surroundings.mk.inj h
  obtain ⟨hfront, hlast⟩ := List.append_inj' hmessages rfl
  obtain rfl : file = front.file := hfile
  obtain rfl : messages = front.messages := hfront
  exact ⟨rfl, (List.cons.inj hlast).1⟩

theorem parent?_eq_none_iff : place.parent? = none ↔ place.messages = [] := by
  simp [parent?]

end Surroundings

private theorem Schema.Holds.declares (h : schema.Holds place declaration) :
    schema.Declares (place.entry declaration) := by
  induction h with
  | file hfile => exact .file hfile
  | message hfile hmessage =>
    rw [Surroundings.entry_top _ Kind.noConfusion]
    exact .message hfile hmessage
  | enum hfile htype =>
    rw [Surroundings.entry_top _ Kind.noConfusion]
    exact .enum hfile htype
  | service hfile hservice =>
    rw [Surroundings.entry_top _ Kind.noConfusion]
    exact .service hfile hservice
  | nestedMessage _ hmessage ih =>
    rw [Surroundings.entry_within _ _ Kind.noConfusion]
    exact .nestedMessage ih hmessage
  | nestedEnum _ htype ih =>
    rw [Surroundings.entry_within _ _ Kind.noConfusion]
    exact .nestedEnum ih htype

private theorem Schema.Declares.exists_holds (h : schema.Declares entry) :
    ∃ place declaration, schema.Holds place declaration ∧ place.entry declaration = entry := by
  induction h with
  | file hfile => exact ⟨_, _, .file hfile, rfl⟩
  | message hfile hmessage => exact ⟨_, _, .message hfile hmessage, Surroundings.entry_top _ Kind.noConfusion⟩
  | enum hfile htype => exact ⟨_, _, .enum hfile htype, Surroundings.entry_top _ Kind.noConfusion⟩
  | service hfile hservice => exact ⟨_, _, .service hfile hservice, Surroundings.entry_top _ Kind.noConfusion⟩
  | nestedMessage _ hmessage ih =>
    obtain ⟨place, declaration, hplace, hentry⟩ := ih
    obtain ⟨-, rfl, rfl, -, rfl⟩ := Entry.mk.inj hentry
    exact ⟨_, _, .nestedMessage hplace hmessage, Surroundings.entry_within _ _ Kind.noConfusion⟩
  | nestedEnum _ htype ih =>
    obtain ⟨place, declaration, hplace, hentry⟩ := ih
    obtain ⟨-, rfl, rfl, -, rfl⟩ := Entry.mk.inj hentry
    exact ⟨_, _, .nestedEnum hplace htype, Surroundings.entry_within _ _ Kind.noConfusion⟩

/-! ### The place of an entry -/

/-- An entry is that of a declaration at a place: it has its name and its file. -/
structure Entry.StandsAt (schema : Schema) (entry : Entry) (place : Surroundings) : Prop where
  holds : schema.Holds place entry.declaration
  file : entry.file = place.file.name
  name : entry.qualifiedName = place.nameOf entry.declaration

private theorem Surroundings.eq_top_or_within (place : Surroundings) :
    place = ⟨place.file, []⟩ ∨ ∃ front outer, place = Surroundings.within front outer := by
  obtain ⟨file, messages⟩ := place
  rcases List.eq_nil_or_concat' messages with rfl | ⟨front, outer, rfl⟩
  · exact .inl rfl
  · exact .inr ⟨⟨file, front⟩, outer, rfl⟩

namespace Schema.Holds

theorem file_mem (h : schema.Holds place declaration) : place.file ∈ schema.files := by
  induction h with
  | nestedMessage _ _ ih => exact ih
  | nestedEnum _ _ ih => exact ih
  | _ => assumption

private theorem of_within (h : schema.Holds (place.within outer) declaration) :
    schema.Holds place (.message outer) ∧ declaration.kind ≠ .proto := by
  generalize hwhole : place.within outer = whole at h
  cases h with
  | nestedMessage houter hmessage =>
    obtain ⟨rfl, rfl⟩ := Surroundings.within_inj hwhole
    exact ⟨houter, Kind.noConfusion⟩
  | nestedEnum houter htype =>
    obtain ⟨rfl, rfl⟩ := Surroundings.within_inj hwhole
    exact ⟨houter, Kind.noConfusion⟩
  | _ => exact absurd (congrArg Surroundings.messages hwhole) (by simp [Surroundings.within])

private theorem mem_entries (h : schema.Holds place declaration) : place.entry declaration ∈ schema.entries :=
  Schema.mem_entries_iff.mpr h.declares

private theorem eq_top (hnamed : WellNamed schema.entries) (h : schema.Holds place declaration)
    (hother : schema.Holds other declaration) (hentry : place.entry declaration = other.entry declaration)
    (htop : place.messages = []) : place = other := by
  obtain ⟨-, -, hfile, hparent, -⟩ := Entry.mk.inj hentry
  have hmessages : other.messages = [] := Surroundings.parent?_eq_none_iff.mp
    (hparent ▸ Surroundings.parent?_eq_none_iff.mpr htop)
  have hsame : place.file = other.file :=
    List.inj_on_of_nodup_map (Schema.wellNamed_entries_iff.mp hnamed).2.1 h.file_mem hother.file_mem hfile
  obtain ⟨file, messages⟩ := place
  obtain ⟨otherFile, otherMessages⟩ := other
  exact Surroundings.mk.injEq .. ▸ ⟨hsame, htop.trans hmessages.symm⟩

private theorem place_unique (hnamed : WellNamed schema.entries) (h : schema.Holds place declaration)
    (hother : schema.Holds other declaration) (hentry : place.entry declaration = other.entry declaration) :
    place = other := by
  obtain ⟨file, messages⟩ := place
  induction messages using List.reverseRecOn generalizing other declaration with
  | nil => exact eq_top hnamed h hother hentry rfl
  | append_singleton front outer ih =>
    have hwithin : schema.Holds (Surroundings.within ⟨file, front⟩ outer) declaration := h
    obtain ⟨houter, hkind⟩ := hwithin.of_within
    rcases other.eq_top_or_within with htop | ⟨back, otherOuter, rfl⟩
    · exact (eq_top hnamed hother h hentry.symm (congrArg Surroundings.messages htop)).symm
    · obtain ⟨hback, -⟩ := hother.of_within
      -- the messages around it have one name, so they are one entry
      have hparent : some (Surroundings.nameOf ⟨file, front⟩ (.message outer)) =
          some (back.nameOf (.message otherOuter)) := by
        rw [← Surroundings.parent?_within, ← Surroundings.parent?_within]
        exact (Entry.mk.inj hentry).2.2.2.1
      have hsame := hnamed.eq_of_clashes houter.mem_entries hback.mem_entries
        ⟨iff_of_false Kind.noConfusion Kind.noConfusion, Option.some.inj hparent⟩
      obtain rfl := Declaration.message.inj (Entry.mk.inj hsame).2.2.2.2
      rw [← ih hback houter hsame]
      rfl

end Schema.Holds

namespace Entry.StandsAt

private theorem eq_entry (hnamed : WellNamed schema.entries) (hentry : entry ∈ schema.entries)
    (h : entry.StandsAt schema place) : entry = place.entry entry.declaration := by
  have hkind : entry.kind = (place.entry entry.declaration).kind := (Schema.mem_entries_iff.mp hentry).kind_eq
  exact hnamed.eq_of_clashes hentry h.holds.mem_entries ⟨by rw [hkind], h.name⟩

end Entry.StandsAt

/-- Each entry stands at one place. -/
theorem Schema.existsUnique_place (hnamed : WellNamed schema.entries) (hentry : entry ∈ schema.entries) :
    ∃! place, entry.StandsAt schema place := by
  obtain ⟨place, declaration, hholds, rfl⟩ := (Schema.mem_entries_iff.mp hentry).exists_holds
  refine ⟨place, ⟨hholds, rfl, rfl⟩, fun other hother => ?_⟩
  exact (hholds.place_unique hnamed hother.holds (hother.eq_entry hnamed hentry)).symm

/-! ### Selecting by kind -/

abbrev Kind.Node : Kind → Type
  | .proto => ProtoFile
  | .message => Message
  | .enum => EnumType
  | .service => Service

namespace Declaration

def ofNode : (kind : Kind) → kind.Node → Declaration
  | .proto, node => .file node
  | .message, node => .message node
  | .enum, node => .enum node
  | .service, node => .service node

def as? : (kind : Kind) → Declaration → Option kind.Node
  | .proto, .file node => some node
  | .message, .message node => some node
  | .enum, .enum node => some node
  | .service, .service node => some node
  | _, _ => none

theorem as?_eq_some_iff {kind : Kind} {node : kind.Node} :
    declaration.as? kind = some node ↔ declaration = ofNode kind node := by
  cases kind <;> cases declaration <;> simp [as?, ofNode]

theorem isSome_as?_iff {kind : Kind} : (declaration.as? kind).isSome ↔ declaration.kind = kind := by
  cases kind <;> cases declaration <;> simp [as?, Declaration.kind]

end Declaration

def Registry.select (registry : Registry) (kind : Kind) : List (Entry × kind.Node) :=
  registry.entries.filterMap fun entry => (entry.declaration.as? kind).map fun node => (entry, node)

private theorem Registry.map_fst_select (registry : Registry) (kind : Kind) :
    (registry.select kind).map Prod.fst = registry.declaring kind := by
  rw [select, List.map_filterMap, declaring, ← List.filterMap_eq_filter]
  refine List.filterMap_congr fun entry _ => ?_
  rw [Option.map_map, Option.guard_eq_ite]
  cases hnode : entry.declaration.as? kind with
  | none =>
    have hkind : ¬ entry.declaration.kind = kind := fun h => by simpa [hnode] using Declaration.isSome_as?_iff.mpr h
    simp [hkind]
  | some node =>
    have hkind : entry.declaration.kind = kind := Declaration.isSome_as?_iff.mp (by rw [hnode]; rfl)
    simp [hkind]

/-- What is listed under a kind is what is declared of it. -/
theorem Registry.declaring_eq_ofKind (hregistry : Registry.build schema = .ok registry) (kind : Kind) :
    registry.declaring kind = registry.ofKind kind := by
  rw [declaring, ofKind]
  refine List.filter_congr fun entry hentry => ?_
  rw [kind_eq_of_build hregistry hentry]

/-! ### Look-ups -/

private theorem not_isScalar_dot (name : String) : ¬ isScalar ("." ++ name) := by
  have hheads : ∀ scalar ∈ scalarTypes, scalar.toList.head? ≠ some '.' := by decide
  intro hscalar
  rw [isScalar, List.contains_iff_mem] at hscalar
  exact hheads _ hscalar (by simp)

/-- The indices, the kinds and the look-ups of a registry agree with its entries, and these with the schema. -/
structure Registry.Agrees (registry : Registry) (schema : Schema) : Prop where
  /-- Each index holds the position of the first entry of a name. -/
  indexed : registry.IsIndexed
  file : ∀ entry ∈ registry.entries, entry.kind = .proto →
    registry.file? entry.qualifiedName = some entry ∧ ∀ name, registry.get? name ≠ some entry
  type : ∀ entry ∈ registry.entries, entry.kind ≠ .proto → registry.get? entry.qualifiedName = some entry
  kind : ∀ entry ∈ registry.entries, entry.kind = entry.declaration.kind
  selected : ∀ kind, (registry.select kind).map Prod.fst = registry.ofKind kind
  node : ∀ kind, ∀ pick ∈ registry.select kind, pick.1.declaration = .ofNode kind pick.2
  place : ∀ entry ∈ registry.entries, ∃! place, entry.StandsAt schema place
  parent : ∀ entry ∈ registry.entries, ∀ place, entry.StandsAt schema place →
    (entry.parent.isSome ↔ place.messages ≠ [])
  enclosing : ∀ entry ∈ registry.entries, ∀ place name, entry.StandsAt schema place → entry.parent = some name →
    ∃ front outer enclosing, place = Surroundings.within front outer ∧ registry.get? name = some enclosing ∧
      enclosing.StandsAt schema front ∧ enclosing.declaration = .message outer ∧
      entry.qualifiedName = name ++ "." ++ entry.name
  dotted : ∀ entry ∈ registry.entries, entry.kind = .message ∨ entry.kind = .enum →
    registry.resolve? ("." ++ entry.qualifiedName) = some (.named entry.kind entry.qualifiedName)
  bare : ∀ entry ∈ registry.entries, entry.kind = .message ∨ entry.kind = .enum → ¬ isScalar entry.qualifiedName →
    registry.resolve? entry.qualifiedName = some (.named entry.kind entry.qualifiedName)
  unnamed : ∀ typeName, ¬ isScalar typeName →
    (∀ entry ∈ registry.entries, entry.kind = .message ∨ entry.kind = .enum → ¬ entry.IsNamedBy typeName) →
    registry.resolve? typeName = none

/-- Whatever names it has, what a registry finds for a name is what the schema has in the place of the name. -/
theorem Registry.lookups_agree (hregistry : Registry.build schema = .ok registry) : registry.Agrees schema := by
  have hconsistent := isConsistent_of_build hregistry
  have hentries := entries_of_build hregistry
  have hschema : WellNamed schema.entries := hentries ▸ hconsistent.named
  refine {
    indexed := hconsistent.toIsIndexed
    file := fun entry hentry hkind => ⟨(file?_eq_some_iff hconsistent).mpr ⟨hentry, hkind, rfl⟩, fun name hget => ?_⟩
    type := fun entry hentry hkind => (get?_eq_some_iff hconsistent).mpr ⟨hentry, hkind, rfl⟩
    kind := fun entry hentry => kind_eq_of_build hregistry hentry
    selected := fun kind => (registry.map_fst_select kind).trans (declaring_eq_ofKind hregistry kind)
    node := fun kind pick hpick => ?_
    place := fun entry hentry => Schema.existsUnique_place hschema (hentries ▸ hentry)
    parent := fun entry hentry place hplace => ?_
    enclosing := fun entry hentry place name hplace hparent => ?_
    dotted := fun entry hentry hkind =>
      (resolve?_eq_some_iff hconsistent (not_isScalar_dot _)).mpr ⟨entry, hentry, hkind, .inr rfl, rfl⟩
    bare := fun entry hentry hkind hscalar =>
      (resolve?_eq_some_iff hconsistent hscalar).mpr ⟨entry, hentry, hkind, .inl rfl, rfl⟩
    unnamed := fun typeName hscalar hunnamed => ?_ }
  · exact ((get?_eq_some_iff hconsistent).mp hget).2.1 hkind
  · obtain ⟨entry, -, hpick⟩ := List.mem_filterMap.mp hpick
    obtain ⟨node, hnode, rfl⟩ := Option.map_eq_some_iff.mp hpick
    exact Declaration.as?_eq_some_iff.mp hnode
  · rw [hplace.eq_entry hschema (hentries ▸ hentry), Option.isSome_iff_ne_none]
    exact Surroundings.parent?_eq_none_iff.not
  · have heq := hplace.eq_entry hschema (hentries ▸ hentry)
    rcases place.eq_top_or_within with htop | ⟨front, outer, rfl⟩
    · rw [heq, htop] at hparent
      cases hparent
    · obtain ⟨houter, hkind⟩ := hplace.holds.of_within
      rw [Surroundings.entry_within _ _ hkind] at heq
      obtain rfl : front.nameOf (.message outer) = name :=
        Option.some.inj ((congrArg Entry.parent heq).symm.trans hparent)
      refine ⟨front, outer, front.entry (.message outer), rfl, ?_, ⟨houter, rfl, rfl⟩, rfl,
        congrArg Entry.qualifiedName heq⟩
      exact (get?_eq_some_iff hconsistent).mpr ⟨hentries ▸ houter.mem_entries, Kind.noConfusion, rfl⟩
  · rw [Option.eq_none_iff_forall_ne_some]
    intro type hresolve
    obtain ⟨entry, hentry, hkind, hby, -⟩ := (resolve?_eq_some_iff hconsistent hscalar).mp hresolve
    exact hunnamed entry hentry hkind hby

/-- Two messages, and dots in the names of what they hold: `shop.Order.Line.Unit` is in `shop.Order`, and
`shop.Order.Line.Price` in `shop.Order.Line`. -/
def dottedSchema : Schema where
  files := [{
    name := "shop/order.proto"
    package := some "shop"
    messages := [
      { name := "Order"
        fields := [{ name := "unit", typeName := ".shop.Order.Line.Unit" }]
        enums := [{ name := "Line.Unit" }] },
      { name := "Order.Line", messages := [{ name := "Price" }] }]
    services := [{ name := "Shop" }] }]

theorem dottedSchema_registered : Registry.build dottedSchema = .ok (.ofEntries dottedSchema.entries) := rfl

theorem dottedSchema_agrees :
    Registry.build dottedSchema = .ok (.ofEntries dottedSchema.entries) ∧
      Registry.Agrees (.ofEntries dottedSchema.entries) dottedSchema :=
  ⟨dottedSchema_registered, Registry.lookups_agree dottedSchema_registered⟩

end SchemaDocs
