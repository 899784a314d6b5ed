import SchemaDocs.Proofs.Schema.Declared
import SchemaDocs.Proofs.Schema.Lookup

/-!
# Which schemas are registered

A schema is registered if its names are valid and distinct and its references mean something, and
the registry then holds the walk over its declarations. Otherwise the error is that of the first
declaration of the walk whose name is refused, and where all names are taken, that of the first
reference that means nothing. `Registry.build_outcome` says all of this at once.
-/

namespace SchemaDocs

/-! ### Adding entries in turn -/

/-- Why an entry is refused behind earlier ones. An invalid name is not looked up. -/
inductive Entry.RefusedAfter (earlier : List Entry) (entry : Entry) : SchemaError → Prop where
  | invalidName {fault : NameFault} (hfault : entry.HasFault fault) :
      RefusedAfter earlier entry (.invalidName entry.kind entry.qualifiedName fault)
  | duplicateName {other : Entry} (hvalid : entry.HasValidName) (hother : other ∈ earlier)
      (hclash : other.Clashes entry) :
      RefusedAfter earlier entry (.duplicateName entry.kind entry.qualifiedName)

namespace Registry

variable {registry next : Registry} {entry : Entry} {error : SchemaError}

def add (registry : Registry) (entry : Entry) : Except SchemaError Registry :=
  if entry.kind = .proto then registry.addFile entry else registry.addNamed entry

def addAll (registry : Registry) (entries : List Entry) : Except SchemaError Registry := entries.foldlM add registry

theorem addAll_cons (registry : Registry) (entry : Entry) (entries : List Entry) :
    registry.addAll (entry :: entries) = registry.add entry >>= fun next => next.addAll entries := List.foldlM_cons

theorem addAll_append (registry : Registry) (left right : List Entry) :
    registry.addAll (left ++ right) = registry.addAll left >>= fun next => next.addAll right := List.foldlM_append

/-- The position that an index has for the name of an entry. -/
def position? (registry : Registry) (entry : Entry) : Option Nat :=
  if entry.kind = .proto then registry.byFile.lookup entry.qualifiedName else registry.byName.lookup entry.qualifiedName

theorem add_eq (registry : Registry) (entry : Entry) :
    registry.add entry =
      match entry.nameFault? with
      | some fault => .error (.invalidName entry.kind entry.qualifiedName fault)
      | none =>
        if (registry.position? entry).isSome then .error (.duplicateName entry.kind entry.qualifiedName)
        else .ok (registry.push entry) := by
  rw [add, position?, push]
  by_cases hkind : entry.kind = .proto
  · rw [Entry.nameFault?_of_proto hkind]
    cases hfault : fileNameFault? entry.qualifiedName <;> simp only [if_pos hkind, addFile, hfault]
  · rw [Entry.nameFault?_of_ne_proto hkind]
    cases hfault : typeNameFault? entry.qualifiedName <;> simp only [if_neg hkind, addNamed, hfault]

private theorem IsIndexed.isSome_position?_iff (h : registry.IsIndexed) :
    (registry.position? entry).isSome ↔ ∃ other ∈ registry.entries, other.Clashes entry := by
  rw [position?]
  split
  · rename_i hkind
    simp only [h.byFile, List.findIdx?_isSome, List.any_eq_true, Entry.isFile_iff, Entry.Clashes, hkind, iff_true]
  · rename_i hkind
    simp only [h.byName, List.findIdx?_isSome, List.any_eq_true, Entry.isNamed_iff, Entry.Clashes, hkind, iff_false,
      ne_eq]

/-- Adding refuses an entry, or puts it behind the others. -/
theorem IsIndexed.add_cases (h : registry.IsIndexed) (entry : Entry) :
    (∃ error, registry.add entry = .error error ∧ entry.RefusedAfter registry.entries error) ∨
      (registry.add entry = .ok (registry.push entry) ∧ entry.HasValidName ∧
        ∀ other ∈ registry.entries, ¬ other.Clashes entry) := by
  rw [add_eq]
  cases hfault : entry.nameFault? with
  | some fault => exact .inl ⟨_, rfl, .invalidName (Entry.nameFault?_eq_some_iff.mp hfault)⟩
  | none =>
    have hvalid := Entry.nameFault?_eq_none_iff.mp hfault
    by_cases hposition : (registry.position? entry).isSome
    · obtain ⟨other, hother, hclash⟩ := h.isSome_position?_iff.mp hposition
      exact .inl ⟨_, if_pos hposition, .duplicateName hvalid hother hclash⟩
    · refine .inr ⟨if_neg hposition, hvalid, fun other hother hclash => ?_⟩
      exact hposition (h.isSome_position?_iff.mpr ⟨other, hother, hclash⟩)

theorem IsIndexed.add_eq_error_iff (h : registry.IsIndexed) :
    registry.add entry = .error error ↔ entry.RefusedAfter registry.entries error := by
  rw [add_eq]
  constructor
  · intro hadd
    split at hadd
    · rename_i fault hfault
      exact Except.error.inj hadd ▸ .invalidName (Entry.nameFault?_eq_some_iff.mp hfault)
    · rename_i hfault
      split at hadd
      · rename_i hposition
        obtain ⟨other, hother, hclash⟩ := h.isSome_position?_iff.mp hposition
        exact Except.error.inj hadd ▸ .duplicateName (Entry.nameFault?_eq_none_iff.mp hfault) hother hclash
      · cases hadd
  · intro hrefused
    cases hrefused with
    | invalidName hfault => rw [Entry.nameFault?_eq_some_iff.mpr hfault]
    | duplicateName hvalid hother hclash =>
      rw [Entry.nameFault?_eq_none_iff.mpr hvalid]
      exact if_pos (h.isSome_position?_iff.mpr ⟨_, hother, hclash⟩)

theorem IsIndexed.add_eq_ok_iff (h : registry.IsIndexed) :
    registry.add entry = .ok next ↔
      (entry.HasValidName ∧ ∀ other ∈ registry.entries, ¬ other.Clashes entry) ∧ next = registry.push entry := by
  rcases h.add_cases entry with ⟨error, hadd, hrefused⟩ | ⟨hadd, hentry⟩
  · rw [hadd]
    constructor
    · intro hok
      cases hok
    · rintro ⟨⟨hvalid, hnew⟩, -⟩
      cases hrefused with
      | invalidName hfault =>
        rw [← Entry.nameFault?_eq_some_iff, Entry.nameFault?_eq_none_iff.mpr hvalid] at hfault
        cases hfault
      | duplicateName _ hother hclash => exact absurd hclash (hnew _ hother)
  · rw [hadd, Except.ok.injEq, eq_comm]
    exact (and_iff_right hentry).symm

private theorem IsConsistent.add (h : registry.IsConsistent) (hadd : registry.add entry = .ok next) :
    next.IsConsistent := by
  obtain ⟨⟨hvalid, hnew⟩, rfl⟩ := h.add_eq_ok_iff.mp hadd
  refine ⟨h.push hnew, ?_⟩
  rw [entries_push]
  exact WellNamed.append_singleton_iff.mpr ⟨h.named, hvalid, hnew⟩

private theorem IsConsistent.addAll (h : registry.IsConsistent) {entries : List Entry}
    (hadd : registry.addAll entries = .ok next) :
    next.IsConsistent :=
  foldlM_keeps (motive := IsConsistent) (fun _ _ _ _ hstate => hstate.add) h hadd

/-- A list of entries is added exactly if it is well named behind those that are there. -/
theorem IsConsistent.addAll_eq_ok_iff (h : registry.IsConsistent) {entries : List Entry} :
    registry.addAll entries = .ok next ↔ WellNamed (registry.entries ++ entries) ∧ next = registry.pushAll entries := by
  induction entries generalizing registry with
  | nil =>
    rw [List.append_nil, and_iff_right h.named]
    exact ⟨fun hok => (Except.ok.inj hok).symm, fun hnext => hnext ▸ rfl⟩
  | cons entry entries ih =>
    rw [addAll_cons, bind_eq_ok_iff, List.append_cons, ← entries_push]
    constructor
    · rintro ⟨middle, hadd, hrest⟩
      have hmiddle := h.add hadd
      obtain ⟨-, rfl⟩ := h.add_eq_ok_iff.mp hadd
      exact (ih hmiddle).mp hrest
    · rintro ⟨hnamed, hnext⟩
      have hentry := hnamed.of_append_left
      rw [entries_push] at hentry
      have hadd := h.add_eq_ok_iff.mpr ⟨(WellNamed.append_singleton_iff.mp hentry).2, rfl⟩
      exact ⟨_, hadd, (ih (h.add hadd)).mpr ⟨hnamed, hnext⟩⟩

/-- A list of entries is refused for the first of them that is refused behind those before it. -/
theorem IsConsistent.addAll_eq_error_iff (h : registry.IsConsistent) {entries : List Entry} :
    registry.addAll entries = .error error ↔
      ∃ passed entry rest, entries = passed ++ entry :: rest ∧ WellNamed (registry.entries ++ passed) ∧
        entry.RefusedAfter (registry.entries ++ passed) error := by
  constructor
  · induction entries generalizing registry with
    | nil =>
      intro hadd
      cases hadd
    | cons entry entries ih =>
      intro hadd
      rcases h.add_cases entry with ⟨other, hstep, hrefused⟩ | ⟨hstep, hvalid, hnew⟩
      · rw [addAll_cons, hstep] at hadd
        obtain rfl := Except.error.inj hadd
        exact ⟨[], entry, entries, rfl, by rw [List.append_nil]; exact h.named, by rwa [List.append_nil]⟩
      · rw [addAll_cons, hstep] at hadd
        obtain ⟨passed, refused, rest, rfl, hpassed, hrefused⟩ := ih (h.add hstep) hadd
        rw [entries_push, ← List.append_cons] at hpassed hrefused
        exact ⟨entry :: passed, refused, rest, rfl, hpassed, hrefused⟩
  · rintro ⟨passed, entry, rest, rfl, hpassed, hrefused⟩
    have hadd := h.addAll_eq_ok_iff.mpr ⟨hpassed, rfl⟩
    rw [← entries_pushAll] at hrefused
    rw [addAll_append, hadd]
    show (registry.pushAll passed).addAll (entry :: rest) = .error error
    rw [addAll_cons, (h.addAll hadd).add_eq_error_iff.mpr hrefused]
    rfl

/-! ### Adding declarations -/

theorem addEnums_eq (file : String) (parent : Option String) (scope : String) (registry : Registry)
    (types : List EnumType) :
    addEnums file parent scope registry types = registry.addAll (types.map (EnumType.entry file parent scope)) := by
  rw [addEnums, addAll, List.foldlM_map]
  rfl

mutual

/-- Adding a message is adding what the walk over it meets. -/
theorem addMessage_eq (file : String) (parent : Option String) (scope : String) (registry : Registry) :
    (message : Message) →
    addMessage file parent scope registry message = registry.addAll (message.entries file parent scope)
  | ⟨name, comment, fields, messages, enums, options⟩ => by
    rw [addMessage, Message.entries, addAll_cons]
    refine bind_congr fun next => ?_
    rw [addAll_append, addMessages_eq]
    exact bind_congr fun _ => addEnums_eq ..

theorem addMessages_eq (file : String) (parent : Option String) (scope : String) (registry : Registry) :
    (messages : List Message) →
      addMessages file parent scope registry messages = registry.addAll (Message.listEntries file parent scope messages)
  | [] => by
    rw [addMessages, Message.listEntries]
    rfl
  | message :: messages => by
    rw [addMessages, Message.listEntries, addAll_append, addMessage_eq]
    exact bind_congr fun next => addMessages_eq file parent scope next messages

end

theorem addDeclarations_eq (registry : Registry) (file : ProtoFile) :
    registry.addDeclarations file = registry.addAll file.entries := by
  rw [addDeclarations, ProtoFile.entries, addAll_cons]
  refine bind_congr fun filed => ?_
  rw [List.append_assoc, addAll_append, addMessages_eq]
  refine bind_congr fun messaged => ?_
  rw [addAll_append, addEnums_eq]
  refine bind_congr fun enumed => ?_
  rw [addAll, List.foldlM_map]
  rfl

/-- Adding the declarations of a schema is adding the entries of its walk one by one. -/
theorem addDeclarations_files (schema : Schema) :
    schema.files.foldlM addDeclarations {} = addAll {} schema.entries := by
  rw [Schema.entries]
  generalize ({} : Registry) = registry
  induction schema.files generalizing registry with
  | nil => rfl
  | cons file files ih =>
    rw [List.foldlM_cons, List.flatMap_cons, addAll_append, addDeclarations_eq]
    exact bind_congr ih

end Registry

/-! ### References -/

namespace Schema

/-- What a name has to be where it is required: the name of a scalar, or that of a declaration
anywhere in the schema, with at most one dot in front. -/
def Satisfies (schema : Schema) (typeName : String) : Registry.Requirement → Prop
  | .anyType =>
    isScalar typeName ∨
      ∃ entry, schema.Declares entry ∧ (entry.kind = .message ∨ entry.kind = .enum) ∧ entry.IsNamedBy typeName
  | .scalarType => isScalar typeName
  | .messageType =>
    ¬ isScalar typeName ∧ ∃ entry, schema.Declares entry ∧ entry.kind = .message ∧ entry.IsNamedBy typeName

/-- The references of a schema in the order of its walk: who refers, to which name, with which
requirement. -/
def references (schema : Schema) : List (String × String × Registry.Requirement) :=
  schema.entries.flatMap Registry.references

theorem meets_iff {schema : Schema} {registry : Registry} (hentries : registry.entries = schema.entries)
    (hregistry : registry.IsConsistent) {typeName : String} {requirement : Registry.Requirement} :
    registry.meets requirement typeName ↔ schema.Satisfies typeName requirement := by
  cases requirement with
  | scalarType => rfl
  | anyType =>
    rw [Registry.meets, Option.isSome_iff_exists, Satisfies]
    by_cases hscalar : isScalar typeName
    · simp [Registry.resolve?_of_isScalar hscalar, hscalar]
    · simp only [Registry.resolve?_eq_some_iff hregistry hscalar, hentries, mem_entries_iff]
      constructor
      · rintro ⟨-, entry, hentry, hkind, hby, -⟩
        exact .inr ⟨entry, hentry, hkind, hby⟩
      · rintro (h | ⟨entry, hentry, hkind, hby⟩)
        · exact absurd h hscalar
        · exact ⟨_, entry, hentry, hkind, hby, rfl⟩
  | messageType =>
    rw [Registry.meets, Satisfies]
    by_cases hscalar : isScalar typeName
    · simp [Registry.resolve?_of_isScalar hscalar, hscalar]
    · constructor
      · intro h
        split at h
        · rename_i name hresolve
          obtain ⟨entry, hentry, -, hby, htype⟩ := (Registry.resolve?_eq_some_iff hregistry hscalar).mp hresolve
          obtain ⟨hkind, -⟩ := TypeRef.named.inj htype
          exact ⟨hscalar, entry, mem_entries_iff.mp (hentries ▸ hentry), hkind.symm, hby⟩
        · cases h
      · rintro ⟨-, entry, hentry, hkind, hby⟩
        rw [(Registry.resolve?_eq_some_iff hregistry hscalar).mpr
          ⟨entry, hentries ▸ mem_entries_iff.mpr hentry, .inl hkind, hby, rfl⟩, hkind]

end Schema

theorem Registry.check_eq_ok_iff {registry : Registry} :
    registry.check = .ok () ↔
      ∀ reference ∈ registry.entries.flatMap references, registry.meets reference.2.2 reference.2.1 := by
  rw [check]
  split
  · rename_i hfind
    simpa using List.find?_eq_none.mp hfind
  · rename_i referrer typeName requirement hfind
    constructor
    · intro h
      cases h
    · intro h
      have hmeets := h _ (List.mem_of_find?_eq_some hfind)
      have hfails := List.find?_some hfind
      simp [hmeets] at hfails

theorem Registry.check_eq_error_iff {registry : Registry} {error : SchemaError} :
    registry.check = .error error ↔
      ∃ passed referrer typeName requirement rest,
        registry.entries.flatMap references = passed ++ (referrer, typeName, requirement) :: rest ∧
        (∀ reference ∈ passed, registry.meets reference.2.2 reference.2.1) ∧
        ¬ registry.meets requirement typeName ∧ error = .unresolvedType typeName referrer := by
  rw [check]
  constructor
  · intro h
    split at h
    · cases h
    · rename_i referrer typeName requirement hfind
      obtain ⟨hfails, passed, rest, hsplit, hpassed⟩ := List.find?_eq_some_iff_append.mp hfind
      exact ⟨passed, referrer, typeName, requirement, rest, hsplit, by simpa using hpassed, by simpa using hfails,
        (Except.error.inj h).symm⟩
  · rintro ⟨passed, referrer, typeName, requirement, rest, hsplit, hpassed, hfails, rfl⟩
    rw [List.find?_eq_some_iff_append.mpr ⟨by simpa using hfails, passed, rest, hsplit, by simpa using hpassed⟩]

end SchemaDocs
