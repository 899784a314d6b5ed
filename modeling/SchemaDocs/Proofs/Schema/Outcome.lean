import SchemaDocs.Proofs.Schema.Registration

/-!
# The outcome of building a registry

`Schema.IsWellFormed` is what a schema has to be, said of its files, its declarations and their
references apart from each other; `Schema.Refuses` says which error is reported otherwise.
`Registry.build_outcome` is the exact outcome for every schema: the registry of the walk, or the one
error.
-/

namespace SchemaDocs

/-- A schema whose names are valid and distinct and whose references mean something. -/
structure Schema.IsWellFormed (schema : Schema) : Prop where
  fileNames : ∀ file ∈ schema.files, IsFileName file.name
  distinctFiles : (schema.files.map ProtoFile.name).Nodup
  typeNames : ∀ entry, schema.Declares entry → entry.kind ≠ .proto → IsTypeName entry.qualifiedName
  /-- Messages, enums and services share one namespace over all files. -/
  distinctTypes : ((schema.entries.filter (·.kind ≠ .proto)).map Entry.qualifiedName).Nodup
  fieldTypes : ∀ name file parent message, schema.Declares ⟨.message, name, file, parent, .message message⟩ →
    ∀ field ∈ message.fields, schema.Satisfies field.typeName .anyType
  mapKeys : ∀ name file parent message, schema.Declares ⟨.message, name, file, parent, .message message⟩ →
    ∀ field ∈ message.fields, ∀ key, field.mapKey = some key → schema.Satisfies key .scalarType
  methodTypes : ∀ name file parent service, schema.Declares ⟨.service, name, file, parent, .service service⟩ →
    ∀ method ∈ service.methods,
      schema.Satisfies method.inputType .messageType ∧ schema.Satisfies method.outputType .messageType

/-- The error for a schema. Names come before references, and each error is that of the first thing
refused. -/
inductive Schema.Refuses (schema : Schema) : SchemaError → Prop where
  | name {passed rest : List Entry} {entry : Entry} {error : SchemaError}
      (hwalk : schema.entries = passed ++ entry :: rest) (hpassed : WellNamed passed)
      (hrefused : entry.RefusedAfter passed error) : Refuses schema error
  | reference {passed rest : List (String × String × Registry.Requirement)} {referrer typeName : String}
      {requirement : Registry.Requirement} (hnamed : WellNamed schema.entries)
      (hwalk : schema.references = passed ++ (referrer, typeName, requirement) :: rest)
      (hpassed : ∀ reference ∈ passed, schema.Satisfies reference.2.1 reference.2.2)
      (hunmet : ¬ schema.Satisfies typeName requirement) : Refuses schema (.unresolvedType typeName referrer)

/-! ### Files and types in the walk -/

private theorem Message.kind_ne_proto_of_mem_entries (message : Message) :
    ∀ {file scope : String} {parent : Option String} {entry : Entry},
      entry ∈ message.entries file parent scope → entry.kind ≠ .proto := by
  induction message using Message.nestedInduction with
  | step message ih =>
    intro file scope parent entry hentry
    rw [entries_eq, List.mem_cons, List.mem_append, listEntries_eq, List.mem_flatMap, List.mem_map] at hentry
    rcases hentry with rfl | ⟨nested, hnested, hentry⟩ | ⟨type, htype, rfl⟩
    · exact Kind.noConfusion
    · exact ih nested hnested hentry
    · exact Kind.noConfusion

private theorem ProtoFile.filter_entries_proto (file : ProtoFile) :
    (file.entries.filter fun entry => entry.kind = .proto) = [⟨.proto, file.name, file.name, none, .file file⟩] := by
  rw [entries, List.filter_cons_of_pos (by rfl), List.filter_eq_nil_iff.mpr]
  intro entry hentry
  rw [decide_eq_true_eq]
  simp only [Message.listEntries_eq, List.mem_append, List.mem_flatMap, List.mem_map] at hentry
  rcases hentry with (⟨message, -, hentry⟩ | ⟨type, -, rfl⟩) | ⟨service, -, rfl⟩
  · exact message.kind_ne_proto_of_mem_entries hentry
  · exact Kind.noConfusion
  · exact Kind.noConfusion

namespace Schema

variable {schema : Schema}

private theorem filter_entries_proto (schema : Schema) :
    ((schema.entries.filter fun entry => entry.kind = .proto).map Entry.qualifiedName) =
      schema.files.map ProtoFile.name := by
  rw [entries, List.filter_flatMap, List.map_flatMap]
  simp only [ProtoFile.filter_entries_proto, List.map_singleton]
  exact List.map_eq_flatMap.symm

private theorem pairwise_not_clashes_iff {entries : List Entry} :
    (entries.Pairwise fun a b => ¬ a.Clashes b) ↔
      ((entries.filter fun entry => entry.kind = .proto).map Entry.qualifiedName).Nodup ∧
        ((entries.filter fun entry => entry.kind ≠ .proto).map Entry.qualifiedName).Nodup := by
  simp only [List.Nodup, List.pairwise_map, List.pairwise_filter, ← List.pairwise_and_iff,
    decide_eq_true_eq, Entry.Clashes]
  apply List.Pairwise.iff
  intro a b
  tauto

theorem wellNamed_entries_iff :
    WellNamed schema.entries ↔
      (∀ file ∈ schema.files, IsFileName file.name) ∧ (schema.files.map ProtoFile.name).Nodup ∧
        (∀ entry, schema.Declares entry → entry.kind ≠ .proto → IsTypeName entry.qualifiedName) ∧
        ((schema.entries.filter (·.kind ≠ .proto)).map Entry.qualifiedName).Nodup := by
  constructor
  · rintro ⟨hvalid, hdistinct⟩
    rw [pairwise_not_clashes_iff, filter_entries_proto] at hdistinct
    exact ⟨fun file hfile => (hvalid _ (mem_entries_iff.mpr (.file hfile))).file rfl, hdistinct.1,
      fun entry hentry => (hvalid entry (mem_entries_iff.mpr hentry)).type, hdistinct.2⟩
  · rintro ⟨hfiles, hdistinctFiles, htypes, hdistinctTypes⟩
    refine ⟨fun entry hentry => ⟨fun hkind => ?_, htypes entry (mem_entries_iff.mp hentry)⟩, ?_⟩
    · have hname : entry.qualifiedName ∈ schema.files.map ProtoFile.name := by
        rw [← filter_entries_proto]
        exact List.mem_map_of_mem (List.mem_filter.mpr ⟨hentry, decide_eq_true hkind⟩)
      obtain ⟨file, hfile, hfileName⟩ := List.mem_map.mp hname
      exact hfileName ▸ hfiles file hfile
    · rw [pairwise_not_clashes_iff, filter_entries_proto]
      exact ⟨hdistinctFiles, hdistinctTypes⟩

/-! ### References in the walk -/

private theorem mem_references {reference : String × String × Registry.Requirement} :
    reference ∈ schema.references ↔
      (∃ name file parent message, schema.Declares ⟨.message, name, file, parent, .message message⟩ ∧
        ∃ field ∈ message.fields, reference = (name ++ "." ++ field.name, field.typeName, .anyType) ∨
          ∃ key, field.mapKey = some key ∧ reference = (name ++ "." ++ field.name, key, .scalarType)) ∨
      ∃ name file parent service, schema.Declares ⟨.service, name, file, parent, .service service⟩ ∧
        ∃ method ∈ service.methods, reference = (name ++ "." ++ method.name, method.inputType, .messageType) ∨
          reference = (name ++ "." ++ method.name, method.outputType, .messageType) := by
  rw [references, List.mem_flatMap]
  constructor
  · rintro ⟨⟨kind, name, file, parent, declaration⟩, hentry, href⟩
    rw [mem_entries_iff] at hentry
    obtain rfl : kind = declaration.kind := hentry.kind_eq
    cases declaration with
    | file file => cases href
    | enum type => cases href
    | message message =>
      obtain ⟨field, hfield, href⟩ := List.mem_flatMap.mp href
      refine .inl ⟨name, file, parent, message, hentry, field, hfield, ?_⟩
      cases hkey : field.mapKey with
      | none => simpa [hkey] using href
      | some key => simpa [hkey] using href
    | service service =>
      obtain ⟨method, hmethod, href⟩ := List.mem_flatMap.mp href
      exact .inr ⟨name, file, parent, service, hentry, method, hmethod, by simpa using href⟩
  · rintro (⟨name, file, parent, message, hentry, field, hfield, href⟩ |
      ⟨name, file, parent, service, hentry, method, hmethod, href⟩)
    · refine ⟨_, mem_entries_iff.mpr hentry, List.mem_flatMap.mpr ⟨field, hfield, ?_⟩⟩
      rcases href with rfl | ⟨key, hkey, rfl⟩
      · exact List.mem_cons_self
      · simp [hkey]
    · refine ⟨_, mem_entries_iff.mpr hentry, List.mem_flatMap.mpr ⟨method, hmethod, ?_⟩⟩
      rcases href with rfl | rfl
      · exact List.mem_cons_self
      · exact List.mem_cons_of_mem _ List.mem_cons_self

theorem isWellFormed_iff :
    schema.IsWellFormed ↔
      WellNamed schema.entries ∧ ∀ reference ∈ schema.references, schema.Satisfies reference.2.1 reference.2.2 := by
  constructor
  · intro h
    refine ⟨wellNamed_entries_iff.mpr ⟨h.fileNames, h.distinctFiles, h.typeNames, h.distinctTypes⟩, ?_⟩
    intro reference hreference
    rcases mem_references.mp hreference with
      ⟨name, file, parent, message, hentry, field, hfield, rfl | ⟨key, hkey, rfl⟩⟩ |
      ⟨name, file, parent, service, hentry, method, hmethod, rfl | rfl⟩
    · exact h.fieldTypes name file parent message hentry field hfield
    · exact h.mapKeys name file parent message hentry field hfield key hkey
    · exact (h.methodTypes name file parent service hentry method hmethod).1
    · exact (h.methodTypes name file parent service hentry method hmethod).2
  · rintro ⟨hnamed, hreferences⟩
    obtain ⟨hfiles, hdistinctFiles, htypes, hdistinctTypes⟩ := wellNamed_entries_iff.mp hnamed
    refine ⟨hfiles, hdistinctFiles, htypes, hdistinctTypes, ?_, ?_, ?_⟩
    · intro name file parent message hentry field hfield
      exact hreferences _ (mem_references.mpr (.inl ⟨name, file, parent, message, hentry, field, hfield, .inl rfl⟩))
    · intro name file parent message hentry field hfield key hkey
      exact hreferences _ (mem_references.mpr
        (.inl ⟨name, file, parent, message, hentry, field, hfield, .inr ⟨key, hkey, rfl⟩⟩))
    · intro name file parent service hentry method hmethod
      exact ⟨hreferences _ (mem_references.mpr
          (.inr ⟨name, file, parent, service, hentry, method, hmethod, .inl rfl⟩)),
        hreferences _ (mem_references.mpr
          (.inr ⟨name, file, parent, service, hentry, method, hmethod, .inr rfl⟩))⟩

end Schema

/-! ### The outcome -/

namespace Registry

variable {schema : Schema} {registry : Registry} {error : SchemaError}

theorem isConsistent_empty : IsConsistent {} := ⟨isIndexed_empty, WellNamed.nil⟩

/-- All entries of a schema can be registered exactly if they are well named. -/
theorem addDeclarations_eq_ok_iff :
    schema.files.foldlM addDeclarations {} = .ok registry ↔ WellNamed schema.entries ∧ registry = ofEntries schema.entries := by
  rw [addDeclarations_files, isConsistent_empty.addAll_eq_ok_iff, List.nil_append]
  rfl

theorem build_eq_ok_iff : build schema = .ok registry ↔ schema.IsWellFormed ∧ registry = ofEntries schema.entries := by
  rw [build, Schema.isWellFormed_iff, bind_eq_ok_iff]
  constructor
  · rintro ⟨added, hadd, hrest⟩
    obtain ⟨hnamed, rfl⟩ := addDeclarations_eq_ok_iff.mp hadd
    obtain ⟨_, hcheck, hpure⟩ := bind_eq_ok_iff.mp hrest
    refine ⟨⟨hnamed, fun reference hreference => ?_⟩, (Except.ok.inj hpure).symm⟩
    rw [← Schema.meets_iff (entries_ofEntries _) (isConsistent_ofEntries hnamed)]
    exact check_eq_ok_iff.mp hcheck reference (by rwa [entries_ofEntries])
  · rintro ⟨⟨hnamed, hreferences⟩, rfl⟩
    refine ⟨_, addDeclarations_eq_ok_iff.mpr ⟨hnamed, rfl⟩, bind_eq_ok_iff.mpr ⟨(), ?_, rfl⟩⟩
    refine check_eq_ok_iff.mpr fun reference hreference => ?_
    rw [entries_ofEntries] at hreference
    rw [Schema.meets_iff (entries_ofEntries _) (isConsistent_ofEntries hnamed)]
    exact hreferences reference hreference

theorem check_ofEntries_eq_error_iff (hnamed : WellNamed schema.entries) :
    check (ofEntries schema.entries) = .error error ↔
      ∃ passed referrer typeName requirement rest, schema.references = passed ++ (referrer, typeName, requirement) :: rest ∧
        (∀ reference ∈ passed, schema.Satisfies reference.2.1 reference.2.2) ∧ ¬ schema.Satisfies typeName requirement ∧
        error = .unresolvedType typeName referrer := by
  simp only [check_eq_error_iff, entries_ofEntries, Schema.references,
    Schema.meets_iff (entries_ofEntries _) (isConsistent_ofEntries hnamed)]

theorem build_eq_error_iff : build schema = .error error ↔ schema.Refuses error := by
  rw [build, bind_eq_error_iff]
  constructor
  · rintro (hadd | ⟨added, hadd, hrest⟩)
    · rw [addDeclarations_files] at hadd
      obtain ⟨passed, entry, rest, hwalk, hpassed, hrefused⟩ := isConsistent_empty.addAll_eq_error_iff.mp hadd
      exact .name hwalk hpassed hrefused
    · obtain ⟨hnamed, rfl⟩ := addDeclarations_eq_ok_iff.mp hadd
      obtain hcheck | ⟨_, -, hpure⟩ := bind_eq_error_iff.mp hrest
      · obtain ⟨passed, referrer, typeName, requirement, rest, hwalk, hpassed, hunmet, rfl⟩ :=
          (check_ofEntries_eq_error_iff hnamed).mp hcheck
        exact .reference hnamed hwalk hpassed hunmet
      · cases hpure
  · intro h
    cases h with
    | name hwalk hpassed hrefused =>
      rw [addDeclarations_files]
      exact .inl (isConsistent_empty.addAll_eq_error_iff.mpr ⟨_, _, _, hwalk, hpassed, hrefused⟩)
    | reference hnamed hwalk hpassed hunmet =>
      refine .inr ⟨_, addDeclarations_eq_ok_iff.mpr ⟨hnamed, rfl⟩, bind_eq_error_iff.mpr (.inl ?_)⟩
      exact (check_ofEntries_eq_error_iff hnamed).mpr ⟨_, _, _, _, _, hwalk, hpassed, hunmet, rfl⟩

/-- A schema is registered exactly if it is well formed. The registry then holds the walk over its
declarations, in which each declaration stands once; otherwise the error is that of the first name
refused, or else of the first reference without a meaning. -/
theorem build_outcome (schema : Schema) :
    (∀ registry, build schema = .ok registry ↔ schema.IsWellFormed ∧ registry = ofEntries schema.entries) ∧
      (∀ error, build schema = .error error ↔ schema.Refuses error) ∧
      (ofEntries schema.entries).entries = schema.entries ∧
      (∀ entry, entry ∈ schema.entries ↔ schema.Declares entry) ∧
      (schema.IsWellFormed → schema.entries.Pairwise fun a b => ¬ a.Clashes b) :=
  ⟨fun _ => build_eq_ok_iff, fun _ => build_eq_error_iff, entries_ofEntries _, fun _ => Schema.mem_entries_iff,
    fun hschema => (Schema.isWellFormed_iff.mp hschema).1.distinct⟩

theorem entries_of_build (h : build schema = .ok registry) : registry.entries = schema.entries := by
  rw [(build_eq_ok_iff.mp h).2, entries_ofEntries]

theorem isConsistent_of_build (h : build schema = .ok registry) : registry.IsConsistent := by
  obtain ⟨hschema, rfl⟩ := build_eq_ok_iff.mp h
  exact isConsistent_ofEntries (Schema.isWellFormed_iff.mp hschema).1

/-- Each entry is listed under the kind of its declaration. -/
theorem kind_eq_of_build (h : build schema = .ok registry) {entry : Entry} (hentry : entry ∈ registry.entries) :
    entry.kind = entry.declaration.kind := by
  rw [entries_of_build h] at hentry
  exact (Schema.mem_entries_iff.mp hentry).kind_eq

end Registry

theorem wellNamed_of_build {schema : Schema} {registry : Registry} (hregistry : Registry.build schema = .ok registry) :
    WellNamed registry.entries := (Registry.isConsistent_of_build hregistry).named

end SchemaDocs
