import SchemaDocs.Proofs.Schema.Names

/-!
# The indices of a registry

A registry keeps the position of each name in one of two indices, apart from its entries. It is indexed if
an index says of a name what a search through the entries would find; then a look-up is such a search. Adding
an entry with a new name keeps a registry indexed, so that it is indexed whatever is added to it.
-/

namespace SchemaDocs

namespace Entry

def isNamed (name : String) (entry : Entry) : Bool := entry.kind ≠ .proto && entry.qualifiedName = name

def isFile (name : String) (entry : Entry) : Bool := entry.kind = .proto && entry.qualifiedName = name

theorem isNamed_iff {name : String} {entry : Entry} :
    entry.isNamed name ↔ entry.kind ≠ .proto ∧ entry.qualifiedName = name := by
  rw [isNamed, Bool.and_eq_true, decide_eq_true_eq, decide_eq_true_eq]

theorem isFile_iff {name : String} {entry : Entry} :
    entry.isFile name ↔ entry.kind = .proto ∧ entry.qualifiedName = name := by
  rw [isFile, Bool.and_eq_true, decide_eq_true_eq, decide_eq_true_eq]

end Entry

namespace Registry

variable {registry : Registry} {entry : Entry} {name : String}

theorem mem_of_get? (h : registry.get? name = some entry) : entry ∈ registry.entries := by
  obtain ⟨position, -, hentry⟩ := Option.bind_eq_some_iff.mp h
  exact List.mem_of_getElem? hentry

/-- The indices lead from each name to the first entry that has it. -/
structure IsIndexed (registry : Registry) : Prop where
  byName : ∀ name, registry.byName.lookup name = registry.entries.findIdx? (Entry.isNamed name)
  byFile : ∀ name, registry.byFile.lookup name = registry.entries.findIdx? (Entry.isFile name)

theorem IsIndexed.get?_eq (h : registry.IsIndexed) (name : String) :
    registry.get? name = registry.entries.find? (Entry.isNamed name) := by
  rw [get?, h.byName, List.find?_eq_bind_findIdx?_getElem?]

theorem IsIndexed.file?_eq (h : registry.IsIndexed) (name : String) :
    registry.file? name = registry.entries.find? (Entry.isFile name) := by
  rw [file?, h.byFile, List.find?_eq_bind_findIdx?_getElem?]

theorem isIndexed_empty : IsIndexed {} := ⟨fun _ => rfl, fun _ => rfl⟩

/-! ### Entries one by one -/

/-- The registry with one more entry, whose position is kept in the index of its namespace. -/
def push (registry : Registry) (entry : Entry) : Registry :=
  if entry.kind = .proto then
    { registry with
      entries := registry.entries ++ [entry]
      byFile := (entry.qualifiedName, registry.entries.length) :: registry.byFile }
  else
    { registry with
      entries := registry.entries ++ [entry]
      byName := (entry.qualifiedName, registry.entries.length) :: registry.byName }

@[simp] theorem entries_push (registry : Registry) (entry : Entry) :
    (registry.push entry).entries = registry.entries ++ [entry] := by
  rw [push]
  split <;> rfl

/-- An index that is searched from its newest name on finds what a search through all entries finds, as long
as the newest one stands there alone. -/
private theorem lookup_cons_eq {index : List (String × Nat)} {entries : List Entry} {p : String → Entry → Bool}
    (hindex : ∀ name, index.lookup name = entries.findIdx? (p name)) (hentry : ∀ name, p name entry ↔ entry.qualifiedName = name)
    (hnew : ∀ other ∈ entries, ¬ p entry.qualifiedName other) (name : String) :
    ((entry.qualifiedName, entries.length) :: index).lookup name = (entries ++ [entry]).findIdx? (p name) := by
  rw [List.findIdx?_append, List.lookup_cons]
  by_cases hname : name = entry.qualifiedName
  · subst hname
    have hnone : entries.findIdx? (p entry.qualifiedName) = none := by
      rw [List.findIdx?_eq_none_iff]
      exact fun other hother => Bool.eq_false_iff.mpr (hnew other hother)
    have hself : p entry.qualifiedName entry = true := (hentry _).mpr rfl
    simp [hnone, hself]
  · have hother : p name entry = false := Bool.eq_false_iff.mpr fun h => hname ((hentry name).mp h).symm
    have hkey : (name == entry.qualifiedName) = false := beq_eq_false_iff_ne.mpr hname
    simp [hkey, hother, hindex]

/-- An index that a new entry does not go to finds what it has found before. -/
private theorem findIdx?_concat_of_false {entries : List Entry} {p : Entry → Bool} (h : p entry = false) :
    (entries ++ [entry]).findIdx? p = entries.findIdx? p := by
  simp [List.findIdx?_append, h]

theorem IsIndexed.push (h : registry.IsIndexed) (hnew : ∀ other ∈ registry.entries, ¬ other.Clashes entry) :
    (registry.push entry).IsIndexed := by
  rw [Registry.push]
  split
  · rename_i hkind
    constructor
    · intro name
      rw [findIdx?_concat_of_false (by simp [Entry.isNamed, hkind])]
      exact h.byName name
    · refine lookup_cons_eq h.byFile (fun name => ?_) fun other hother hclash => hnew other hother ?_
      · rw [Entry.isFile_iff, and_iff_right hkind]
      · obtain ⟨hother, hname⟩ := Entry.isFile_iff.mp hclash
        exact ⟨iff_of_true hother hkind, hname⟩
  · rename_i hkind
    constructor
    · refine lookup_cons_eq h.byName (fun name => ?_) fun other hother hclash => hnew other hother ?_
      · rw [Entry.isNamed_iff, and_iff_right hkind]
      · obtain ⟨hother, hname⟩ := Entry.isNamed_iff.mp hclash
        exact ⟨iff_of_false hother hkind, hname⟩
    · intro name
      rw [findIdx?_concat_of_false (by simp [Entry.isFile, hkind])]
      exact h.byFile name

/-! ### Any number of entries -/

def pushAll (registry : Registry) (entries : List Entry) : Registry := entries.foldl push registry

def ofEntries (entries : List Entry) : Registry := pushAll {} entries

@[simp] theorem entries_pushAll (registry : Registry) (entries : List Entry) :
    (registry.pushAll entries).entries = registry.entries ++ entries := by
  induction entries generalizing registry with
  | nil => rw [List.append_nil]; rfl
  | cons entry entries ih =>
    rw [List.append_cons, ← entries_push]
    exact ih _

@[simp] theorem entries_ofEntries (entries : List Entry) : (ofEntries entries).entries = entries := by
  rw [ofEntries, entries_pushAll, List.nil_append]

private theorem IsIndexed.pushAll (h : registry.IsIndexed) {entries : List Entry}
    (hdistinct : (registry.entries ++ entries).Pairwise fun a b => ¬ a.Clashes b) : (registry.pushAll entries).IsIndexed := by
  induction entries generalizing registry with
  | nil => exact h
  | cons entry entries ih =>
    rw [List.append_cons] at hdistinct
    have hnew := (List.pairwise_append.mp (List.pairwise_append.mp hdistinct).1).2.2
    rw [← entries_push] at hdistinct
    exact ih (h.push fun other hother => hnew other hother entry List.mem_cons_self) hdistinct

private theorem isIndexed_ofEntries {entries : List Entry} (hnamed : WellNamed entries) :
    (ofEntries entries).IsIndexed :=
  isIndexed_empty.pushAll hnamed.distinct

/-- A registry whose names are valid and distinct, with indices that lead to them. -/
structure IsConsistent (registry : Registry) : Prop extends registry.IsIndexed where
  named : WellNamed registry.entries

theorem isConsistent_ofEntries {entries : List Entry} (hnamed : WellNamed entries) :
    (ofEntries entries).IsConsistent where
  toIsIndexed := isIndexed_ofEntries hnamed
  named := by rwa [entries_ofEntries]

end Registry

end SchemaDocs
