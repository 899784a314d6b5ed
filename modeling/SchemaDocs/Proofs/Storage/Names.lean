import SchemaDocs.Proofs.Storage.Growth

/-!
# The names in a tree of files

A file system in which all files and directories have names that they can have stays one, since a
path that leads somewhere has parted at its slashes before a name is given to anything.
-/

namespace SchemaDocs

/-- A name that a file or a directory can have: it is not empty and does not part a path. -/
structure IsEntryName (name : String) : Prop where
  ne_empty : name ≠ ""
  slash_not_mem : '/' ∉ name.toList

namespace Tree

variable {root new : Tree} {place : List String} {entries : List (String × Tree)} {name : String}

mutual

/-- All files and directories below a tree have names that they can have. -/
def IsNamed : Tree → Prop
  | .file _ => True
  | .directory entries => AreNamed entries

def AreNamed : List (String × Tree) → Prop
  | [] => True
  | (name, tree) :: entries => IsEntryName name ∧ tree.IsNamed ∧ AreNamed entries

end

private theorem isNamed_of_lookup (h : AreNamed entries) {tree : Tree} (hlookup : entries.lookup name = some tree) :
    IsEntryName name ∧ tree.IsNamed := by
  induction entries with
  | nil => cases hlookup
  | cons entry entries ih =>
    obtain ⟨other, first⟩ := entry
    obtain ⟨hother, hfirst, hrest⟩ := h
    rw [lookup_cons] at hlookup
    split at hlookup
    · rename_i hname
      exact ⟨hname ▸ hother, Option.some.inj hlookup ▸ hfirst⟩
    · exact ih hrest hlookup

theorem isNamed_of_get? {tree : Tree} (h : root.IsNamed) (hget : root.get? place = some tree) :
    (∀ name ∈ place, IsEntryName name) ∧ tree.IsNamed := by
  induction place generalizing root with
  | nil =>
    rw [get?_nil] at hget
    exact ⟨fun _ hname => absurd hname List.not_mem_nil, Option.some.inj hget ▸ h⟩
  | cons name place ih =>
    cases root with
    | file content => cases hget
    | directory entries =>
      obtain ⟨next, hlookup, hget⟩ := Option.bind_eq_some_iff.mp hget
      obtain ⟨hname, hnext⟩ := isNamed_of_lookup h hlookup
      obtain ⟨hplace, htree⟩ := ih hnext hget
      exact ⟨List.forall_mem_cons.mpr ⟨hname, hplace⟩, htree⟩

mutual

theorem names_of_mem_files {tree : Tree} {place : List String} {content : ByteArray} (htree : tree.IsNamed)
    (h : (place, content) ∈ tree.files) : ∀ name ∈ place, IsEntryName name := by
  cases tree with
  | file held =>
    obtain ⟨rfl, -⟩ := Prod.mk.inj (List.mem_singleton.mp h)
    exact List.forall_mem_nil _
  | directory entries => exact names_of_mem_entryFiles htree h

theorem names_of_mem_entryFiles {entries : List (String × Tree)} {place : List String} {content : ByteArray}
    (hentries : AreNamed entries) (h : (place, content) ∈ entryFiles entries) : ∀ name ∈ place, IsEntryName name := by
  cases entries with
  | nil => cases h
  | cons entry entries =>
    obtain ⟨name, tree⟩ := entry
    obtain ⟨hname, htree, hrest⟩ := hentries
    rw [entryFiles, List.mem_append, List.mem_map] at h
    rcases h with ⟨⟨below, held⟩, hfile, hplace⟩ | h
    · obtain ⟨rfl, rfl⟩ := Prod.mk.inj hplace
      exact List.forall_mem_cons.mpr ⟨hname, names_of_mem_files htree hfile⟩
    · exact names_of_mem_entryFiles hrest h

end

private theorem areNamed_putEntry (hname : IsEntryName name) (hnew : new.IsNamed) (h : AreNamed entries) :
    AreNamed (putEntry name new entries) := by
  induction entries with
  | nil => exact ⟨hname, hnew, trivial⟩
  | cons entry entries ih =>
    obtain ⟨other, first⟩ := entry
    obtain ⟨hother, hfirst, hrest⟩ := h
    rw [putEntry]
    split
    · exact ⟨hname, hnew, hother, hfirst, hrest⟩
    · split
      · exact ⟨hname, hnew, hrest⟩
      · exact ⟨hother, hfirst, ih hrest⟩

private theorem isNamed_put (hroot : root.IsNamed) (hplace : ∀ name ∈ place, IsEntryName name) (hnew : new.IsNamed) :
    (root.put place new).IsNamed := by
  induction place generalizing root with
  | nil => rwa [put]
  | cons name place ih =>
    obtain ⟨hname, hplace⟩ := List.forall_mem_cons.mp hplace
    cases root with
    | file content => exact trivial
    | directory entries =>
      rw [put]
      refine areNamed_putEntry hname (ih ?_ hplace) hroot
      cases hlookup : entries.lookup name with
      | none => exact trivial
      | some sub => exact (isNamed_of_lookup hroot hlookup).2

end Tree

namespace FileSystem

open SchemaDocs.Tree (isNamed_put isNamed_of_get?)

variable {fs next : FileSystem} {place result names : List String} {path : String} {content : ByteArray}

private theorem names_of_directory (h : fs.root.IsNamed) (hplace : fs.root.bareAt? place = some (.directory [])) :
    ∀ name ∈ place, IsEntryName name := by
  obtain ⟨entries, hget⟩ := Tree.bareAt?_eq_directory_iff.mp hplace
  exact (isNamed_of_get? h hget).1

private theorem names_of_follow (h : fs.root.IsNamed) (hplace : (∀ name ∈ place, IsEntryName name) ∨ names ≠ [])
    (hnames : ∀ name ∈ names, '/' ∉ name.toList) (hfollow : follow fs.root place names = .ok result) :
    ∀ name ∈ result, IsEntryName name := by
  induction names generalizing place with
  | nil =>
    obtain rfl := Except.ok.inj hfollow
    exact hplace.resolve_right (· rfl)
  | cons name names ih =>
    obtain ⟨hslash, hnames⟩ := List.forall_mem_cons.mp hnames
    obtain ⟨hdirectory, -, hfollow⟩ := follow_cons_eq_ok_iff.mp hfollow
    have hplace := names_of_directory h hdirectory
    refine ih (.inl fun other hother => ?_) hnames hfollow
    rw [enter] at hother
    split at hother
    · exact hplace other hother
    · rename_i hname
      split at hother
      · exact hplace other (List.dropLast_subset _ hother)
      · rcases List.mem_append.mp hother with hother | hother
        · exact hplace other hother
        · obtain rfl := List.mem_singleton.mp hother
          exact ⟨fun hempty => hname (by simp [hempty]), hslash⟩

private theorem names_of_locate (h : fs.root.IsNamed) (hplace : fs.locate path = .ok place) :
    ∀ name ∈ place, IsEntryName name :=
  names_of_follow h (.inr (Text.pieces_ne_nil '/' path)) (fun _ => Text.not_mem_of_mem_pieces) (follow_of_locate hplace)

theorem isNamed_of_find (h : fs.root.IsNamed) {tree : Tree} (hfind : fs.find path = .ok tree) : tree.IsNamed := by
  rw [find] at hfind
  obtain ⟨place, -, hplace⟩ := bind_eq_ok_iff.mp hfind
  split at hplace
  · rename_i found hget
    obtain rfl := Except.ok.inj hplace
    exact (isNamed_of_get? h hget).2
  · cases hplace

theorem isKept_isNamed : IsKept fun fs => fs.root.IsNamed where
  createDirectory h hcreated := by
    obtain ⟨-, place, hplace, -, rfl⟩ := createDirectory_eq_ok_iff.mp hcreated
    exact isNamed_put h (names_of_locate h hplace) trivial
  write h hwritten := by
    obtain ⟨place, hplace, hwritten⟩ := bind_eq_ok_iff.mp hwritten
    split at hwritten
    · cases hwritten
    · obtain rfl := Except.ok.inj hwritten
      exact isNamed_put h (names_of_locate h hplace) trivial

end FileSystem

end SchemaDocs
