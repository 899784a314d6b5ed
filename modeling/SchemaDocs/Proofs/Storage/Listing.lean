import SchemaDocs.Proofs.Storage.Growth
import SchemaDocs.Proofs.Text.Bytes
import Mathlib.Data.String.Basic

/-!
# Listings

A directory is listed in the order of names, and no two of its entries have one name. Then the files below
it are listed in the order of their places, name by name, which is not that of their paths: a directory `a`
stands before a file `a-b`, with all that is below it. A listed tree is known by what stands at each place,
and stays listed when directories are made or files are written.
-/

namespace SchemaDocs.Tree

mutual

/-- All directories of a tree are listed in the order of names. -/
def IsListed : Tree → Prop
  | .file _ => True
  | .directory entries => AreListed entries

def AreListed : List (String × Tree) → Prop
  | [] => True
  | (name, tree) :: entries => (∀ entry ∈ entries, name < entry.1) ∧ tree.IsListed ∧ AreListed entries

end

theorem lookup_eq_none {name : String} {entries : List (String × Tree)} (h : ∀ entry ∈ entries, name < entry.1) :
    entries.lookup name = none := by
  rw [List.lookup_eq_none_iff]
  intro entry hentry
  rw [bne_iff_ne]
  exact (h entry hentry).ne

theorem exists_entry_of_mem_entryFiles {entries : List (String × Tree)} {place : List String} {content : ByteArray}
    (h : (place, content) ∈ entryFiles entries) : ∃ entry ∈ entries, ∃ below, place = entry.1 :: below := by
  induction entries with
  | nil => cases h
  | cons entry entries ih =>
    obtain ⟨name, tree⟩ := entry
    rw [entryFiles, List.mem_append, List.mem_map] at h
    rcases h with ⟨file, -, hfile⟩ | h
    · exact ⟨(name, tree), List.mem_cons_self, file.1, (Prod.mk.inj hfile).1.symm⟩
    · obtain ⟨entry, hentry, hbelow⟩ := ih h
      exact ⟨entry, List.mem_cons_of_mem _ hentry, hbelow⟩

mutual

theorem mem_files_iff {tree : Tree} {place : List String} {content : ByteArray} (h : tree.IsListed) :
    (place, content) ∈ tree.files ↔ tree.get? place = some (.file content) := by
  cases tree with
  | file other => cases place <;> simp [files, get?, eq_comm]
  | directory entries => exact mem_entryFiles_iff h

theorem mem_entryFiles_iff {entries : List (String × Tree)} {place : List String} {content : ByteArray}
    (h : AreListed entries) :
    (place, content) ∈ entryFiles entries ↔ (Tree.directory entries).get? place = some (.file content) := by
  cases entries with
  | nil => cases place <;> simp [entryFiles, get?]
  | cons entry entries =>
    obtain ⟨name, tree⟩ := entry
    obtain ⟨hfirst, htree, hrest⟩ := h
    have ihtree (below : List String) : (below, content) ∈ tree.files ↔ tree.get? below = some (.file content) :=
      mem_files_iff htree
    rw [entryFiles, List.mem_append, mem_entryFiles_iff hrest]
    cases place with
    | nil => simp [get?]
    | cons other place =>
      rw [get?, get?, lookup_cons]
      by_cases hother : other = name
      · subst hother
        rw [if_pos rfl, lookup_eq_none hfirst]
        simp [ihtree]
      · simp [hother, Ne.symm hother]

end

/-! ### The order of files -/

/-- A file stands before another in the order of places, name by name and byte by byte. -/
def Precedes (left right : List String × ByteArray) : Prop := left.1.map Text.bytes < right.1.map Text.bytes

instance : Std.Irrefl Precedes := ⟨fun _ => List.lt_irrefl _⟩

instance : Std.Antisymm Precedes := ⟨fun _ _ hlt hgt => absurd (List.lt_trans hlt hgt) (List.lt_irrefl _)⟩

mutual

theorem pairwise_files {tree : Tree} (h : tree.IsListed) : tree.files.Pairwise Precedes := by
  cases tree with
  | file content => exact List.pairwise_singleton _ _
  | directory entries => exact pairwise_entryFiles h

theorem pairwise_entryFiles {entries : List (String × Tree)} (h : AreListed entries) :
    (entryFiles entries).Pairwise Precedes := by
  cases entries with
  | nil => exact .nil
  | cons entry entries =>
    obtain ⟨name, tree⟩ := entry
    obtain ⟨hfirst, htree, hrest⟩ := h
    rw [entryFiles, List.pairwise_append, List.pairwise_map]
    refine ⟨(pairwise_files htree).imp fun hlt => List.cons_lt_cons_iff.mpr (.inr ⟨rfl, hlt⟩),
      pairwise_entryFiles hrest, fun left hleft right hright => ?_⟩
    -- A file below one entry stands before those below the next ones by the first name alone.
    obtain ⟨file, -, rfl⟩ := List.mem_map.mp hleft
    obtain ⟨other, hother, below, hbelow⟩ := exists_entry_of_mem_entryFiles hright
    rw [Precedes, hbelow]
    exact List.cons_lt_cons_iff.mpr (.inl (Text.bytes_lt_bytes (hfirst other hother)))

end

/-! ### What listed trees hold -/

private theorem bareAt?_cons (name other : String) (tree : Tree) (entries : List (String × Tree)) (place : List String) :
    (Tree.directory ((name, tree) :: entries)).bareAt? (other :: place) =
      if other = name then tree.bareAt? place else (Tree.directory entries).bareAt? (other :: place) := by
  rw [bareAt?, get?, lookup_cons]
  split <;> rfl

private theorem bareAt?_eq_none {name : String} {entries : List (String × Tree)} (h : ∀ entry ∈ entries, name < entry.1)
    (place : List String) : (Tree.directory entries).bareAt? (name :: place) = none := by
  rw [bareAt?, get?, lookup_eq_none h]
  rfl

private theorem le_of_bareAt? {name other : String} {tree held : Tree} {entries others : List (String × Tree)}
    (hothers : ∀ entry ∈ others, other < entry.1)
    (h : ∀ place, (Tree.directory ((name, tree) :: entries)).bareAt? place =
      (Tree.directory ((other, held) :: others)).bareAt? place) : other ≤ name := by
  refine le_of_not_gt fun hlt => ?_
  have hname := h [name]
  rw [bareAt?_cons, if_pos rfl, bareAt?_cons, if_neg hlt.ne,
    bareAt?_eq_none fun entry hentry => hlt.trans (hothers entry hentry)] at hname
  cases hname

mutual

/-- A listed tree is known by what stands at its places. -/
theorem eq_of_bareAt? {tree other : Tree} (htree : tree.IsListed) (hother : other.IsListed)
    (h : ∀ place, tree.bareAt? place = other.bareAt? place) : tree = other := by
  cases tree with
  | file content =>
    cases other with
    | file held => exact Option.some.inj (h [])
    | directory others => cases h []
  | directory entries =>
    cases other with
    | file held => cases h []
    | directory others => rw [entries_eq_of_bareAt? htree hother h]

theorem entries_eq_of_bareAt? {entries others : List (String × Tree)} (hentries : AreListed entries)
    (hothers : AreListed others) (h : ∀ place, (Tree.directory entries).bareAt? place = (Tree.directory others).bareAt? place) :
    entries = others := by
  cases entries with
  | nil =>
    cases others with
    | nil => rfl
    | cons entry others =>
      have hname := h [entry.1]
      rw [bareAt?_cons, if_pos rfl] at hname
      cases hname
  | cons entry entries =>
    obtain ⟨name, tree⟩ := entry
    obtain ⟨hfirst, htree, hentries⟩ := hentries
    cases others with
    | nil =>
      have hname := h [name]
      rw [bareAt?_cons, if_pos rfl] at hname
      cases hname
    | cons entry others =>
      obtain ⟨other, held⟩ := entry
      obtain ⟨hfirstOther, hheld, hothers⟩ := hothers
      obtain rfl : name = other := le_antisymm (le_of_bareAt? hfirst fun place => (h place).symm) (le_of_bareAt? hfirstOther h)
      have hsame : tree = held := eq_of_bareAt? htree hheld fun place => by
        have hplace := h (name :: place)
        rwa [bareAt?_cons, bareAt?_cons, if_pos rfl, if_pos rfl] at hplace
      have hrest : entries = others := entries_eq_of_bareAt? hentries hothers fun place => by
        cases place with
        | nil => rfl
        | cons next place =>
          have hplace := h (next :: place)
          rw [bareAt?_cons, bareAt?_cons] at hplace
          split at hplace
          · rename_i hnext
            rw [hnext, bareAt?_eq_none hfirst, bareAt?_eq_none hfirstOther]
          · exact hplace
      rw [hsame, hrest]

end

/-! ### Files that are written are listed -/

private theorem isListed_of_lookup {name : String} {tree : Tree} {entries : List (String × Tree)} (h : AreListed entries)
    (hlookup : entries.lookup name = some tree) : tree.IsListed := by
  induction entries with
  | nil => cases hlookup
  | cons entry entries ih =>
    obtain ⟨other, first⟩ := entry
    obtain ⟨-, hfirst, hrest⟩ := h
    rw [lookup_cons] at hlookup
    split at hlookup
    · exact Option.some.inj hlookup ▸ hfirst
    · exact ih hrest hlookup

private theorem mem_putEntry {name : String} {new : Tree} {entries : List (String × Tree)} {entry : String × Tree}
    (h : entry ∈ putEntry name new entries) : entry = (name, new) ∨ entry ∈ entries := by
  induction entries with
  | nil => exact .inl (List.mem_singleton.mp h)
  | cons first entries ih =>
    obtain ⟨other, tree⟩ := first
    rw [putEntry] at h
    split at h
    · exact List.mem_cons.mp h
    · split at h
      · exact (List.mem_cons.mp h).imp_right (List.mem_cons_of_mem _)
      · rcases List.mem_cons.mp h with rfl | h
        · exact .inr List.mem_cons_self
        · exact (ih h).imp_right (List.mem_cons_of_mem _)

private theorem areListed_putEntry {name : String} {new : Tree} {entries : List (String × Tree)} (hnew : new.IsListed)
    (h : AreListed entries) : AreListed (putEntry name new entries) := by
  induction entries with
  | nil => exact ⟨List.forall_mem_nil _, hnew, trivial⟩
  | cons entry entries ih =>
    obtain ⟨other, tree⟩ := entry
    obtain ⟨hfirst, htree, hrest⟩ := h
    rw [putEntry]
    split
    · rename_i hlt
      have hbehind : ∀ entry ∈ entries, name < entry.1 := fun entry hentry => hlt.trans (hfirst entry hentry)
      exact ⟨List.forall_mem_cons.mpr ⟨hlt, hbehind⟩, hnew, hfirst, htree, hrest⟩
    · rename_i hle
      split
      · rename_i hname
        exact ⟨hname ▸ hfirst, hnew, hrest⟩
      · rename_i hne
        refine ⟨fun entry hentry => ?_, htree, ih hrest⟩
        rcases mem_putEntry hentry with rfl | hentry
        · exact lt_of_le_of_ne (not_lt.mp hle) (Ne.symm hne)
        · exact hfirst entry hentry

private theorem isListed_put {root new : Tree} {place : List String} (hroot : root.IsListed) (hnew : new.IsListed) :
    (root.put place new).IsListed := by
  induction place generalizing root with
  | nil => rwa [put]
  | cons name place ih =>
    cases root with
    | file content => exact trivial
    | directory entries =>
      rw [put]
      refine areListed_putEntry (ih ?_) hroot
      cases hlookup : entries.lookup name with
      | none => exact trivial
      | some sub => exact isListed_of_lookup hroot hlookup

theorem isKept_isListed : FileSystem.IsKept fun fs => fs.root.IsListed where
  createDirectory h hcreated := by
    obtain ⟨-, place, -, -, rfl⟩ := FileSystem.createDirectory_eq_ok_iff.mp hcreated
    exact isListed_put h trivial
  write h hwritten := by
    obtain ⟨place, -, hwritten⟩ := bind_eq_ok_iff.mp hwritten
    split at hwritten
    · cases hwritten
    · obtain rfl := Except.ok.inj hwritten
      exact isListed_put h trivial

end SchemaDocs.Tree
