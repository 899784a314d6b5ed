import SchemaDocs.Proofs.Storage.Below
import SchemaDocs.Proofs.Storage.Ways

/-!
# Files that are added

Where files are written at places that are apart, each of them is read as it was written, all directories stay, and
every other path leads where it led before. What is made on the way of a path are directories, so that behind it
nothing is exactly where nothing was.
-/

namespace SchemaDocs

namespace FileSystem

variable {fs middle next : FileSystem} {path other text : String} {place : List String}
  {file : String × String} {files : List (String × String)}

/-! ### Writing files that are apart -/

theorem contains_iff :
    fs.contains path = true ↔ ∃ place, fs.locate path = .ok place ∧ fs.root.bareAt? place ≠ none := by
  rw [contains, find]
  cases hplace : fs.locate path with
  | error error => simp [bind, Except.bind, Except.toOption]
  | ok place =>
    simp only [bind, Except.bind, Except.ok.injEq, exists_eq_left', Ne, Tree.bareAt?_eq_none_iff]
    cases fs.root.get? place <;> simp [Except.toOption]

theorem contains_of_read {content : ByteArray} (h : fs.read path = .ok content) : fs.contains path = true := by
  obtain ⟨place, hplace, hcontent⟩ := read_eq_ok_iff.mp h
  exact contains_iff.mpr ⟨place, hplace, by simp [hcontent]⟩

theorem placeOf_eq (hworking : next.workingDirectory = fs.workingDirectory) (path : String) :
    next.placeOf path = fs.placeOf path := by
  rw [placeOf, placeOf, start, start, hworking]

/-- Files have been written where their paths lead, and nothing else has changed. -/
structure Adds (fs next : FileSystem) (files : List (String × String)) : Prop where
  workingDirectory : next.workingDirectory = fs.workingDirectory
  bareAt : ∀ place, (∀ file ∈ files, place ≠ fs.placeOf file.1) → next.root.bareAt? place = fs.root.bareAt? place
  located : ∀ file ∈ files, fs.locate file.1 = .ok (fs.placeOf file.1) ∧
    fs.root.bareAt? (fs.placeOf file.1) ≠ some (.directory [])
  written : ∀ file ∈ files, next.root.bareAt? (fs.placeOf file.1) = some (.file file.2.toUTF8)

namespace Adds

theorem refl (fs : FileSystem) : fs.Adds fs [] := ⟨rfl, fun _ _ => rfl, by simp, by simp⟩

theorem directory_iff (h : fs.Adds next files) (place : List String) :
    next.root.bareAt? place = some (.directory []) ↔ fs.root.bareAt? place = some (.directory []) := by
  by_cases hplace : ∃ file ∈ files, place = fs.placeOf file.1
  · obtain ⟨file, hfile, rfl⟩ := hplace
    simp [h.written file hfile, (h.located file hfile).2]
  · rw [h.bareAt place fun file hfile hsame => hplace ⟨file, hfile, hsame⟩]

theorem locate_iff (h : fs.Adds next files) : next.locate path = .ok place ↔ fs.locate path = .ok place :=
  ⟨locate_mono h.workingDirectory.symm fun place => (h.directory_iff place).mp,
    locate_mono h.workingDirectory fun place => (h.directory_iff place).mpr⟩

theorem read (h : fs.Adds next files) (hfile : file ∈ files) : next.read file.1 = .ok file.2.toUTF8 :=
  read_eq_ok_iff.mpr ⟨_, h.locate_iff.mpr (h.located file hfile).1, h.written file hfile⟩

theorem alters (h : fs.Adds next files) : fs.Alters next (files.map fun file => fs.placeOf file.1) := by
  have hapart {place : List String} (hplace : place ∉ files.map fun file => fs.placeOf file.1) :
      next.root.bareAt? place = fs.root.bareAt? place := by
    refine h.bareAt place ?_
    rintro file hfile rfl
    exact hplace (List.mem_map_of_mem hfile)
  refine ⟨⟨h.workingDirectory, fun place tree htree hkept => ?_⟩, fun place content hfile hplace => hapart hplace ▸ hfile⟩
  rcases hkept with rfl | hplace
  · exact (h.directory_iff place).mpr htree
  · exact (hapart hplace).trans htree

theorem contains_eq (h : fs.Adds next files) (hpath : ∀ file ∈ files, fs.placeOf path ≠ fs.placeOf file.1) :
    next.contains path = fs.contains path := by
  rw [Bool.eq_iff_iff, contains_iff, contains_iff]
  refine exists_congr fun place => ?_
  rw [h.locate_iff]
  refine and_congr_right fun hplace => ?_
  rw [h.bareAt place (eq_placeOf_of_locate hplace ▸ hpath)]

theorem append {more : List (String × String)} (hfirst : fs.Adds middle files) (hsecond : middle.Adds next more)
    (hapart : ∀ file ∈ files, ∀ other ∈ more, fs.placeOf file.1 ≠ fs.placeOf other.1) : fs.Adds next (files ++ more) := by
  have hplaces := placeOf_eq hfirst.workingDirectory
  refine ⟨hsecond.workingDirectory.trans hfirst.workingDirectory, fun place hplace => ?_, ?_, ?_⟩
  · obtain ⟨hfiles, hmore⟩ := List.forall_mem_append.mp hplace
    rw [hsecond.bareAt place fun file hfile => hplaces file.1 ▸ hmore file hfile, hfirst.bareAt place hfiles]
  · refine List.forall_mem_append.mpr ⟨hfirst.located, fun file hfile => ?_⟩
    have hlocated := hsecond.located file hfile
    rwa [hplaces, hfirst.locate_iff, Ne, hfirst.directory_iff] at hlocated
  · refine List.forall_mem_append.mpr ⟨fun file hfile => ?_, fun file hfile => hplaces file.1 ▸ hsecond.written file hfile⟩
    rw [hsecond.bareAt _ fun other hother => hplaces other.1 ▸ hapart file hfile other hother]
    exact hfirst.written file hfile

end Adds

theorem adds_of_write (h : fs.write path text.toUTF8 = .ok next) : fs.Adds next [(path, text)] := by
  obtain ⟨place, hplace, hplain, hworking, hnext⟩ := bareAt?_of_write h
  obtain rfl := eq_placeOf_of_locate hplace
  refine ⟨hworking, fun other hother => ?_, List.forall_mem_singleton.mpr ⟨hplace, hplain⟩, List.forall_mem_singleton.mpr ?_⟩
  · rw [hnext, if_neg (hother _ List.mem_cons_self)]
  · rw [hnext, if_pos rfl]

/-- Another path does not lead to the file that a path leads to. -/
def Apart (fs : FileSystem) (path other : String) : Prop :=
  fs.locate path = .ok (fs.placeOf path) → fs.root.bareAt? (fs.placeOf path) ≠ some (.directory []) →
    fs.placeOf path ≠ fs.placeOf other

theorem Adds.apart (h : fs.Adds next files) (hapart : fs.Apart path other) : next.Apart path other := by
  have hplaces := placeOf_eq h.workingDirectory
  rwa [Apart, hplaces, hplaces, h.locate_iff, Ne, h.directory_iff]

/-! ### On the way of a path -/

/-- All that is on the way of a path to a directory is a directory. -/
theorem directory_of_passes (h : fs.isDirectory path = true) (hpasses : fs.Passes path place) :
    fs.root.bareAt? place = some (.directory []) := by
  obtain ⟨names, ⟨rest, hrest⟩, rfl⟩ := hpasses
  obtain ⟨last, hlast, hdirectory⟩ := isDirectory_iff.mp h
  have hfollow := follow_of_locate hlast
  rw [← hrest, follow_append] at hfollow
  obtain ⟨middle, hmiddle, hfollow⟩ := bind_eq_ok_iff.mp hfollow
  rw [← eq_walk_of_follow hmiddle]
  cases rest with
  | nil => rwa [Except.ok.inj hfollow]
  | cons name rest => exact (follow_cons_eq_ok_iff.mp hfollow).1

/-- Where directories have been made nothing is exactly where nothing was, but for the way of their path. -/
theorem vacant_iff_of_createDirectories (hne : path ≠ "") (h : fs.createDirectories path = (.ok (), middle)) :
    middle.root.bareAt? place = none ↔ fs.root.bareAt? place = none ∧ ¬ fs.Passes path place := by
  have hpaves := paves_createDirectories path fs
  rw [h] at hpaves
  have hdirectory := (isDirectory_of_createDirectories h).resolve_left hne
  constructor
  · intro hvacant
    rcases hpaves.bareAt place trivial with hsame | ⟨-, hmade, -⟩
    · refine ⟨hsame ▸ hvacant, fun hpasses => ?_⟩
      have hmade := directory_of_passes hdirectory (hpasses.of_workingDirectory hpaves.workingDirectory.symm)
      rw [hvacant] at hmade
      cases hmade
    · rw [hvacant] at hmade
      cases hmade
  · rintro ⟨hvacant, hway⟩
    rcases hpaves.bareAt place trivial with hsame | ⟨-, -, hpasses⟩
    · rw [hsame, hvacant]
    · exact absurd hpasses hway

/-- A path without two dots leads through places above the one that it leads to. -/
theorem prefix_of_passes (hdots : ∀ part ∈ Text.pieces '/' path, part ≠ "..") (h : fs.Passes path place) :
    place <+: fs.placeOf path := by
  obtain ⟨names, hnames, rfl⟩ := h
  rw [placeOf, walk_eq_append hdots, walk_eq_append fun name hname => hdots name (hnames.subset hname)]
  exact (List.prefix_append_right_inj _).mpr (hnames.filter _)

end FileSystem

end SchemaDocs
