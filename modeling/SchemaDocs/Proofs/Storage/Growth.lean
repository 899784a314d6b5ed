import SchemaDocs.Proofs.Sequence
import SchemaDocs.Proofs.Storage.Places

/-!
# What file operations keep

Making directories keeps all that is there, and writing a file keeps all but what the file held
before. So a path that leads somewhere still leads there later, and a file reads as it was written
until it is written again.
-/

namespace SchemaDocs

namespace FileSystem

variable {fs middle next : FileSystem} {changed more : List (List String)} {path : String} {place : List String}
  {content : ByteArray}

/-- Everything that stands in one file system stands in a later one, except for files at the places
that have changed. -/
structure Keeps (fs next : FileSystem) (changed : List (List String)) : Prop where
  workingDirectory : next.workingDirectory = fs.workingDirectory
  bareAt : ∀ place tree, fs.root.bareAt? place = some tree → tree = .directory [] ∨ place ∉ changed →
    next.root.bareAt? place = some tree

namespace Keeps

theorem refl (fs : FileSystem) : fs.Keeps fs changed := ⟨rfl, fun _ _ htree _ => htree⟩

theorem trans (hfirst : fs.Keeps middle changed) (hsecond : middle.Keeps next more) :
    fs.Keeps next (changed ++ more) where
  workingDirectory := hsecond.workingDirectory.trans hfirst.workingDirectory
  bareAt place tree htree hkept := by
    rw [List.mem_append, not_or] at hkept
    refine hsecond.bareAt place tree (hfirst.bareAt place tree htree ?_) ?_
    · exact hkept.imp_right And.left
    · exact hkept.imp_right And.right

theorem directory (h : fs.Keeps next changed) (place : List String)
    (hplace : fs.root.bareAt? place = some (.directory [])) : next.root.bareAt? place = some (.directory []) :=
  h.bareAt place _ hplace (.inl rfl)

theorem locate (h : fs.Keeps next changed) (hplace : fs.locate path = .ok place) : next.locate path = .ok place :=
  locate_mono h.workingDirectory h.directory hplace

/-- What stands at one place becomes another leaf, and everything else stays as it is. -/
theorem of_bareAt? {leaf : Tree} (hworking : next.workingDirectory = fs.workingDirectory)
    (hplace : fs.root.bareAt? place ≠ some (.directory []))
    (hnext : ∀ other, next.root.bareAt? other = if other = place then some leaf else fs.root.bareAt? other) :
    fs.Keeps next [place] where
  workingDirectory := hworking
  bareAt other tree htree hkept := by
    rw [hnext, if_neg ?_, htree]
    rintro rfl
    rcases hkept with rfl | hkept
    · exact hplace htree
    · exact hkept List.mem_cons_self

end Keeps

private theorem lies_of_locate (h : fs.locate path = .ok place) :
    fs.root.bareAt? place = some (.directory []) ∨
      ∃ parent name, place = parent ++ [name] ∧ fs.root.bareAt? parent = some (.directory []) :=
  lies_of_follow (.inr (Text.pieces_ne_nil '/' path)) (follow_of_locate h)

/-! ### Making directories -/

theorem createDirectory_eq_ok_iff :
    fs.createDirectory path = .ok next ↔ path.utf8ByteSize ≤ maxPathSize ∧
      ∃ place, fs.locate (if Path.withoutTrailingSlashes path = "" then path else Path.withoutTrailingSlashes path) = .ok place ∧
        fs.root.get? place = none ∧ next = { fs with root := fs.root.put place (.directory []) } := by
  constructor
  · intro h
    rw [createDirectory] at h
    split at h
    · cases h
    · rename_i hshort
      obtain ⟨place, hplace, h⟩ := bind_eq_ok_iff.mp h
      split at h
      · cases h
      · exact ⟨Nat.not_lt.mp hshort, place, hplace, ‹_›, (Except.ok.inj h).symm⟩
  · rintro ⟨hsize, place, hplace, hvacant, rfl⟩
    rw [createDirectory, if_neg (Nat.not_lt.mpr hsize)]
    exact bind_eq_ok_iff.mpr ⟨place, hplace, by simp only [hvacant]⟩

/-- A directory is made where its path leads and nothing was, and nothing else changes. -/
theorem bareAt?_of_createDirectory (h : fs.createDirectory path = .ok next) :
    ∃ place, fs.locate (if Path.withoutTrailingSlashes path = "" then path else Path.withoutTrailingSlashes path) = .ok place ∧
      fs.root.bareAt? place = none ∧ next.workingDirectory = fs.workingDirectory ∧
      ∀ other, next.root.bareAt? other = if other = place then some (.directory []) else fs.root.bareAt? other := by
  obtain ⟨-, place, hplace, hvacant, rfl⟩ := createDirectory_eq_ok_iff.mp h
  rw [← Tree.bareAt?_eq_none_iff] at hvacant
  refine ⟨place, hplace, hvacant, rfl, fun other => ?_⟩
  rcases lies_of_locate hplace with hdirectory | ⟨parent, name, rfl, hparent⟩
  · rw [hvacant] at hdirectory
    cases hdirectory
  · exact Tree.bareAt?_put hparent (by simp [hvacant]) rfl other

theorem keeps_of_createDirectory (h : fs.createDirectory path = .ok next) : fs.Keeps next [] := by
  obtain ⟨place, -, hvacant, hworking, hnext⟩ := bareAt?_of_createDirectory h
  have hkeeps := Keeps.of_bareAt? hworking (by simp [hvacant]) hnext
  refine ⟨hworking, fun other tree htree _ => hkeeps.bareAt other tree htree (.inr ?_)⟩
  rw [List.mem_singleton]
  rintro rfl
  rw [hvacant] at htree
  cases htree

/-- What relates a file system to one with a directory more, and is passed on from step to step and from a
path to the paths below it, also relates it to what becomes of it when directories are made, whether all of
them are or not. -/
theorem relates_of_createAncestors (Relates : String → FileSystem → FileSystem → Prop)
    (hrefl : ∀ path fs, Relates path fs fs)
    (htrans : ∀ {path fs middle next}, Relates path fs middle → Relates path middle next → Relates path fs next)
    (hcreate : ∀ {fs next path}, fs.createDirectory path = .ok next → Relates path fs next)
    (hparent : ∀ {path parent fs next}, Path.parent? path = some parent → Relates parent fs next → Relates path fs next)
    (fuel : Nat) (path : String) (fs : FileSystem) : Relates path fs (createAncestors fuel path fs).2 := by
  induction fuel generalizing path fs with
  | zero => exact hrefl path fs
  | succ fuel ih =>
    rw [createAncestors]
    split
    · exact hrefl path fs
    · split
      · rename_i next hcreated
        exact hcreate hcreated
      · split
        · exact hrefl path fs
        · rename_i parent habove
          have hmade := hparent habove (ih parent fs)
          split
          · rename_i middle hmiddle
            rw [hmiddle] at hmade
            exact hmade
          · rename_i middle hmiddle
            rw [hmiddle] at hmade
            split
            · rename_i next hcreated
              exact htrans hmade (hcreate hcreated)
            · exact hmade
      · exact hrefl path fs

/-- What making a directory and writing a file both keep. -/
structure IsKept (P : FileSystem → Prop) : Prop where
  createDirectory : ∀ {fs next : FileSystem} {path : String}, P fs → fs.createDirectory path = .ok next → P next
  write : ∀ {fs next : FileSystem} {path : String} {content : ByteArray}, P fs → fs.write path content = .ok next → P next

theorem IsKept.createDirectories {P : FileSystem → Prop} (h : IsKept P) (hfs : P fs) (path : String) :
    P (fs.createDirectories path).2 :=
  relates_of_createAncestors (fun _ fs next => P fs → P next) (fun _ _ => id) (fun hfirst hsecond hfs => hsecond (hfirst hfs))
    (fun hcreated hfs => h.createDirectory hfs hcreated) (fun _ => id) _ path fs hfs

/-- Where directories are made, the last of them is made, is there, or is made or found below those above it. -/
theorem createAncestors_cases {fuel : Nat} (h : createAncestors (fuel + 1) path fs = (.ok (), next)) :
    path = "" ∨ fs.createDirectory path = .ok next ∨ fs.isDirectory path = true ∧ next = fs ∨
      ∃ parent middle, Path.parent? path = some parent ∧ createAncestors fuel parent fs = (.ok (), middle) ∧
        (middle.createDirectory path = .ok next ∨ middle.isDirectory path = true ∧ next = middle) := by
  have hsettled {error : FileError} {fs : FileSystem}
      (h : ((if fs.isDirectory path then .ok () else .error error : Except FileError Unit), fs) = (.ok (), next)) :
      fs.isDirectory path = true ∧ next = fs := by
    obtain ⟨houtcome, rfl⟩ := Prod.mk.inj h
    split at houtcome
    · exact ⟨‹_›, rfl⟩
    · cases houtcome
  rw [createAncestors] at h
  split at h
  · exact .inl ‹_›
  · refine .inr ?_
    split at h
    · rename_i made hmade
      obtain ⟨-, rfl⟩ := Prod.mk.inj h
      exact .inl hmade
    · split at h
      · cases (Prod.mk.inj h).1
      · rename_i parent hparent
        split at h
        · cases (Prod.mk.inj h).1
        · rename_i middle habove
          refine .inr (.inr ⟨parent, middle, hparent, habove, ?_⟩)
          split at h
          · rename_i made hmade
            obtain ⟨-, rfl⟩ := Prod.mk.inj h
            exact .inl hmade
          · exact .inr (hsettled h)
    · exact .inr (.inl (hsettled h))

/-! ### Files -/

theorem read_eq_ok_iff :
    fs.read path = .ok content ↔ ∃ place, fs.locate path = .ok place ∧ fs.root.bareAt? place = some (.file content) := by
  simp only [read, find, bind_eq_ok_iff, Tree.bareAt?_eq_file_iff]
  constructor
  · rintro ⟨tree, ⟨place, hplace, htree⟩, hcontent⟩
    refine ⟨place, hplace, ?_⟩
    cases tree with
    | directory entries => cases hcontent
    | file found =>
      obtain rfl := Except.ok.inj hcontent
      split at htree
      · rename_i hfound
        rw [hfound, Except.ok.inj htree]
      · cases htree
  · rintro ⟨place, hplace, hcontent⟩
    refine ⟨.file content, ⟨place, hplace, ?_⟩, rfl⟩
    rw [hcontent]

theorem Keeps.read (h : fs.Keeps next changed) (hread : fs.read path = .ok content)
    (hchanged : ∀ place, fs.locate path = .ok place → place ∉ changed) : next.read path = .ok content := by
  obtain ⟨place, hplace, hcontent⟩ := read_eq_ok_iff.mp hread
  exact read_eq_ok_iff.mpr ⟨place, h.locate hplace, h.bareAt place _ hcontent (.inr (hchanged place hplace))⟩

/-- A file is written where its path leads, which is no directory, and nothing else changes. -/
theorem bareAt?_of_write (h : fs.write path content = .ok next) :
    ∃ place, fs.locate path = .ok place ∧ fs.root.bareAt? place ≠ some (.directory []) ∧
      next.workingDirectory = fs.workingDirectory ∧
      ∀ other, next.root.bareAt? other = if other = place then some (.file content) else fs.root.bareAt? other := by
  obtain ⟨place, hplace, h⟩ := bind_eq_ok_iff.mp h
  split at h
  · cases h
  · rename_i hfile
    obtain rfl := Except.ok.inj h
    have hplain : fs.root.bareAt? place ≠ some (.directory []) := by
      rw [Ne, Tree.bareAt?_eq_directory_iff, not_exists]
      exact hfile
    refine ⟨place, hplace, hplain, rfl, fun other => ?_⟩
    obtain ⟨parent, name, rfl, hparent⟩ := (lies_of_locate hplace).resolve_left hplain
    exact Tree.bareAt?_put hparent hplain rfl other

end FileSystem

end SchemaDocs
