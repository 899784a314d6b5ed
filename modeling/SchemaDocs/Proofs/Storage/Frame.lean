import SchemaDocs.Proofs.Storage.Growth

/-!
# What file operations leave alone

Making directories makes no file and changes none, and writing a file makes or changes that one. So
the files at all other places are the same before and after, also where an operation fails on its
way.
-/

namespace SchemaDocs.FileSystem

variable {fs middle next : FileSystem} {altered more : List (List String)} {path : String} {place : List String}
  {content : ByteArray}

/-- Two file systems have the same files but for those at the altered places, and the later one has
all directories of the earlier one. -/
structure Alters (fs next : FileSystem) (altered : List (List String)) : Prop extends fs.Keeps next altered where
  /-- No other file is made. -/
  file : ∀ place content, next.root.bareAt? place = some (.file content) → place ∉ altered →
    fs.root.bareAt? place = some (.file content)

namespace Alters

theorem refl (fs : FileSystem) : fs.Alters fs altered := ⟨.refl fs, fun _ _ hfile _ => hfile⟩

theorem trans (hfirst : fs.Alters middle altered) (hsecond : middle.Alters next more) :
    fs.Alters next (altered ++ more) where
  toKeeps := hfirst.toKeeps.trans hsecond.toKeeps
  file place content hfile hspared := by
    rw [List.mem_append, not_or] at hspared
    exact hfirst.file place content (hsecond.file place content hfile hspared.2) hspared.1

theorem file_iff (h : fs.Alters next altered) (hplace : place ∉ altered) :
    next.root.bareAt? place = some (.file content) ↔ fs.root.bareAt? place = some (.file content) :=
  ⟨fun hfile => h.file place content hfile hplace, fun hfile => h.bareAt place _ hfile (.inr hplace)⟩

end Alters

private theorem alters_of_createDirectory (h : fs.createDirectory path = .ok next) : fs.Alters next [] where
  toKeeps := keeps_of_createDirectory h
  file place content hfile _ := by
    obtain ⟨made, -, -, -, hnext⟩ := bareAt?_of_createDirectory h
    rw [hnext] at hfile
    split at hfile
    · cases hfile
    · exact hfile

theorem alters_of_createDirectories (path : String) (fs : FileSystem) :
    fs.Alters (fs.createDirectories path).2 [] :=
  relates_of_createAncestors (fun _ fs next => fs.Alters next []) (fun _ => .refl) .trans alters_of_createDirectory
    (fun _ => id) _ path fs

theorem alters_of_write (h : fs.write path content = .ok next) :
    ∃ place, fs.locate path = .ok place ∧ fs.Alters next [place] ∧ next.root.bareAt? place = some (.file content) := by
  obtain ⟨place, hplace, hplain, hworking, hnext⟩ := bareAt?_of_write h
  refine ⟨place, hplace, ⟨.of_bareAt? hworking hplain hnext, fun other held hfile hother => ?_⟩, by rw [hnext, if_pos rfl]⟩
  rw [List.mem_singleton] at hother
  rw [hnext, if_neg hother] at hfile
  exact hfile

end SchemaDocs.FileSystem
