import SchemaDocs.Proofs.Storage.Outside
import SchemaDocs.Proofs.Storage.Standing

/-!
# On the way of a path

Where directories are made for a path, they stand on its way, at places where nothing was: the directories
above a path are those of its first names. For a file in an output directory they stand in this directory or
on the way to it.
-/

namespace SchemaDocs

/-! ### The beginning of a path -/

namespace Path

variable {front path : String}

/-- A path begins with another one, which may have an empty name more. -/
structure Begins (front path : String) : Prop where
  isAbsolute : isAbsolute front = isAbsolute path
  pieces : ∃ names, names <+: Text.pieces '/' path ∧ (Text.pieces '/' front = names ∨ Text.pieces '/' front = names ++ [""])

theorem Begins.refl (path : String) : Begins path path := ⟨rfl, _, List.prefix_refl _, .inl rfl⟩

theorem begins_of_append {rest : List Char} (hne : front ≠ "") (h : path.toList = front.toList ++ '/' :: rest) :
    Begins front path where
  isAbsolute := by
    obtain ⟨c, chars, hchars⟩ := List.exists_cons_of_ne_nil fun hnil => hne (String.toList_injective hnil)
    simp [Path.isAbsolute, h, hchars]
  pieces := by
    refine ⟨_, ?_, .inl rfl⟩
    rw [Text.pieces, Text.pieces, h, Text.splitChars_append_separator, List.map_append]
    exact List.prefix_append _ _

theorem begins_empty (h : Path.isAbsolute path = false) : Begins "" path := ⟨h.symm, [], List.nil_prefix, .inr rfl⟩

/-- The path to the directory above loses the last name and the names behind it that mean nothing. -/
theorem exists_of_parent (h : parent? path = some front) :
    (lead path.toList = ['.'] ∧ front = "") ∨
      ∃ kept more : List (List Char), more ≠ [] ∧ front.toList = lead path.toList ++ ['/'].intercalate kept ∧
        path.toList = lead path.toList ++ ['/'].intercalate (kept ++ more) := by
  have htext : lead path.toList ++ ['/'].intercalate (Text.splitChars '/' (path.toList.drop (lead path.toList).length)) =
      path.toList := by
    rw [Text.intercalate_splitChars, lead_append_drop]
  rw [parent?] at h
  generalize Text.splitChars '/' (path.toList.drop (lead path.toList).length) = names at h htext
  obtain ⟨blanks, hnames, -⟩ := exists_trimNames names
  split at h
  · split at h
    · rename_i hdot
      exact .inl ⟨hdot, (Option.some.inj h).symm⟩
    · cases h
  · rename_i hne
    obtain ⟨others, last, hlast⟩ := (List.eq_nil_or_concat' (trimNames names)).resolve_left hne
    obtain ⟨behind, hothers, -⟩ := exists_trimNames others
    rw [hlast, List.dropLast_concat] at h
    refine .inr ⟨trimNames others, behind ++ ([last] ++ blanks), by simp, ?_, ?_⟩
    · rw [← Option.some.inj h, String.toList_ofList]
    · rw [← List.append_assoc, ← hothers, ← List.append_assoc, ← hlast, ← hnames, htext]

/-- The path to the directory above begins the path. -/
theorem begins_parent (h : parent? path = some front) : Begins front path := by
  have hrelative (hlead : lead path.toList ≠ ['/']) : Path.isAbsolute path = false := by
    rw [Path.isAbsolute, decide_eq_false_iff_not]
    intro hhead
    obtain ⟨rest, hrest⟩ := List.head?_eq_some_iff.mp hhead
    exact hlead (by rw [hrest, lead])
  rcases exists_of_parent h with ⟨hdot, rfl⟩ | ⟨kept, more, hmore, hfront, htext⟩
  · exact begins_empty (hrelative (by rw [hdot]; decide))
  · by_cases hkept : kept = []
    · rw [hkept, List.intercalate_nil, List.append_nil] at hfront
      rcases lead_cases path.toList with ⟨hlead, rest, hrest⟩ | ⟨hlead, hrest | ⟨rest, hrest⟩⟩ | hlead <;> rw [hlead] at hfront
      -- the root begins with an empty name, and so does the path
      · obtain rfl : front = "/" := String.toList_injective hfront
        refine ⟨by rw [Path.isAbsolute, Path.isAbsolute, hrest]; rfl, [""], ?_, .inr rfl⟩
        rw [Text.pieces, hrest, Text.splitChars_cons_self, List.map_cons]
        exact List.prefix_append [_] _
      · obtain rfl : front = path := String.toList_injective (hfront.trans hrest.symm)
        exact .refl front
      · exact begins_of_append (by rintro rfl; cases hfront) (hrest.trans (by rw [hfront]; rfl))
      · obtain rfl : front = "" := String.toList_injective hfront
        exact begins_empty (hrelative (by rw [hlead]; exact (List.cons_ne_nil _ _).symm))
    · rw [Text.intercalate_append hkept hmore, List.append_assoc, ← List.append_assoc, ← hfront] at htext
      refine begins_of_append ?_ htext
      -- behind nothing the path would begin at the root
      rintro rfl
      rw [htext] at hfront
      cases hfront

private theorem begins_withoutTrailingSlashes (h : withoutTrailingSlashes path ≠ "") :
    Begins (withoutTrailingSlashes path) path := by
  obtain ⟨count, htext⟩ := exists_slashes path
  cases count with
  | zero =>
    rw [List.replicate_zero, List.append_nil] at htext
    rw [← String.toList_injective htext]
    exact .refl path
  | succ count => exact begins_of_append h htext

end Path

namespace FileSystem

variable {fs middle next : FileSystem} {path front : String} {place : List String}

/-! ### Directories that are made -/

/-- A place on the way of a path. -/
def Passes (fs : FileSystem) (path : String) (place : List String) : Prop :=
  ∃ names, names <+: Text.pieces '/' path ∧ place = walk (fs.start path) names

private theorem Passes.of_begins (hfront : Path.Begins front path) (h : fs.Passes front place) :
    fs.Passes path place := by
  obtain ⟨names, hnames, rfl⟩ := h
  obtain ⟨whole, hwhole, hpieces⟩ := hfront.pieces
  rw [start, hfront.isAbsolute, ← start]
  rcases hpieces with hpieces | hpieces
  · exact ⟨names, (hpieces ▸ hnames).trans hwhole, rfl⟩
  · rcases List.prefix_concat_iff.mp (hpieces ▸ hnames) with rfl | hnames
    -- the empty name stays where it is
    · exact ⟨whole, hwhole, by rw [walk_append]; rfl⟩
    · exact ⟨names, hnames.trans hwhole, rfl⟩

theorem Passes.of_workingDirectory (hworking : middle.workingDirectory = fs.workingDirectory)
    (h : middle.Passes path place) :
    fs.Passes path place := by
  obtain ⟨names, hnames, rfl⟩ := h
  exact ⟨names, hnames, by rw [start, start, hworking]⟩

/-- Names that are joined to a path lead on from where it leads. -/
theorem Passes.of_foldl_join {names : List String} (hnames : ∀ name ∈ names, IsSegment name)
    (h : fs.Passes (names.foldl Path.join path) place) : fs.Passes path place ∨ fs.placeOf path <+: place := by
  induction names generalizing path with
  | nil => exact .inl h
  | cons name names ih =>
    obtain ⟨hname, hnames⟩ := List.forall_mem_cons.mp hnames
    have hjoined : fs.placeOf (Path.join path name) = fs.placeOf path ++ [name] := by
      rw [placeOf, placeOf, start, hname.isAbsolute_join, ← start, hname.walk_join]
    obtain ⟨way, hway, rfl⟩ | hbelow := ih hnames h
    · obtain ⟨front, hpieces, hfront⟩ := hname.pieces_join path
      rw [hpieces, List.prefix_concat_iff, ← hpieces] at hway
      rcases hway with rfl | hway
      · rw [← placeOf, hjoined]
        exact .inr (List.prefix_append _ _)
      · have hstart : fs.start (Path.join path name) = fs.start path := by rw [start, hname.isAbsolute_join, ← start]
        rw [hstart]
        refine .inl ⟨way, ?_, rfl⟩
        rcases hfront with hfront | hfront <;> rw [hfront]
        · exact hway
        · exact hway.trans (List.prefix_append _ _)
    · rw [hjoined] at hbelow
      exact .inr ((List.prefix_append _ _).trans hbelow)

/-- Of the places that are looked at, all are as before, but for directories that have been made on the way of
a path where nothing was. -/
structure Paves (path : String) (IsSeen : List String → Prop) (fs next : FileSystem) : Prop where
  workingDirectory : next.workingDirectory = fs.workingDirectory
  bareAt : ∀ place, IsSeen place → next.root.bareAt? place = fs.root.bareAt? place ∨
    fs.root.bareAt? place = none ∧ next.root.bareAt? place = some (.directory []) ∧ fs.Passes path place

section

variable {IsSeen IsShown : List String → Prop}

namespace Paves

theorem refl (path : String) (IsSeen : List String → Prop) (fs : FileSystem) : Paves path IsSeen fs fs :=
  ⟨rfl, fun _ _ => .inl rfl⟩

theorem trans (hfirst : Paves path IsSeen fs middle) (hsecond : Paves path IsSeen middle next) :
    Paves path IsSeen fs next where
  workingDirectory := hsecond.workingDirectory.trans hfirst.workingDirectory
  bareAt place hseen := by
    rcases hfirst.bareAt place hseen with hsame | ⟨hnone, hmade, hpasses⟩
    · rw [← hsame]
      exact (hsecond.bareAt place hseen).imp_right fun ⟨hnone, hmade, hpasses⟩ =>
        ⟨hnone, hmade, hpasses.of_workingDirectory hfirst.workingDirectory⟩
    · rcases hsecond.bareAt place hseen with hsame | ⟨hvacant, -⟩
      · exact .inr ⟨hnone, hsame.trans hmade, hpasses⟩
      · rw [hmade] at hvacant
        cases hvacant

theorem imp (h : Paves front IsSeen fs next) (hseen : ∀ place, IsShown place → IsSeen place)
    (hpasses : ∀ place, IsShown place → fs.Passes front place → fs.Passes path place) : Paves path IsShown fs next where
  workingDirectory := h.workingDirectory
  bareAt place hshown := (h.bareAt place (hseen place hshown)).imp_right fun ⟨hnone, hmade, hpassed⟩ =>
    ⟨hnone, hmade, hpasses place hshown hpassed⟩

private theorem of_begins (hfront : Path.Begins front path) (h : Paves front IsSeen fs next) :
    Paves path IsSeen fs next :=
  h.imp (fun _ => id) fun _ _ => .of_begins hfront

end Paves

private theorem paves_of_createDirectory (h : fs.createDirectory path = .ok next) :
    Paves path (fun _ => True) fs next := by
  obtain ⟨place, hplace, hvacant, hworking, hnext⟩ := bareAt?_of_createDirectory h
  refine ⟨hworking, fun other _ => ?_⟩
  rw [hnext]
  split
  · rename_i hother
    subst hother
    refine .inr ⟨hvacant, rfl, ?_⟩
    have hpassed : fs.Passes (if Path.withoutTrailingSlashes path = "" then path else Path.withoutTrailingSlashes path) other :=
      ⟨_, List.prefix_refl _, eq_placeOf_of_locate hplace⟩
    split at hpassed
    · exact hpassed
    · rename_i hbare
      exact hpassed.of_begins (Path.begins_withoutTrailingSlashes hbare)
  · exact .inl rfl

/-- Directories are made on the way of their path only. -/
theorem paves_createDirectories (path : String) (fs : FileSystem) :
    Paves path (fun _ => True) fs (fs.createDirectories path).2 :=
  relates_of_createAncestors (fun path fs next => Paves path (fun _ => True) fs next) (fun path => .refl path _) .trans
    paves_of_createDirectory (fun hparent => .of_begins (Path.begins_parent hparent)) _ path fs

theorem paves_directory (path : String) (fs : FileSystem) :
    Paves path (fun _ => True) fs (fs.createDirectories (Path.directory path)).2 := by
  rw [Path.directory]
  cases hparent : Path.parent? path with
  | none => exact .refl path _ fs
  | some front => exact (paves_createDirectories front fs).of_begins (Path.begins_parent hparent)

end

end FileSystem

end SchemaDocs
