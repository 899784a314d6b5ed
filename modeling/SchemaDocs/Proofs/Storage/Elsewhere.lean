import SchemaDocs.Proofs.Storage.Frame
import SchemaDocs.Proofs.Storage.Parents
import SchemaDocs.Proofs.Storage.Prefixes
import SchemaDocs.Proofs.Storage.Similar

/-!
# Files seen from elsewhere

The same files can be seen from a directory, and from outside by paths that are put behind the one that leads to it.
As long as no path gets too long, what is found is the same then, and what is written and made.
-/

namespace SchemaDocs

private theorem Text.mem_of_mem {c : Char} {text : List Char} (h : c ∈ text) (separator : Char) :
    c = separator ∨ ∃ piece ∈ splitChars separator text, c ∈ piece := by
  induction text with
  | nil => cases h
  | cons d rest ih =>
    obtain ⟨piece, pieces, hpieces⟩ := List.exists_cons_of_ne_nil (splitChars_ne_nil separator rest)
    rw [hpieces] at ih
    obtain rfl | hd := Decidable.em (d = separator)
    · rw [splitChars_cons_self, hpieces]
      rcases List.mem_cons.mp h with hc | hc
      · exact .inl hc
      · exact (ih hc).imp_right fun ⟨other, hother, hmem⟩ => ⟨other, List.mem_cons_of_mem _ hother, hmem⟩
    · rw [splitChars_cons_of_ne hd hpieces]
      rcases List.mem_cons.mp h with rfl | hc
      · exact .inr ⟨_, List.mem_cons_self, List.mem_cons_self⟩
      · refine (ih hc).imp_right ?_
        rintro ⟨other, hother, hmem⟩
        rcases List.mem_cons.mp hother with rfl | hother
        · exact ⟨_, List.mem_cons_self, List.mem_cons_of_mem _ hmem⟩
        · exact ⟨other, List.mem_cons_of_mem _ hother, hmem⟩

namespace FileSystem

variable {fs inner outer innerNext outerNext : FileSystem} {base path : String} {place : List String} {content : ByteArray}

def IsLong (path : String) : Prop := maxPathSize < path.utf8ByteSize

theorem IsLong.ne_empty (h : IsLong path) : path ≠ "" := by
  rintro rfl
  exact absurd (show maxPathSize < ("" : String).utf8ByteSize from h) (by decide)

private theorem locate_of_isLong (h : IsLong path) : fs.locate path = .error .invalidPath := by
  rw [locate, if_neg h.ne_empty, if_pos]
  simp only [Bool.or_eq_true, decide_eq_true_eq]
  exact .inl h

theorem read_of_isLong (h : IsLong path) : fs.read path = .error .invalidPath := by
  rw [read, find, locate_of_isLong h]
  rfl

theorem readText_of_isLong (h : IsLong path) : fs.readText path = .error .invalidPath := by
  rw [readText, read_of_isLong h]
  rfl

/-- No directory is made at a path that is too long. -/
theorem createDirectories_of_isLong (h : IsLong path) (fs : FileSystem) :
    fs.createDirectories path = (.error .invalidPath, fs) := by
  have hdirectory : fs.isDirectory path = false := by
    rw [isDirectory, find, locate_of_isLong h]
    rfl
  have hcreate : fs.createDirectory path = .error .invalidPath := by
    rw [createDirectory, if_pos (show maxPathSize < _ from h)]
  rw [createDirectories, createAncestors, if_neg h.ne_empty]
  simp [hcreate, hdirectory]

theorem write_of_isLong (h : IsLong path) (fs : FileSystem) (content : ByteArray) :
    fs.write path content = .error .invalidPath := by
  rw [write, locate_of_isLong h]
  rfl

private theorem endAlike_of_map {ε : Type} {Relates : FileSystem → FileSystem → Prop} {left right : Except ε FileSystem}
    (h : right.map root = left.map root)
    (hnext : ∀ leftNext rightNext, left = .ok leftNext → right = .ok rightNext → rightNext.root = leftNext.root →
      Relates leftNext rightNext) : EndAlike Relates left right := by
  cases left with
  | error fault =>
    cases right with
    | error other =>
      obtain rfl : other = fault := Except.error.inj h
      exact .error _
    | ok rightNext => cases h
  | ok leftNext =>
    cases right with
    | error other => cases h
    | ok rightNext => exact .ok (hnext _ _ rfl rfl (Except.ok.inj h))

/-- The same files, seen from the directory that a path leads to; there is room for a name behind this path. -/
structure Enters (outer : FileSystem) (base : String) (inner : FileSystem) : Prop where
  root : outer.root = inner.root
  located : outer.locate base = .ok inner.workingDirectory
  directory : inner.root.bareAt? inner.workingDirectory = some (.directory [])
  room : ¬ IsLong (Path.join base "x")

namespace Enters

section

variable (h : outer.Enters base inner)
include h

theorem base_ne_empty : base ≠ "" := (locate_eq_ok_iff.mp h.located).1

private theorem leads : outer.Leads base inner.workingDirectory := ⟨follow_of_locate h.located, h.root ▸ h.directory⟩

theorem nul_iff (hpath : Path.isAbsolute path = false) :
    Char.ofNat 0 ∈ (Path.join base path).toList ↔ Char.ofNat 0 ∈ path.toList := by
  have hbase : Char.ofNat 0 ∉ Path.behind base := by
    have hnoNul := (locate_eq_ok_iff.mp h.located).2.2.1
    rw [Path.behind]
    split
    · exact hnoNul
    · rw [List.mem_append, not_or]
      exact ⟨hnoNul, by decide⟩
  rw [Path.toList_join h.base_ne_empty hpath, List.mem_append]
  exact or_iff_right hbase

private theorem locate_eq (hpath : path ≠ "") (hfits : ¬ IsLong (Path.join base path)) :
    outer.locate (Path.join base path) = inner.locate path := by
  cases hrelative : Path.isAbsolute path with
  | true =>
    rw [Path.join_of_absolute hrelative, locate, locate, h.root, hrelative]
    rfl
  | false =>
    have hfollow : follow outer.root (outer.start (Path.join base path)) (Text.pieces '/' (Path.join base path)) =
        follow inner.root (inner.start path) (Text.pieces '/' path) := by
      rw [follow_join_of_leads h.leads hrelative, h.root, start, hrelative]
      rfl
    have hsize := Path.size_le_join base path
    rw [IsLong, Nat.not_lt] at hfits
    have hinvalid : (decide (maxPathSize < (Path.join base path).utf8ByteSize) ||
        (Path.join base path).toList.contains (Char.ofNat 0)) =
          (decide (maxPathSize < path.utf8ByteSize) || path.toList.contains (Char.ofNat 0)) := by
      rw [decide_eq_false (Nat.not_lt.mpr hfits), decide_eq_false (Nat.not_lt.mpr (Nat.le_trans hsize hfits)), Bool.eq_iff_iff]
      simp only [Bool.false_or, List.contains_iff_mem]
      exact h.nul_iff hrelative
    rw [locate, if_neg (Path.join_ne_empty h.base_ne_empty (.inl hpath)), hinvalid, locate, if_neg hpath, ← start, ← start,
      hfollow]

theorem placeOf_eq (path : String) : outer.placeOf (Path.join base path) = inner.placeOf path := by
  cases hrelative : Path.isAbsolute path with
  | true => rw [Path.join_of_absolute hrelative, placeOf, placeOf, start, start, hrelative, if_pos rfl, if_pos rfl]
  | false =>
    rw [placeOf, placeOf, start, Path.isAbsolute_join hrelative, ← start, walk_join hrelative,
      ← eq_walk_of_follow h.leads.follows, start, hrelative, if_neg Bool.false_ne_true]

section

variable (hpath : path ≠ "") (hfits : ¬ IsLong (Path.join base path))
include hpath hfits

theorem find_eq : outer.find (Path.join base path) = inner.find path := by
  rw [find, find, h.locate_eq hpath hfits, h.root]

theorem read_eq : outer.read (Path.join base path) = inner.read path := by
  rw [read, read, h.find_eq hpath hfits]

theorem readText_eq : outer.readText (Path.join base path) = inner.readText path := by
  rw [readText, readText, h.read_eq hpath hfits]

theorem contains_eq : outer.contains (Path.join base path) = inner.contains path := by
  rw [contains, contains, h.find_eq hpath hfits]

theorem isDirectory_eq : outer.isDirectory (Path.join base path) = inner.isDirectory path := by
  rw [isDirectory, isDirectory, h.find_eq hpath hfits]

theorem discover_eq : Discovery.discover outer (Path.join base path) = Discovery.discover inner path := by
  rw [Discovery.discover, Discovery.discover, h.find_eq hpath hfits]

end

/-! ### The directory itself -/

theorem not_isLong_join_empty : ¬ IsLong (Path.join base "") := by
  have hroom := h.room
  rw [IsLong, Nat.not_lt] at hroom ⊢
  refine Nat.le_trans ?_ hroom
  rw [Path.join_of_relative rfl, Path.join_of_relative rfl, if_neg h.base_ne_empty, if_neg h.base_ne_empty]
  split <;> simp only [String.utf8ByteSize_append] <;> exact Nat.add_le_add_left (by decide) _

private theorem locate_dot : inner.locate "." = .ok inner.workingDirectory :=
  locate_eq_ok_iff.mpr ⟨by decide, by decide, by decide, follow_cons_eq_ok_iff.mpr ⟨h.directory, by decide, rfl⟩⟩

private theorem isDirectory_dot : inner.isDirectory "." = true := isDirectory_of_locate h.locate_dot h.directory

private theorem locate_join_empty : outer.locate (Path.join base "") = .ok inner.workingDirectory := by
  have hfits := h.not_isLong_join_empty
  rw [IsLong, Nat.not_lt] at hfits
  refine locate_eq_ok_iff.mpr ⟨Path.join_ne_empty h.base_ne_empty (.inr rfl), hfits, ?_, ?_⟩
  · rw [h.nul_iff rfl]
    exact List.not_mem_nil
  · rw [follow_join_of_leads h.leads rfl, h.root]
    exact follow_cons_eq_ok_iff.mpr ⟨h.directory, by decide, rfl⟩

theorem isDirectory_join_empty : outer.isDirectory (Path.join base "") = true :=
  isDirectory_of_locate h.locate_join_empty (h.root ▸ h.directory)

theorem read_join_empty : outer.read (Path.join base "") = .error .isDirectory := by
  obtain ⟨entries, hentries⟩ := Tree.bareAt?_eq_directory_iff.mp h.directory
  rw [read, find, h.locate_join_empty]
  simp only [bind, Except.bind, h.root, hentries]

/-- A file is read in both or in neither. -/
theorem toOption_read (hfits : ¬ IsLong (Path.join base path)) :
    (outer.read (Path.join base path)).toOption = (inner.read path).toOption := by
  by_cases hpath : path = ""
  · rw [hpath, h.read_join_empty]
    rfl
  · rw [h.read_eq hpath hfits]

theorem toOption_readText (hfits : ¬ IsLong (Path.join base path)) :
    (outer.readText (Path.join base path)).toOption = (inner.readText path).toOption := by
  by_cases hpath : path = ""
  · rw [hpath, readText, h.read_join_empty]
    rfl
  · rw [h.readText_eq hpath hfits]

/-- An empty path leads nowhere inside, and to the directory outside. -/
theorem discover_empty : Discovery.discover inner "" = [] ∧
    Discovery.discover outer (Path.join base "") = Discovery.discover inner "." := by
  refine ⟨rfl, ?_⟩
  have hsame : outer.find (Path.join base "") = inner.find "." := by
    rw [find, find, h.locate_join_empty, h.locate_dot, h.root]
  rw [Discovery.discover, Discovery.discover, hsame]

private theorem withinLimits : WithinLimits base ["x"] := by
  have hroom := h.room
  rw [IsLong, Nat.not_lt] at hroom
  refine ⟨List.forall_mem_singleton.mpr (by decide), hroom, ?_⟩
  show Char.ofNat 0 ∉ (Path.join base "x").toList
  rw [h.nul_iff rfl]
  decide

private theorem isDirectory_directory_join : outer.isDirectory (Path.directory (Path.join base "x")) = true :=
  (isDirectory_of_createDirectories (createDirectories_directory_join h.leads Path.isSegment_x h.withinLimits)).resolve_left
    (Path.splitChars_directory Path.isSegment_x h.base_ne_empty).1

private theorem isDirectory_of_blank (hpath : path ≠ "") (hrelative : Path.isAbsolute path = false)
    (hfits : ¬ IsLong (Path.join base path)) (hblank : Path.trimNames (Text.splitChars '/' path.toList) = []) :
    inner.isDirectory path = true := by
  have hblanks := Path.isBlank_of_trimNames hblank
  have hstay : follow inner.root inner.workingDirectory (Text.pieces '/' path) = .ok inner.workingDirectory := by
    rw [Text.pieces]
    generalize Text.splitChars '/' path.toList = names at hblanks
    induction names with
    | nil => rfl
    | cons name names ih =>
      obtain ⟨hname, hnames⟩ := List.forall_mem_cons.mp hblanks
      refine follow_cons_eq_ok_iff.mpr ⟨h.directory, ?_, ?_⟩
      · rcases hname with rfl | rfl <;> decide
      · rcases hname with rfl | rfl <;> exact ih hnames
  have hsize := Path.size_le_join base path
  rw [IsLong, Nat.not_lt] at hfits
  refine isDirectory_of_locate (locate_eq_ok_iff.mpr ⟨hpath, Nat.le_trans hsize hfits, fun hnul => ?_, ?_⟩) h.directory
  · rcases Text.mem_of_mem hnul '/' with hslash | ⟨name, hname, hmem⟩
    · exact absurd hslash (by decide)
    · rcases hblanks name hname with rfl | rfl
      · cases hmem
      · exact absurd (List.mem_singleton.mp hmem) (by decide)
  · rw [start, hrelative]
    exact hstay

/-! ### Changing both -/

private theorem keep {changed more : List (List String)} (hroot : outerNext.root = innerNext.root)
    (hinner : inner.Keeps innerNext changed) (houter : outer.Keeps outerNext more) : outerNext.Enters base innerNext where
  root := hroot
  located := by
    rw [hinner.workingDirectory]
    exact houter.locate h.located
  directory := by
    rw [hinner.workingDirectory]
    exact hinner.directory _ h.directory
  room := h.room

section

variable (hpath : path ≠ "") (hfits : ¬ IsLong (Path.join base path))
include hpath hfits

theorem write (content : ByteArray) :
    EndAlike (fun innerNext outerNext => outerNext.Enters base innerNext) (inner.write path content)
      (outer.write (Path.join base path) content) := by
  have hroot : (outer.write (Path.join base path) content).map FileSystem.root =
      (inner.write path content).map FileSystem.root := by
    rw [FileSystem.write, FileSystem.write, h.locate_eq hpath hfits]
    cases inner.locate path with
    | error error => rfl
    | ok place =>
      simp only [bind, Except.bind, h.root]
      split <;> rfl
  refine endAlike_of_map hroot fun innerNext outerNext hinner houter hsame => ?_
  obtain ⟨_, -, hinner, -⟩ := alters_of_write hinner
  obtain ⟨_, -, houter, -⟩ := alters_of_write houter
  exact h.keep hsame hinner.toKeeps houter.toKeeps

private theorem createDirectory :
    EndAlike (fun innerNext outerNext => outerNext.Enters base innerNext) (inner.createDirectory path)
      (outer.createDirectory (Path.join base path)) := by
  have hlocate : outer.locate (Path.bare (Path.join base path)) = inner.locate (Path.bare path) := by
    rw [Path.bare_join h.base_ne_empty hpath]
    refine h.locate_eq (Path.bare_ne_empty hpath) fun hlong => hfits (Nat.lt_of_lt_of_le hlong ?_)
    rw [← Path.bare_join h.base_ne_empty hpath]
    exact Path.size_bare_le _
  simp only [Path.bare] at hlocate
  have hroot : (outer.createDirectory (Path.join base path)).map FileSystem.root =
      (inner.createDirectory path).map FileSystem.root := by
    have hinner : ¬ maxPathSize < path.utf8ByteSize := fun hlong =>
      hfits (Nat.lt_of_lt_of_le hlong (Path.size_le_join base path))
    rw [FileSystem.createDirectory, FileSystem.createDirectory, if_neg hinner, if_neg (show ¬ maxPathSize < _ from hfits)]
    simp only [hlocate]
    cases inner.locate _ with
    | error error => rfl
    | ok place =>
      simp only [bind, Except.bind, h.root]
      split <;> rfl
  exact endAlike_of_map hroot fun innerNext outerNext hinner houter hsame =>
    h.keep hsame (keeps_of_createDirectory hinner) (keeps_of_createDirectory houter)

end

end

/-- Directories are made in both alike, or as far in both. -/
structure MadeAlike (base : String) (inner outer : Except FileError Unit × FileSystem) : Prop where
  outcome : outer.1 = inner.1
  enters : outer.2.Enters base inner.2

private theorem madeAlike_home {home : String} (h : outer.Enters base inner) (hhome : home = "" ∨ home = ".")
    {fuel more : Nat} (hfuel : 0 < fuel) (hmore : 0 < more) :
    MadeAlike base (inner.createAncestors fuel home)
      (outer.createAncestors more (Path.directory (Path.join base "x"))) := by
  obtain ⟨fuel, rfl⟩ := Nat.exists_eq_add_of_lt hfuel
  obtain ⟨more, rfl⟩ := Nat.exists_eq_add_of_lt hmore
  rw [createAncestors_of_isDirectory h.isDirectory_directory_join]
  rcases hhome with rfl | rfl
  · exact ⟨rfl, h⟩
  · rw [createAncestors_of_isDirectory h.isDirectory_dot]
    exact ⟨rfl, h⟩

private theorem parent?_cases {fuel more : Nat} (h : outer.Enters base inner) (hpath : path ≠ "")
    (hfits : ¬ IsLong (Path.join base path)) (hdirectory : ¬ inner.isDirectory path = true)
    (hfuel : path.toList.length ≤ fuel) (hmore : (Path.join base path).toList.length ≤ more)
    (hmade : ∀ parent, parent ≠ "" → ¬ IsLong (Path.join base parent) → parent.toList.length < fuel →
      (Path.join base parent).toList.length < more →
        MadeAlike base (inner.createAncestors fuel parent) (outer.createAncestors more (Path.join base parent))) :
    (Path.parent? path = none ∧ Path.parent? (Path.join base path) = none) ∨
      ∃ parent other, Path.parent? path = some parent ∧ Path.parent? (Path.join base path) = some other ∧
        MadeAlike base (inner.createAncestors fuel parent) (outer.createAncestors more other) := by
  have hless {parent : String} (hparent : Path.parent? path = some parent) : parent.toList.length < fuel :=
    Nat.lt_of_lt_of_le (Path.length_parent_lt hparent) hfuel
  have hlessOuter {other : String} (hparent : Path.parent? (Path.join base path) = some other) : other.toList.length < more :=
    Nat.lt_of_lt_of_le (Path.length_parent_lt hparent) hmore
  have hnames : Path.isAbsolute path = true ∨ Path.trimNames (Text.splitChars '/' path.toList) ≠ [] := by
    cases hrelative : Path.isAbsolute path with
    | true => exact .inl rfl
    | false => exact .inr fun hblank => hdirectory (h.isDirectory_of_blank hpath hrelative hfits hblank)
  rcases Path.parent?_join_cases h.base_ne_empty hnames with hnone | ⟨parent, hhome, hparent, houter⟩ |
    ⟨parent, hne, hparent, houter⟩
  · exact .inl hnone
  -- above the first name is the directory itself
  · exact .inr ⟨parent, _, hparent, houter, h.madeAlike_home hhome (Nat.zero_lt_of_lt (hless hparent))
      (Nat.zero_lt_of_lt (hlessOuter houter))⟩
  · exact .inr ⟨parent, _, hparent, houter, hmade parent hne
      (fun hlong => hfits (Nat.lt_of_lt_of_le hlong (Path.size_parent_le houter))) (hless hparent) (hlessOuter houter)⟩

private theorem createAncestors {fuel more : Nat} (h : outer.Enters base inner) (hpath : path ≠ "")
    (hfits : ¬ IsLong (Path.join base path)) (hfuel : path.toList.length < fuel)
    (hmore : (Path.join base path).toList.length < more) :
    MadeAlike base (inner.createAncestors fuel path) (outer.createAncestors more (Path.join base path)) := by
  induction fuel generalizing path more with
  | zero => exact absurd hfuel (Nat.not_lt_zero _)
  | succ fuel ih =>
    obtain ⟨more, rfl⟩ : ∃ less, more = less + 1 := Nat.exists_eq_succ_of_ne_zero (Nat.ne_zero_of_lt hmore)
    have hsame := h.isDirectory_eq hpath hfits
    by_cases hdirectory : inner.isDirectory path = true
    · rw [createAncestors_of_isDirectory hdirectory, createAncestors_of_isDirectory (hsame.trans hdirectory)]
      exact ⟨rfl, h⟩
    have hparents := h.parent?_cases hpath hfits hdirectory (Nat.le_of_lt_succ hfuel) (Nat.le_of_lt_succ hmore)
      fun parent hne hshort hless hlessOuter => ih hne hshort hless hlessOuter
    rw [FileSystem.createAncestors, FileSystem.createAncestors, if_neg hpath,
      if_neg (Path.join_ne_empty h.base_ne_empty (.inl hpath))]
    simp only [hsame]
    generalize inner.createDirectory path = created, outer.createDirectory (Path.join base path) = createdOuter,
      h.createDirectory hpath hfits = hcreate
    cases hcreate with
    | ok hnext => exact ⟨rfl, hnext⟩
    | error error =>
      cases error
      case notFound =>
        rcases hparents with ⟨hparent, houter⟩ | ⟨parent, other, hparent, houter, hmade⟩
        · simp only [hparent, houter]
          exact ⟨rfl, h⟩
        · simp only [hparent, houter]
          obtain ⟨houtcome, hmiddle⟩ := hmade
          generalize inner.createAncestors fuel parent = above, outer.createAncestors more other = aboveOuter at houtcome hmiddle
          obtain ⟨outcome, middle⟩ := above
          obtain ⟨outcomeOuter, middleOuter⟩ := aboveOuter
          obtain rfl : outcomeOuter = outcome := houtcome
          cases outcomeOuter with
          | error error => exact ⟨rfl, hmiddle⟩
          | ok _ =>
            have hsame := hmiddle.isDirectory_eq hpath hfits
            simp only [hsame]
            generalize middle.createDirectory path = last, middleOuter.createDirectory (Path.join base path) = lastOuter,
              Enters.createDirectory hmiddle hpath hfits = hlast
            cases hlast with
            | ok hnext => exact ⟨rfl, hnext⟩
            | error error => exact ⟨rfl, hmiddle⟩
      all_goals exact ⟨rfl, h⟩

theorem createDirectories (h : outer.Enters base inner) (hfits : ¬ IsLong (Path.join base path)) :
    MadeAlike base (inner.createDirectories path) (outer.createDirectories (Path.join base path)) := by
  by_cases hpath : path = ""
  · rw [hpath, createDirectories_of_isDirectory h.isDirectory_join_empty]
    exact ⟨rfl, h⟩
  · exact h.createAncestors hpath hfits (by rw [String.length_toList]; exact Nat.lt_succ_self _)
      (by rw [String.length_toList]; exact Nat.lt_succ_self _)

/-- The directory of a file is made in both alike, unless the path to it gets too long. Directly below the directory
there is nothing to make. -/
theorem createDirectories_directory (h : outer.Enters base inner) {location : String}
    (hlocation : Path.isAbsolute location = true ∨ Path.trimNames (Text.splitChars '/' location.toList) ≠ []) :
    IsLong (Path.directory (Path.join base location)) ∨
      MadeAlike base (inner.createDirectories (Path.directory location))
        (outer.createDirectories (Path.directory (Path.join base location))) := by
  rw [Path.directory, Path.directory]
  rcases Path.parent?_join_cases h.base_ne_empty hlocation with ⟨hparent, houter⟩ | ⟨parent, hhome, hparent, houter⟩ |
    ⟨parent, -, hparent, houter⟩ <;> rw [hparent, houter]
  · exact .inr ⟨rfl, h⟩
  · exact .inr (h.madeAlike_home hhome (Nat.succ_pos _) (Nat.succ_pos _))
  · exact (Classical.em _).imp_right h.createDirectories

end Enters

/-! ### Entering a directory -/

/-- The same files as a command sees them that is started in a directory. -/
def within (outer : FileSystem) (base : String) : FileSystem := { outer with workingDirectory := outer.placeOf base }

private theorem enters_of_isDirectory (h : outer.isDirectory base = true) (hroom : ¬ IsLong (Path.join base "x")) :
    outer.Enters base (outer.within base) := by
  obtain ⟨place, hplace, hdirectory⟩ := isDirectory_iff.mp h
  obtain rfl := eq_placeOf_of_locate hplace
  exact ⟨rfl, hplace, hdirectory, hroom⟩

section

variable {name : String} (h : outer.isDirectory base = true) (hname : IsSegment name) (hlong : 3 ≤ name.utf8ByteSize)
  (hroom : ¬ IsLong (Path.join base name))
include h hname hlong hroom

private theorem size_join_x : (Path.join base "x").utf8ByteSize + 2 ≤ maxPathSize := by
  obtain ⟨place, hplace, -⟩ := isDirectory_iff.mp h
  have hbase : base ≠ "" := (locate_eq_ok_iff.mp hplace).1
  have hone : ("x" : String).utf8ByteSize = 1 := rfl
  rw [IsLong, Nat.not_lt] at hroom
  refine Nat.le_trans ?_ hroom
  rw [Path.join_of_relative rfl, Path.join_of_relative hname.isAbsolute, if_neg hbase, if_neg hbase]
  split <;> simp only [String.utf8ByteSize_append] <;> omega

/-- A directory is entered if there is room for a file in it. -/
theorem enters_of_join : outer.Enters base (outer.within base) :=
  enters_of_isDirectory h (Nat.not_lt.mpr (Nat.le_of_add_right_le (size_join_x h hname hlong hroom)))

/-- The directory of a file is entered where the path before its name leads. -/
theorem enters_directory_join : outer.Enters (Path.directory (Path.join base name)) (outer.within base) := by
  have henters := enters_of_join h hname hlong hroom
  have hroom := size_join_x h hname hlong hroom
  rw [Path.directory_join_eq henters.base_ne_empty hname Path.isSegment_x]
  have hsame : outer.within (Path.directory (Path.join base "x")) = outer.within base := by
    rw [within, within, placeOf_directory_join Path.isSegment_x]
  rw [← hsame]
  refine enters_of_isDirectory henters.isDirectory_directory_join (Nat.not_lt.mpr (Nat.le_trans ?_ hroom))
  refine Nat.le_trans (Path.size_join_x_le _) (Nat.add_le_add_right ?_ 2)
  rw [Path.directory]
  cases hparent : Path.parent? (Path.join base "x") with
  | none => exact Nat.zero_le _
  | some parent => exact Path.size_parent_le hparent

end

end FileSystem

end SchemaDocs
