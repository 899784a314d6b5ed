import SchemaDocs.Project.Scaffold
import SchemaDocs.Proofs.Storage.Adding
import SchemaDocs.Proofs.Storage.Parents
import Mathlib.Data.List.Infix

/-!
# The files of a new project

Scaffolding makes the directory of the guide and then writes its files one by one. Their places are apart from
each other, so that what is written for one of them changes nothing for the others: without overwriting, a file
is written exactly if nothing is at its place once the directories have been made.
-/

namespace SchemaDocs

namespace Scaffold

open FileSystem

variable {fs middle next : FileSystem} {path text config : String} {overwrite : Bool} {count : Nat}
  {files rest : List (String × String)} {file : String × String}

/-! ### Writing one by one -/

/-- A file is written if it is not there, or whatever is there if that is overwritten. -/
def isWritten (overwrite : Bool) (fs : FileSystem) (file : String × String) : Bool := overwrite || !fs.contains file.1

theorem writeFiles_cons_eq_ok_iff :
    writeFiles overwrite (file :: rest) fs = (.ok count, next) ↔
      isWritten overwrite fs file = false ∧ writeFiles overwrite rest fs = (.ok count, next) ∨
        isWritten overwrite fs file = true ∧ ∃ middle others, fs.write file.1 file.2.toUTF8 = .ok middle ∧
          writeFiles overwrite rest middle = (.ok others, next) ∧ count = others + 1 := by
  have hkept : (fs.contains file.1 && !overwrite) = !isWritten overwrite fs file := by
    rw [isWritten]
    cases overwrite <;> cases fs.contains file.1 <;> rfl
  rw [writeFiles, hkept]
  cases isWritten overwrite fs file with
  | false => simp
  | true =>
    cases hwrite : fs.write file.1 file.2.toUTF8 with
    | error error => simp
    | ok middle =>
      cases hrest : writeFiles overwrite rest middle with
      | mk result final => cases result <;> simp [hrest, Except.map, eq_comm, and_comm]

private theorem adds_of_writeFiles (hapart : files.Pairwise fun file other => fs.Apart file.1 other.1)
    (h : writeFiles overwrite files fs = (.ok count, next)) :
    fs.Adds next (files.filter (isWritten overwrite fs)) ∧ count = files.countP (isWritten overwrite fs) := by
  induction files generalizing fs count with
  | nil =>
    obtain ⟨hcount, rfl⟩ := Prod.mk.inj h
    exact ⟨.refl fs, (Except.ok.inj hcount).symm⟩
  | cons file rest ih =>
    obtain ⟨hfile, hrest⟩ := List.pairwise_cons.mp hapart
    rcases writeFiles_cons_eq_ok_iff.mp h with ⟨hkept, hnext⟩ | ⟨hwritten, middle, others, hwrite, hnext, rfl⟩
    · rw [List.filter_cons_of_neg (by simp [hkept]), List.countP_cons_of_neg (by simp [hkept])]
      exact ih hrest hnext
    · have hadds := adds_of_write hwrite
      have hplaces : ∀ other ∈ rest, fs.placeOf file.1 ≠ fs.placeOf other.1 := fun other hother =>
        have ⟨hlocated, hplain⟩ := hadds.located _ List.mem_cons_self
        hfile other hother hlocated hplain
      -- the rest is kept or written as it would have been before
      have hsame : ∀ other ∈ rest, isWritten overwrite middle other = isWritten overwrite fs other := fun other hother => by
        rw [isWritten, hadds.contains_eq (List.forall_mem_singleton.mpr (hplaces other hother).symm), isWritten]
      obtain ⟨hmore, rfl⟩ := ih (hrest.imp hadds.apart) hnext
      rw [List.filter_congr hsame] at hmore
      rw [List.filter_cons_of_pos hwritten, List.countP_cons_of_pos hwritten,
        List.countP_congr fun other hother => by rw [hsame other hother]]
      exact ⟨hadds.append hmore (List.forall_mem_singleton.mpr fun other hother =>
        hplaces other (List.mem_of_mem_filter hother)), rfl⟩

private theorem writeFiles_kept (h : ∀ file ∈ files, fs.contains file.1 = true) :
    writeFiles false files fs = (.ok 0, fs) := by
  induction files with
  | nil => rfl
  | cons file rest ih =>
    obtain ⟨hfile, hrest⟩ := List.forall_mem_cons.mp h
    exact writeFiles_cons_eq_ok_iff.mpr (.inl ⟨by simp [isWritten, hfile], ih hrest⟩)

/-! ### The files of a project -/

def guideDirectory (config : String) : String := Path.join (pagesDirectory config) "guide"

theorem run_eq_ok_iff :
    run config overwrite fs = (.ok count, next) ↔
      ∃ middle, fs.createDirectories (guideDirectory config) = (.ok (), middle) ∧
        writeFiles overwrite (projectFiles config) middle = (.ok count, next) := by
  -- the equation of `run` would evaluate the path of the guide
  delta run
  rw [← guideDirectory]
  generalize fs.createDirectories (guideDirectory config) = made
  obtain ⟨result, middle⟩ := made
  cases result <;> simp

def samplePages : List (String × String) :=
  [("index.md", indexText), ("guide/index.md", guideText), ("guide/getting-started.md", gettingStartedText)]

theorem projectFiles_eq (config : String) :
    projectFiles config =
      (config, configText) :: samplePages.map fun page => (Path.join (pagesDirectory config) page.1, page.2) := by
  simp only [projectFiles, samplePages, List.map_cons, List.map_nil]

private theorem length_projectFiles (config : String) : (projectFiles config).length = 4 := by
  simp only [projectFiles, List.length_cons, List.length_nil]

theorem samplePages_lead_down : ∀ page ∈ samplePages, Path.isDownward page.1 ∧ Path.steps page.1 ≠ [] := by
  decide +kernel

private theorem samplePages_differ : samplePages.Pairwise fun page other => Path.steps page.1 ≠ Path.steps other.1 := by
  decide +kernel

theorem isSegment_pages : IsSegment "pages" := ⟨by decide, by decide, by decide, by decide⟩

private theorem isSegment_guide : IsSegment "guide" := ⟨by decide, by decide, by decide, by decide⟩

theorem guideDirectory_ne_empty (config : String) : guideDirectory config ≠ "" := isSegment_guide.join_ne_empty _

theorem placeOf_page (hpath : Path.isDownward path) (fs : FileSystem) (config : String) :
    fs.placeOf (Path.join (pagesDirectory config) path) = fs.placeOf (Path.directory config) ++ "pages" :: Path.steps path := by
  rw [placeOf_join hpath, pagesDirectory, placeOf_join_segment isSegment_pages, List.append_assoc]
  rfl

private theorem apart_pages {page other : String × String} (hpage : page ∈ samplePages) (hother : other ∈ samplePages)
    (hne : Path.steps page.1 ≠ Path.steps other.1) (fs : FileSystem) (config : String) :
    fs.Apart (Path.join (pagesDirectory config) page.1) (Path.join (pagesDirectory config) other.1) := by
  intro _ _ hsame
  rw [placeOf_page (samplePages_lead_down _ hpage).1, placeOf_page (samplePages_lead_down _ hother).1] at hsame
  exact hne (List.cons.inj (List.append_cancel_left hsame)).2

private theorem apart_page {page : String × String} (hpage : page ∈ samplePages) (fs : FileSystem) (config : String) :
    fs.Apart config (Path.join (pagesDirectory config) page.1) := by
  intro hlocated hplain hsame
  obtain ⟨hdown, hsteps⟩ := samplePages_lead_down page hpage
  obtain ⟨base, name, -, -, hplace⟩ := exists_join_of_locate hlocated hplain
  rw [hplace, placeOf_page hdown] at hsame
  exact hsteps (List.cons.inj (List.append_cancel_left hsame)).2.symm

private theorem apart_projectFiles (fs : FileSystem) (config : String) :
    (projectFiles config).Pairwise fun file other => fs.Apart file.1 other.1 := by
  rw [projectFiles_eq, List.pairwise_cons, List.forall_mem_map, List.pairwise_map]
  refine ⟨fun page hpage => apart_page hpage fs config, ?_⟩
  exact List.Pairwise.imp_of_mem (fun hpage hother hne => apart_pages hpage hother hne fs config) samplePages_differ

private theorem samplePages_not_on_way : ∀ page ∈ samplePages, ¬ Path.steps page.1 <+: ["guide"] := by
  decide +kernel

private theorem guideDirectory_dots (hdots : ∀ part ∈ Text.pieces '/' config, part ≠ "..") :
    ∀ part ∈ Text.pieces '/' (guideDirectory config), part ≠ ".." := by
  have hjoin {base name : String} (hname : IsSegment name) (hbase : ∀ part ∈ Text.pieces '/' base, part ≠ "..") :
      ∀ part ∈ Text.pieces '/' (Path.join base name), part ≠ ".." := by
    obtain ⟨front, hpieces, hfront⟩ := hname.pieces_join base
    rw [hpieces, List.forall_mem_append, List.forall_mem_singleton]
    refine ⟨fun part hpart => hbase part ?_, hname.ne_dots⟩
    rcases hfront with hfront | hfront
    · exact hfront ▸ hpart
    · exact hfront ▸ List.mem_append_left _ hpart
  refine hjoin isSegment_guide (hjoin isSegment_pages ?_)
  rw [Path.directory]
  cases hparent : Path.parent? config with
  | none => decide
  | some front =>
    obtain ⟨names, hnames, hfront⟩ := (Path.begins_parent hparent).pieces
    have hkept : ∀ part ∈ names, part ≠ ".." := fun part hpart => hdots part (hnames.subset hpart)
    rcases hfront with hfront | hfront
    · exact fun part hpart => hkept part (hfront ▸ hpart)
    · rw [Option.getD_some, hfront, List.forall_mem_append, List.forall_mem_singleton]
      exact ⟨hkept, by decide⟩

private theorem not_passes_guideDirectory {base name : String} (hconfig : config = Path.join base name)
    (hname : IsSegment name)
    (hpages : name ≠ "pages") (hdots : ∀ part ∈ Text.pieces '/' config, part ≠ "..") (fs : FileSystem) :
    ∀ file ∈ projectFiles config, ¬ fs.Passes (guideDirectory config) (fs.placeOf file.1) := by
  have hguide : fs.placeOf (guideDirectory config) = fs.placeOf (Path.directory config) ++ ["pages", "guide"] := by
    rw [guideDirectory, placeOf_join_segment isSegment_guide, pagesDirectory, placeOf_join_segment isSegment_pages,
      List.append_assoc]
    rfl
  have hbelow {place : List String} (h : fs.Passes (guideDirectory config) (fs.placeOf (Path.directory config) ++ place)) :
      place <+: ["pages", "guide"] := by
    have hprefix := prefix_of_passes (guideDirectory_dots hdots) h
    rwa [hguide, List.prefix_append_right_inj] at hprefix
  rw [projectFiles_eq, List.forall_mem_cons, List.forall_mem_map]
  constructor
  · intro h
    have hplace : fs.placeOf config = fs.placeOf (Path.directory config) ++ [name] := by
      rw [hconfig, placeOf_join_segment hname, placeOf_directory_join hname]
    rw [hplace] at h
    exact hpages (List.cons_prefix_cons.mp (hbelow h)).1
  · intro page hpage h
    rw [placeOf_page (samplePages_lead_down page hpage).1] at h
    exact samplePages_not_on_way page hpage (List.cons_prefix_cons.mp (hbelow h)).2

/-- A file is new if nothing is at its place, and no directory is made there on the way to the guide. -/
def IsNew (fs : FileSystem) (config path : String) : Prop :=
  fs.root.get? (fs.placeOf path) = none ∧ ¬ fs.Passes (guideDirectory config) (fs.placeOf path)

instance (fs : FileSystem) (path : String) (place : List String) : Decidable (fs.Passes path place) :=
  decidable_of_iff (∃ names ∈ (Text.pieces '/' path).inits, place = walk (fs.start path) names) (by
    simp only [Passes, List.mem_inits])

instance (fs : FileSystem) (config path : String) : Decidable (IsNew fs config path) :=
  inferInstanceAs (Decidable (_ ∧ _))

section

variable (hmade : fs.createDirectories (guideDirectory config) = (.ok (), middle))
include hmade

private theorem alters_of_made : fs.Alters middle [] := by
  have halters := alters_of_createDirectories (guideDirectory config) fs
  rwa [hmade] at halters

private theorem placeOf_of_made (path : String) : middle.placeOf path = fs.placeOf path :=
  placeOf_eq (alters_of_made hmade).workingDirectory path

private theorem directory_of_made {place : List String} (hpasses : fs.Passes (guideDirectory config) place) :
    middle.root.bareAt? place = some (.directory []) :=
  directory_of_passes ((isDirectory_of_createDirectories hmade).resolve_left (guideDirectory_ne_empty config))
    (hpasses.of_workingDirectory (alters_of_made hmade).workingDirectory.symm)

private theorem isNew_iff (path : String) : IsNew fs config path ↔ middle.root.bareAt? (fs.placeOf path) = none := by
  rw [vacant_iff_of_createDirectories (guideDirectory_ne_empty config) hmade, Tree.bareAt?_eq_none_iff, IsNew]

variable (hadds : middle.Adds next ((projectFiles config).filter (isWritten false middle)))
include hadds

private theorem isWritten_iff_isNew (hfile : file ∈ projectFiles config) :
    isWritten false middle file = true ↔ IsNew fs config file.1 := by
  have hlocated (h : isWritten false middle file = true) : middle.locate file.1 = .ok (fs.placeOf file.1) := by
    rw [← placeOf_of_made hmade]
    exact (hadds.located file (List.mem_filter.mpr ⟨hfile, h⟩)).1
  rw [isNew_iff hmade]
  simp only [isWritten, Bool.false_or, Bool.not_eq_true', Bool.eq_false_iff, Ne, contains_iff] at hlocated ⊢
  constructor
  · intro h
    exact Classical.byContradiction fun hthere => h ⟨_, hlocated h, hthere⟩
  · rintro hvacant ⟨place, hplace, hthere⟩
    rw [eq_placeOf_of_locate hplace, placeOf_of_made hmade] at hthere
    exact hthere hvacant

private theorem bareAt?_of_kept {place : List String} {tree : Tree} (htree : middle.root.bareAt? place = some tree) :
    next.root.bareAt? place = some tree := by
  rw [hadds.bareAt place, htree]
  rintro file hfile rfl
  obtain ⟨hmem, hwritten⟩ := List.mem_filter.mp hfile
  have hvacant := (isNew_iff hmade file.1).mp ((isWritten_iff_isNew hmade hadds hmem).mp hwritten)
  rw [← placeOf_of_made hmade, htree] at hvacant
  cases hvacant

end

/-! ### What becomes of the files -/

private theorem exists_of_run (h : run config overwrite fs = (.ok count, next)) :
    ∃ middle, fs.createDirectories (guideDirectory config) = (.ok (), middle) ∧
      middle.Adds next ((projectFiles config).filter (isWritten overwrite middle)) ∧
      count = (projectFiles config).countP (isWritten overwrite middle) := by
  obtain ⟨middle, hmade, hwrite⟩ := run_eq_ok_iff.mp h
  exact ⟨middle, hmade, adds_of_writeFiles (apart_projectFiles middle config) hwrite⟩

theorem placeOf_of_run (h : run config overwrite fs = (.ok count, next)) (path : String) :
    next.placeOf path = fs.placeOf path := by
  obtain ⟨middle, hmade, hadds, -⟩ := exists_of_run h
  exact placeOf_eq (hadds.workingDirectory.trans (alters_of_made hmade).workingDirectory) path

/-- No file at another place is made, changed or lost. -/
theorem file_iff_of_run (h : run config overwrite fs = (.ok count, next)) {place : List String} {content : ByteArray}
    (hplace : ∀ file ∈ projectFiles config, place ≠ fs.placeOf file.1) :
    next.root.get? place = some (.file content) ↔ fs.root.get? place = some (.file content) := by
  obtain ⟨middle, hmade, hadds, -⟩ := exists_of_run h
  rw [← Tree.bareAt?_eq_file_iff, ← Tree.bareAt?_eq_file_iff]
  refine ((alters_of_made hmade).trans hadds.alters).file_iff ?_
  rw [List.nil_append, List.mem_map]
  rintro ⟨file, hfile, hsame⟩
  exact hplace file (List.mem_of_mem_filter hfile) (hsame.symm.trans (placeOf_of_made hmade file.1))

theorem read_of_overwrite (h : run config true fs = (.ok count, next)) (hfile : file ∈ projectFiles config) :
    next.read file.1 = .ok file.2.toUTF8 := by
  obtain ⟨middle, -, hadds, -⟩ := exists_of_run h
  exact hadds.read (List.mem_filter.mpr ⟨hfile, rfl⟩)

private theorem count_of_overwrite (h : run config true fs = (.ok count, next)) : count = 4 := by
  obtain ⟨middle, -, -, hcount⟩ := exists_of_run h
  have hall : ∀ file ∈ projectFiles config, isWritten true middle file = true := fun _ _ => rfl
  rwa [List.countP_eq_length.mpr hall, length_projectFiles] at hcount

theorem read_of_isNew (h : run config false fs = (.ok count, next)) (hfile : file ∈ projectFiles config)
    (hnew : IsNew fs config file.1) : next.read file.1 = .ok file.2.toUTF8 := by
  obtain ⟨middle, hmade, hadds, -⟩ := exists_of_run h
  exact hadds.read (List.mem_filter.mpr ⟨hfile, (isWritten_iff_isNew hmade hadds hfile).mpr hnew⟩)

theorem directory_of_passes_guide (h : run config overwrite fs = (.ok count, next)) {place : List String}
    (hpasses : fs.Passes (guideDirectory config) place) : next.root.bareAt? place = some (.directory []) := by
  obtain ⟨middle, hmade, hadds, -⟩ := exists_of_run h
  exact (hadds.directory_iff place).mpr (directory_of_made hmade hpasses)

private theorem get?_of_kept (h : run config false fs = (.ok count, next)) {place : List String} {content : ByteArray}
    (hfile : fs.root.get? place = some (.file content)) : next.root.get? place = some (.file content) := by
  obtain ⟨middle, hmade, hadds, -⟩ := exists_of_run h
  rw [← Tree.bareAt?_eq_file_iff] at hfile ⊢
  exact bareAt?_of_kept hmade hadds ((alters_of_made hmade).bareAt place _ hfile (.inr List.not_mem_nil))

/-- All files of a project are there once it is scaffolded. -/
theorem contains_of_run (h : run config overwrite fs = (.ok count, next)) (hfile : file ∈ projectFiles config) :
    next.contains file.1 = true := by
  obtain ⟨middle, hmade, hadds, -⟩ := exists_of_run h
  by_cases hwritten : isWritten overwrite middle file = true
  · exact contains_of_read (hadds.read (List.mem_filter.mpr ⟨hfile, hwritten⟩))
  · simp only [isWritten, Bool.or_eq_true, Bool.not_eq_true', not_or, Bool.not_eq_true, Bool.not_eq_false] at hwritten
    obtain ⟨rfl, hthere⟩ := hwritten
    obtain ⟨place, hplace, hthere⟩ := contains_iff.mp hthere
    obtain ⟨tree, htree⟩ := Option.ne_none_iff_exists'.mp hthere
    exact contains_iff.mpr ⟨place, hadds.locate_iff.mpr hplace, by simp [bareAt?_of_kept hmade hadds htree]⟩

private theorem count_of_kept (h : run config false fs = (.ok count, next)) :
    count = (projectFiles config).countP fun file => IsNew fs config file.1 := by
  obtain ⟨middle, hmade, hadds, rfl⟩ := exists_of_run h
  exact List.countP_congr fun file hfile => by simpa using isWritten_iff_isNew hmade hadds hfile

private theorem run_again (h : run config overwrite fs = (.ok count, next)) :
    run config false next = (.ok 0, next) := by
  obtain ⟨middle, hmade, hadds, -⟩ := exists_of_run h
  exact run_eq_ok_iff.mpr ⟨next, createDirectories_again hmade hadds.alters.toKeeps,
    writeFiles_kept fun file hfile => contains_of_run h hfile⟩

/-- Scaffolding writes exactly the files that are new, or all four where files are overwritten; no other file is
changed, and doing it again changes nothing. -/
theorem run_creates_missing_files (h : run config overwrite fs = (.ok count, next)) :
    (∀ place content, (∀ file ∈ projectFiles config, place ≠ fs.placeOf file.1) →
      (next.root.get? place = some (.file content) ↔ fs.root.get? place = some (.file content))) ∧
    (overwrite = false →
      (∀ place content, fs.root.get? place = some (.file content) → next.root.get? place = some (.file content)) ∧
      (∀ file ∈ projectFiles config, fs.root.get? (fs.placeOf file.1) = none →
        (fs.Passes (guideDirectory config) (fs.placeOf file.1) →
          ∃ entries, next.root.get? (fs.placeOf file.1) = some (.directory entries)) ∧
        (¬ fs.Passes (guideDirectory config) (fs.placeOf file.1) → next.read file.1 = .ok file.2.toUTF8)) ∧
      count = (projectFiles config).countP (fun file => IsNew fs config file.1)) ∧
    (overwrite = true → count = 4 ∧ ∀ file ∈ projectFiles config, next.read file.1 = .ok file.2.toUTF8) ∧
    run config false next = (.ok 0, next) ∧
    ∀ base name, config = Path.join base name → IsSegment name → name ≠ "pages" →
      (∀ part ∈ Text.pieces '/' config, part ≠ "..") →
        ∀ file ∈ projectFiles config, ¬ fs.Passes (guideDirectory config) (fs.placeOf file.1) := by
  refine ⟨fun place content => file_iff_of_run h, ?_, ?_, run_again h, fun base name hconfig hname hpages hdots =>
    not_passes_guideDirectory hconfig hname hpages hdots fs⟩
  · rintro rfl
    refine ⟨fun place content => get?_of_kept h, fun file hfile hvacant => ⟨?_, ?_⟩, count_of_kept h⟩
    · intro hpasses
      exact Tree.bareAt?_eq_directory_iff.mp (directory_of_passes_guide h hpasses)
    · intro hpasses
      exact read_of_isNew h hfile ⟨hvacant, hpasses⟩
  · rintro rfl
    exact ⟨count_of_overwrite h, fun file hfile => read_of_overwrite h hfile⟩

namespace Sample

/-- A project that has its own configuration already. -/
def keptProject : FileSystem := { root := .directory [("protodoc.toml", .file "# mine\n".toUTF8)] }

theorem exists_of_fst {outcome : Except Failure Nat × FileSystem} {result : Except Failure Nat}
    (h : outcome.1 = result) :
    ∃ next, outcome = (result, next) := ⟨outcome.2, by rw [← h]⟩

private theorem keptProject_scaffolds : (run "protodoc.toml" false keptProject).1 = .ok 3 := by
  decide +kernel

end Sample

theorem run_creates_missing_files_kept :
    ∃ next, run "protodoc.toml" false Sample.keptProject = (.ok 3, next) ∧
      next.root.get? ["protodoc.toml"] = some (.file "# mine\n".toUTF8) ∧ run "protodoc.toml" false next = (.ok 0, next) := by
  obtain ⟨next, h⟩ := Sample.exists_of_fst Sample.keptProject_scaffolds
  obtain ⟨-, hkeeps, -, hagain, -⟩ := run_creates_missing_files h
  exact ⟨_, h, (hkeeps rfl).1 ["protodoc.toml"] _ rfl, hagain⟩

/-- A configuration that is named as the directory of the pages does not exist and is not written either: the
directory has been made by then, and is taken for a file that is kept. Overwriting fails at it. -/
theorem run_keeps_own_directory :
    (∀ file ∈ projectFiles "pages", ({} : FileSystem).contains file.1 = false) ∧ (run "pages" false {}).1 = .ok 3 ∧
      (run "pages" false {}).2.isDirectory "pages" = true ∧ (run "pages" true {}).1 = .error (.unwritable "pages") := by
  decide +kernel

end Scaffold

end SchemaDocs
