import Mathlib.Data.List.Nodup
import SchemaDocs.Proofs.Storage.Frame
import SchemaDocs.Proofs.Storage.Joining
import SchemaDocs.Site.Output

/-!
# The journal of an output directory

A journal lists the files that are written to an output directory, in order and with what is
written. Different output paths lie at different places, whatever the path of the directory looks
like, and each is claimed once; so after all writes every file of the journal reads as it was
written.
-/

namespace SchemaDocs

variable {path name : String} {content : ByteArray}

/-! ### Where output paths lie -/

theorem isSegment_of_mem_pieces (hpath : isOutputPath path) (hname : name ∈ Text.pieces '/' path) : IsSegment name := by
  rw [isOutputPath, List.all_eq_true] at hpath
  have hfree := hpath name hname
  simp only [Bool.and_eq_true, decide_eq_true_eq] at hfree
  exact ⟨hfree.1.1, hfree.1.2, hfree.2, Text.not_mem_of_mem_pieces hname⟩

namespace OutputDirectory

variable {output : OutputDirectory} {files : FileSystem}

def place (output : OutputDirectory) (files : FileSystem) (path : String) : List String :=
  FileSystem.walk (files.start output.root) (Text.pieces '/' output.root) ++ Text.pieces '/' path

theorem place_injective {left right : String} (h : output.place files left = output.place files right) :
    left = right := Text.pieces_injective '/' (List.append_cancel_left h)

theorem eq_place_of_locate {found : List String} (hpath : isOutputPath path)
    (h : files.locate (output.location path) = .ok found) : found = output.place files path := by
  obtain ⟨habsolute, hwalk⟩ := FileSystem.walk_foldl_join (fun name => isSegment_of_mem_pieces hpath) (files.start output.root)
    output.root
  have hstart : files.start (output.location path) = files.start output.root := by
    rw [FileSystem.start, FileSystem.start, location, habsolute]
  have hfound := FileSystem.eq_walk_of_follow (FileSystem.follow_of_locate h)
  rw [hstart] at hfound
  exact hfound.trans hwalk

theorem place_of_workingDirectory {others : FileSystem} (h : others.workingDirectory = files.workingDirectory)
    (output : OutputDirectory) (path : String) : output.place others path = output.place files path := by
  rw [place, place, FileSystem.start, FileSystem.start, h]

theorem location_of_root {other : OutputDirectory} (h : other.root = output.root) (path : String) :
    other.location path = output.location path := by
  rw [location, location, h]

theorem place_of_root {other : OutputDirectory} (h : other.root = output.root) (files : FileSystem) (path : String) :
    other.place files path = output.place files path := by
  rw [place, place, h]

theorem claim_eq_ok_iff {claimed : OutputDirectory} :
    output.claim path = .ok claimed ↔
      isOutputPath path ∧ path ∉ output.written ∧
        claimed = { output with written := insertPath path output.written } := by
  rw [claim]
  cases isOutputPath path with
  | false => simp
  | true =>
    by_cases hunclaimed : path ∈ output.written
    · simp [hunclaimed]
    · simp [hunclaimed, eq_comm]

end OutputDirectory

theorem insertPath_perm {paths : List String} (hpath : path ∉ paths) :
    (insertPath path paths).Perm (path :: paths) := by
  induction paths with
  | nil => exact .refl _
  | cons p paths ih =>
    rw [List.mem_cons, not_or] at hpath
    rw [insertPath, if_neg hpath.1]
    split
    · exact .refl _
    · exact ((ih hpath.2).cons p).trans (.swap path p paths)

/-! ### Writes -/

namespace Disk

variable {disk middle next : Disk} {journal : List (String × ByteArray)}

/-- Writes files in turn, up to the first failure. -/
def writeAll : (journal : List (String × ByteArray)) → Disk → Except OutputError Disk
  | [], disk => .ok disk
  | (path, content) :: journal, disk =>
    match disk.writeBytes path content with
    | (.error error, _) => .error error
    | (.ok (), disk) => disk.writeAll journal

theorem writeAll_cons_eq_ok_iff :
    disk.writeAll ((path, content) :: journal) = .ok next ↔
      ∃ middle, disk.writeBytes path content = (.ok (), middle) ∧ middle.writeAll journal = .ok next := by
  rw [writeAll]
  constructor
  · intro h
    split at h
    · cases h
    · rename_i middle hmiddle
      exact ⟨middle, hmiddle, h⟩
  · rintro ⟨middle, hmiddle, h⟩
    rw [hmiddle]
    exact h

theorem writeAll_append (disk : Disk) (journal more : List (String × ByteArray)) :
    disk.writeAll (journal ++ more) = disk.writeAll journal >>= fun middle => middle.writeAll more := by
  induction journal generalizing disk with
  | nil => rfl
  | cons write journal ih =>
    obtain ⟨path, content⟩ := write
    rw [List.cons_append, writeAll, writeAll]
    split
    · rfl
    · exact ih _

theorem writeAll_append_eq_ok_iff {more : List (String × ByteArray)} :
    disk.writeAll (journal ++ more) = .ok next ↔
      ∃ middle, disk.writeAll journal = .ok middle ∧ middle.writeAll more = .ok next := by
  rw [writeAll_append, bind_eq_ok_iff]

/-- Writing a file claims its path, makes its directory and writes the content, and ends at the first of
these steps that is refused. -/
theorem writeBytes_cases (disk : Disk) (path : String) (content : ByteArray) :
    (∃ error, disk.output.claim path = .error error ∧ disk.writeBytes path content = (.error error, disk)) ∨
      isOutputPath path ∧ path ∉ disk.output.written ∧
        ∃ made, (disk.files.createDirectories (Path.directory (disk.output.location path))).2 = made ∧
          ((∃ reason, disk.writeBytes path content =
              (.error (.failed reason), ⟨made, { disk.output with written := insertPath path disk.output.written }⟩)) ∨
            ∃ files, made.write (disk.output.location path) content = .ok files ∧ disk.writeBytes path content =
              (.ok (), ⟨files, { disk.output with written := insertPath path disk.output.written }⟩)) := by
  rw [writeBytes]
  cases hclaim : disk.output.claim path with
  | error error => exact .inl ⟨error, rfl, rfl⟩
  | ok output =>
    obtain ⟨hpath, hunclaimed, rfl⟩ := OutputDirectory.claim_eq_ok_iff.mp hclaim
    have hlocation : OutputDirectory.location { disk.output with written := insertPath path disk.output.written } path =
        disk.output.location path := rfl
    refine .inr ⟨hpath, hunclaimed, _, rfl, ?_⟩
    simp only [hlocation]
    rcases disk.files.createDirectories (Path.directory (disk.output.location path)) with ⟨outcome, files⟩
    cases outcome with
    | error error => exact .inl ⟨_, rfl⟩
    | ok _ =>
      cases hwrite : files.write (disk.output.location path) content with
      | error error => exact .inl ⟨disk.output.location path, by simp only [hwrite]⟩
      | ok written => exact .inr ⟨written, rfl, by simp only [hwrite]⟩

/-- What writing a file comes to, and what becomes of the disk. A path that is refused changes nothing;
one that is accepted stays claimed, also where no file can be made. -/
inductive Ends (disk : Disk) (path : String) (content : ByteArray) : Except OutputError Unit → Disk → Prop where
  | notRelative (hpath : ¬ isOutputPath path) : Ends disk path content (.error (.notRelative path)) disk
  | duplicate (hpath : isOutputPath path) (hclaimed : path ∈ disk.output.written) :
      Ends disk path content (.error (.duplicate path)) disk
  | failed (hpath : isOutputPath path) (hunclaimed : path ∉ disk.output.written) (reason : String) {files : FileSystem}
      (hfiles : disk.files.Alters files []) :
      Ends disk path content (.error (.failed reason))
        ⟨files, { disk.output with written := insertPath path disk.output.written }⟩
  | written (hpath : isOutputPath path) (hunclaimed : path ∉ disk.output.written) {files : FileSystem}
      (hfiles : disk.files.Alters files [disk.output.place disk.files path])
      (hlocate : files.locate (disk.output.location path) = .ok (disk.output.place disk.files path))
      (hcontent : files.root.bareAt? (disk.output.place disk.files path) = some (.file content)) :
      Ends disk path content (.ok ()) ⟨files, { disk.output with written := insertPath path disk.output.written }⟩

theorem ends_writeBytes (disk : Disk) (path : String) (content : ByteArray) :
    disk.Ends path content (disk.writeBytes path content).1 (disk.writeBytes path content).2 := by
  have hmade := FileSystem.alters_of_createDirectories (Path.directory (disk.output.location path)) disk.files
  rcases disk.writeBytes_cases path content with
    ⟨error, hclaim, hends⟩ | ⟨hpath, hunclaimed, made, rfl, ⟨reason, hends⟩ | ⟨files, hwrite, hends⟩⟩ <;> rw [hends]
  · rw [OutputDirectory.claim] at hclaim
    split at hclaim
    · rename_i hpath
      obtain rfl := Except.error.inj hclaim
      exact .notRelative (by simpa using hpath)
    · rename_i hpath
      split at hclaim
      · rename_i hclaimed
        obtain rfl := Except.error.inj hclaim
        exact .duplicate (by simpa using hpath) (List.contains_iff_mem.mp hclaimed)
      · cases hclaim
  · exact .failed hpath hunclaimed _ hmade
  · obtain ⟨found, hfound, halters, hcontent⟩ := FileSystem.alters_of_write hwrite
    obtain rfl : found = disk.output.place disk.files path := by
      rw [← OutputDirectory.place_of_workingDirectory hmade.workingDirectory]
      exact OutputDirectory.eq_place_of_locate hpath hfound
    exact .written hpath hunclaimed (hmade.trans halters) (halters.locate hfound) hcontent

theorem root_writeBytes (disk : Disk) (path : String) (content : ByteArray) :
    (disk.writeBytes path content).2.output.root = disk.output.root := by
  have hends := disk.ends_writeBytes path content
  generalize (disk.writeBytes path content).1 = outcome at hends
  generalize (disk.writeBytes path content).2 = next at hends
  cases hends <;> rfl

theorem written_subset_writeBytes (disk : Disk) (path : String) (content : ByteArray) :
    disk.output.written ⊆ (disk.writeBytes path content).2.output.written := by
  have hends := disk.ends_writeBytes path content
  generalize (disk.writeBytes path content).1 = outcome, (disk.writeBytes path content).2 = next at hends
  cases hends with
  | notRelative _ | duplicate _ _ => exact List.Subset.refl _
  | failed _ hunclaimed _ _ => exact fun _ hclaimed => (insertPath_perm hunclaimed).mem_iff.mpr (List.mem_cons_of_mem _ hclaimed)
  | written _ hunclaimed _ _ _ => exact fun _ hclaimed => (insertPath_perm hunclaimed).mem_iff.mpr (List.mem_cons_of_mem _ hclaimed)

/-- What a file that is written does to a disk. -/
structure Holds (disk next : Disk) (path : String) (content : ByteArray) : Prop where
  accepted : isOutputPath path
  unclaimed : path ∉ disk.output.written
  output : next.output = { disk.output with written := insertPath path disk.output.written }
  keeps : disk.files.Keeps next.files [disk.output.place disk.files path]
  locate : next.files.locate (disk.output.location path) = .ok (disk.output.place disk.files path)
  bareAt : next.files.root.bareAt? (disk.output.place disk.files path) = some (.file content)

theorem holds_of_writeBytes (h : disk.writeBytes path content = (.ok (), next)) : disk.Holds next path content := by
  have hends := disk.ends_writeBytes path content
  rw [h] at hends
  cases hends with
  | written hpath hunclaimed hfiles hlocate hcontent =>
    exact ⟨hpath, hunclaimed, rfl, hfiles.toKeeps, hlocate, hcontent⟩

/-- A file that is not written leaves all files as they are, and claims no other path. -/
theorem alters_of_writeBytes_error {cause : OutputError} (h : disk.writeBytes path content = (.error cause, next)) :
    disk.files.Alters next.files [] ∧ next.output.root = disk.output.root ∧
      ∀ claimed ∈ next.output.written, claimed ∈ disk.output.written ∨ claimed = path := by
  have hends := disk.ends_writeBytes path content
  rw [h] at hends
  cases hends with
  | notRelative | duplicate => exact ⟨.refl _, rfl, fun _ => .inl⟩
  | failed _ hunclaimed _ hfiles =>
    refine ⟨hfiles, rfl, fun claimed hclaimed => ?_⟩
    exact (List.mem_cons.mp ((insertPath_perm hunclaimed).mem_iff.mp hclaimed)).symm

theorem notRelative_of_writeBytes {target : String}
    (h : disk.writeBytes path content = (.error (.notRelative target), next)) :
    target = path ∧ ¬ isOutputPath path ∧ next = disk := by
  have hends := disk.ends_writeBytes path content
  rw [h] at hends
  cases hends with
  | notRelative hpath => exact ⟨rfl, hpath, rfl⟩

/-- What the writes of a journal do to a disk. -/
structure HoldsAll (disk next : Disk) (journal : List (String × ByteArray)) : Prop where
  root : next.output.root = disk.output.root
  accepted : ∀ write ∈ journal, isOutputPath write.1
  unclaimed : ∀ write ∈ journal, write.1 ∉ disk.output.written
  nodup : (journal.map Prod.fst).Nodup
  written : next.output.written.Perm (journal.map Prod.fst ++ disk.output.written)
  keeps : disk.files.Keeps next.files (journal.map fun write => disk.output.place disk.files write.1)
  read : ∀ write ∈ journal, next.files.read (disk.output.location write.1) = .ok write.2

theorem holdsAll_cons (hfirst : disk.Holds middle path content) (hrest : middle.HoldsAll next journal) :
    disk.HoldsAll next ((path, content) :: journal) := by
  have hroot : middle.output.root = disk.output.root := by rw [hfirst.output]
  have hplaces (path : String) : middle.output.place middle.files path = disk.output.place disk.files path := by
    rw [OutputDirectory.place_of_workingDirectory hfirst.keeps.workingDirectory, OutputDirectory.place_of_root hroot]
  have hclaimed : middle.output.written.Perm (path :: disk.output.written) := by
    rw [hfirst.output]
    exact insertPath_perm hfirst.unclaimed
  have hlater (write : String × ByteArray) (hwrite : write ∈ journal) :
      write.1 ≠ path ∧ write.1 ∉ disk.output.written := by
    have hunclaimed := hrest.unclaimed write hwrite
    rw [hclaimed.mem_iff, List.mem_cons, not_or] at hunclaimed
    exact hunclaimed
  have hkeeps := hrest.keeps
  simp only [hplaces] at hkeeps
  refine ⟨hrest.root.trans hroot, ?_, ?_, ?_, ?_, hfirst.keeps.trans hkeeps, ?_⟩
  · rw [List.forall_mem_cons]
    exact ⟨hfirst.accepted, hrest.accepted⟩
  · rw [List.forall_mem_cons]
    exact ⟨hfirst.unclaimed, fun write hwrite => (hlater write hwrite).2⟩
  · rw [List.map_cons, List.nodup_cons, List.mem_map]
    refine ⟨?_, hrest.nodup⟩
    rintro ⟨write, hwrite, hpath⟩
    exact (hlater write hwrite).1 hpath
  · refine hrest.written.trans ((hclaimed.append_left _).trans ?_)
    exact List.perm_middle
  · rw [List.forall_mem_cons]
    constructor
    -- no later write goes to the place of the first one, since places tell paths apart
    · refine FileSystem.read_eq_ok_iff.mpr ⟨_, hkeeps.locate hfirst.locate, hkeeps.bareAt _ _ hfirst.bareAt (.inr ?_)⟩
      rw [List.mem_map]
      rintro ⟨write, hwrite, hplace⟩
      exact (hlater write hwrite).1 (OutputDirectory.place_injective hplace)
    · intro write hwrite
      rw [← OutputDirectory.location_of_root hroot]
      exact hrest.read write hwrite

theorem holdsAll_of_writeAll (h : disk.writeAll journal = .ok next) : disk.HoldsAll next journal := by
  induction journal generalizing disk with
  | nil =>
    obtain rfl := Except.ok.inj h
    refine ⟨rfl, ?_, ?_, List.nodup_nil, .refl _, .refl _, ?_⟩ <;> exact fun _ hwrite => absurd hwrite List.not_mem_nil
  | cons write journal ih =>
    obtain ⟨path, content⟩ := write
    obtain ⟨middle, hmiddle, hnext⟩ := writeAll_cons_eq_ok_iff.mp h
    exact holdsAll_cons (holds_of_writeBytes hmiddle) (ih hnext)

end Disk

namespace FileSystem.IsKept

variable {P : FileSystem → Prop} {disk next : Disk} {journal : List (String × ByteArray)}

theorem writeBytes (h : IsKept P) (hfiles : P disk.files) (path : String) (content : ByteArray) :
    P (disk.writeBytes path content).2.files := by
  rcases disk.writeBytes_cases path content with ⟨error, -, hends⟩ | ⟨-, -, made, hmade, hcases⟩
  · rw [hends]
    exact hfiles
  · generalize Path.directory (disk.output.location path) = directory at hmade
    have hdirectories : P made := hmade ▸ h.createDirectories hfiles directory
    rcases hcases with ⟨reason, hends⟩ | ⟨files, hwrite, hends⟩ <;> rw [hends]
    · exact hdirectories
    · exact h.write hdirectories hwrite

theorem writeAll (h : IsKept P) (hfiles : P disk.files) (hwritten : disk.writeAll journal = .ok next) : P next.files := by
  induction journal generalizing disk with
  | nil => exact Except.ok.inj hwritten ▸ hfiles
  | cons write journal ih =>
    obtain ⟨path, content⟩ := write
    obtain ⟨middle, hmiddle, hrest⟩ := Disk.writeAll_cons_eq_ok_iff.mp hwritten
    have hkept := h.writeBytes hfiles path content
    rw [hmiddle] at hkept
    exact ih hkept hrest

end FileSystem.IsKept

end SchemaDocs
